import Stylesheet.Proofs.Source.FilePath
import Stylesheet.Storage.Database

/-!
# The operations of a database

What each operation does to the register of URLs and to the source files behind the handles. Loading
a file and opening a document are the only ways into the register, and both create a handle for it.
-/

namespace Stylesheet

namespace Url

theorem text_inj {url url' : Url} : url.text = url'.text ↔ url = url' := by
  constructor
  · intro h
    cases url
    cases url'
    simpa using h
  · rintro rfl
    rfl

end Url

theorem SourceFile.ext_iff {file file' : SourceFile} :
    file = file' ↔ file.number = file'.number := by
  cases file
  cases file'
  simp

namespace Database

variable {db : Database} {disk : Disk} {path : List UInt8} {file : SourceFile}

/-! ## The register -/

theorem sourceFile?_openDocument (db : Database) (opened url : Url) (text : String) :
    (db.openDocument opened text).2.sourceFile? url =
      if url = opened then some ⟨db.sources.size⟩ else db.sourceFile? url := by
  simp only [openDocument, create, sourceFile?, Bindings.get?_insert, Url.text_inj]

theorem sourceFile?_closeDocument (db : Database) (closed url : Url) :
    (db.closeDocument closed).sourceFile? url =
      if url = closed then none else db.sourceFile? url := by
  simp only [closeDocument, sourceFile?, Bindings.get?_erase, Url.text_inj]

/-! ## Source files -/

theorem source?_create (url : Option Url) (text : String) {source : Source}
    (h : db.source? file = some source) : (db.create url text).2.source? file = some source := by
  have hlt : file.number < db.sources.size := (Array.getElem?_eq_some_iff.mp h).1
  simpa [create, source?, Array.getElem?_push, Nat.ne_of_lt hlt] using h

theorem source?_setText (db : Database) (set file : SourceFile) (text : String) :
    (db.setText set text).source? file =
      if set = file then (db.source? file).map ({ · with text := text }) else db.source? file := by
  simp [setText, source?, Array.getElem?_modify, SourceFile.ext_iff]

theorem source?_setUrl (db : Database) (set file : SourceFile) (url : Option Url) :
    (db.setUrl set url).source? file =
      if set = file then (db.source? file).map ({ · with url := url }) else db.source? file := by
  simp [setUrl, source?, Array.getElem?_modify, SourceFile.ext_iff]

/-! ## Loading -/

/-- The URL of the canonical form of a path. -/
def urlOf? (disk : Disk) (path : List UInt8) : Option Url :=
  (identify disk path).toOption.map Prod.snd

theorem identify_eq (disk : Disk) (path : List UInt8) :
    (∃ fault, disk.canonicalize path = .error fault ∧ identify disk path = .error (.io fault)) ∨
      ∃ canonical url, disk.canonicalize path = .ok canonical ∧
        Url.ofPath canonical = .ok url ∧ identify disk path = .ok (canonical, url) := by
  cases hcanonical : disk.canonicalize path with
  | error fault =>
    refine .inl ⟨fault, rfl, ?_⟩
    rw [identify, hcanonical]
    rfl
  | ok canonical =>
    obtain ⟨url, hurl, _⟩ := Url.exists_ofPath canonical
    refine .inr ⟨canonical, url, rfl, hurl, ?_⟩
    rw [identify, hcanonical]
    simp only [Except.mapError, bind, Except.bind, hurl]
    rfl

theorem urlOf?_of_canonical {canonical : List UInt8} {url : Url}
    (hcanonical : disk.canonicalize path = .ok canonical) (hurl : Url.ofPath canonical = .ok url) :
    urlOf? disk path = some url := by
  simp [urlOf?, identify, hcanonical, hurl, Except.mapError, bind, Except.bind, Except.toOption,
    pure, Except.pure]

/-- An input of a path with the database that is there afterwards, also where the input fails. -/
def load (db : Database) (disk : Disk) (path : List UInt8) :
    Except CompileError SourceFile × Database :=
  match identify disk path with
  | .error error => (.error error, db)
  | .ok (canonical, url) =>
    match db.sourceFile? url with
    | some file => (.ok file, db)
    | none =>
      match readText disk canonical with
      | .error fault => (.error (.io fault), db)
      | .ok text =>
        let (file, db) := db.openDocument url text
        (.ok file, db)

theorem input_eq (db : Database) (disk : Disk) (path : List UInt8) :
    db.input disk path = (db.load disk path).1.map (·, (db.load disk path).2) := by
  rw [input, load]
  cases identify disk path with
  | error error => rfl
  | ok identity =>
    obtain ⟨canonical, url⟩ := identity
    simp only [bind, Except.bind]
    cases db.sourceFile? url with
    | some file => rfl
    | none => cases readText disk canonical <;> rfl

/-- All that an input can do: it fails at the canonical form or at the text, finds the URL
registered, or opens what it has read under the URL. -/
theorem load_cases (db : Database) (disk : Disk) (path : List UInt8) :
    (∃ fault, disk.canonicalize path = .error fault ∧
        db.load disk path = (.error (.io fault), db)) ∨
      ∃ canonical url, disk.canonicalize path = .ok canonical ∧ Url.ofPath canonical = .ok url ∧
        ((∃ file, db.sourceFile? url = some file ∧ db.load disk path = (.ok file, db)) ∨
          db.sourceFile? url = none ∧
            ((∃ fault, readText disk canonical = .error fault ∧
                db.load disk path = (.error (.io fault), db)) ∨
              ∃ text, readText disk canonical = .ok text ∧
                db.load disk path =
                  (.ok (db.openDocument url text).1, (db.openDocument url text).2))) := by
  obtain ⟨fault, hcanonical, hidentify⟩ | ⟨canonical, url, hcanonical, hurl, hidentify⟩ :=
    identify_eq disk path
  · exact .inl ⟨fault, hcanonical, by rw [load, hidentify]⟩
  · refine .inr ⟨canonical, url, hcanonical, hurl, ?_⟩
    rw [load, hidentify]
    dsimp only
    cases hfile : db.sourceFile? url with
    | some file => exact .inl ⟨file, rfl, rfl⟩
    | none =>
      refine .inr ⟨rfl, ?_⟩
      cases readText disk canonical with
      | error fault => exact .inl ⟨fault, rfl, rfl⟩
      | ok text => exact .inr ⟨text, rfl, rfl⟩

/-- A path whose URL is registered is not read. -/
theorem load_of_registered {url : Url} (hurl : urlOf? disk path = some url)
    (hfile : db.sourceFile? url = some file) : db.load disk path = (.ok file, db) := by
  rw [urlOf?] at hurl
  rw [load]
  cases hidentify : identify disk path with
  | error error => simp [hidentify, Except.toOption] at hurl
  | ok identity =>
    obtain ⟨canonical, url'⟩ := identity
    obtain rfl : url' = url := by simpa [hidentify, Except.toOption] using hurl
    simp only [hfile]

/-- A path whose URL is not registered is read, and its text is opened under the URL. -/
theorem load_of_unregistered {canonical : List UInt8} {url : Url} {text : String}
    (hcanonical : disk.canonicalize path = .ok canonical) (hurl : Url.ofPath canonical = .ok url)
    (hnone : db.sourceFile? url = none) (hread : readText disk canonical = .ok text) :
    db.load disk path = (.ok (db.openDocument url text).1, (db.openDocument url text).2) := by
  simp only [load, identify, hcanonical, hurl, Except.mapError, bind, Except.bind, pure,
    Except.pure, hnone, hread]

end Database

end Stylesheet
