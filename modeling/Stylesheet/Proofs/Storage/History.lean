import Stylesheet.Proofs.Storage.Register

/-!
# The history of a database

A database goes through actions while the disk beside it changes, and each action and its answer is
remembered. From this history alone one can tell which handle each URL leads to: the latest of its
openings, first inputs and closings decides.
-/

namespace Stylesheet

/-! ## Actions -/

/-- What happens to a database, or to the disk beside it. -/
inductive Action where
  /-- Files are written or removed, which may leave any disk. -/
  | changeDisk (disk : Disk)
  | create (url : Option Url) (text : String)
  | openDocument (url : Url) (text : String)
  | closeDocument (url : Url)
  | input (path : List UInt8)
  | lookUp (url : Url)
  | setText (file : SourceFile) (text : String)
  | setUrl (file : SourceFile) (url : Option Url)

/-- An action with the disk on which it was taken and its answer, which may be a handle. -/
structure Entry where
  disk : Disk
  action : Action
  answer : Except CompileError (Option SourceFile)

/-- A database, the disk beside it, and what happened so far, the latest first. -/
structure Session where
  db : Database := {}
  disk : Disk
  history : List Entry := []

namespace Session

/-- The answer to an action, and the database and the disk after it. -/
def act (session : Session) : Action → Except CompileError (Option SourceFile) × Database × Disk
  | .changeDisk disk => (.ok none, session.db, disk)
  | .create url text =>
    let (file, db) := session.db.create url text
    (.ok (some file), db, session.disk)
  | .openDocument url text =>
    let (file, db) := session.db.openDocument url text
    (.ok (some file), db, session.disk)
  | .closeDocument url => (.ok none, session.db.closeDocument url, session.disk)
  | .input path =>
    let (answer, db) := session.db.load session.disk path
    (answer.map some, db, session.disk)
  | .lookUp url => (.ok (session.db.sourceFile? url), session.db, session.disk)
  | .setText file text => (.ok none, session.db.setText file text, session.disk)
  | .setUrl file url => (.ok none, session.db.setUrl file url, session.disk)

/-- What is remembered of an action. -/
def entry (session : Session) (action : Action) : Entry :=
  ⟨session.disk, action, (session.act action).1⟩

def next (session : Session) (action : Action) : Session where
  db := (session.act action).2.1
  disk := (session.act action).2.2
  history := session.entry action :: session.history

/-- A new database goes through actions, one after another. -/
def run (disk : Disk) (actions : List Action) : Session :=
  actions.foldl next { disk := disk }

end Session

/-! ## What a history tells -/

/-- What an entry does to a URL, at which a handle may stand: opening a document gives it a handle,
closing takes it away, and so does an input give it a handle if it is a first one, which succeeds
while no handle stands. Other entries do nothing to it. -/
def Entry.mark? (url : Url) (standing : Option SourceFile) (entry : Entry) :
    Option (Option SourceFile) :=
  match entry.action, entry.answer with
  | .openDocument opened _, .ok answer => if opened = url then some answer else none
  | .closeDocument closed, .ok _ => if closed = url then some none else none
  | .input path, .ok answer =>
    if Database.urlOf? entry.disk path = some url ∧ standing = none then some answer else none
  | _, _ => none

/-- The openings, first inputs and closings of a URL, the latest first. -/
def marks (url : Url) : List Entry → List (Option SourceFile)
  | [] => []
  | entry :: earlier =>
    (entry.mark? url (marks url earlier).head?.join).toList ++ marks url earlier

/-- The handle that stands at a URL, if its latest mark gave it one. -/
def standing? (url : Url) (history : List Entry) : Option SourceFile :=
  (marks url history).head?.join

/-- The URL under which an entry looks for a handle or registers one. -/
def Entry.url? (entry : Entry) : Option Url :=
  match entry.action with
  | .openDocument opened _ => some opened
  | .input path => Database.urlOf? entry.disk path
  | _ => none

/-- Whether an entry loads a file, which is a first input. -/
def Entry.Loads (earlier : List Entry) (entry : Entry) : Prop :=
  ∃ path url, entry.action = .input path ∧ Database.urlOf? entry.disk path = some url ∧
    standing? url earlier = none

/-- Whether an entry creates a source file. -/
def Entry.Creates (earlier : List Entry) (entry : Entry) : Prop :=
  match entry.action with
  | .create .. | .openDocument .. => True
  | .input _ => entry.Loads earlier
  | _ => False

theorem standing?_cons (url : Url) (entry : Entry) (earlier : List Entry) :
    standing? url (entry :: earlier) =
      (entry.mark? url (standing? url earlier)).getD (standing? url earlier) := by
  rw [standing?, marks, ← standing?]
  cases entry.mark? url (standing? url earlier) <;> rfl

theorem standing?_eq_some_iff {url : Url} {history : List Entry} {file : SourceFile} :
    standing? url history = some file ↔ (marks url history).head? = some (some file) := by
  rw [standing?]
  cases (marks url history).head? <;> simp

/-- A mark that gives a handle gives the one that the entry answers with. -/
theorem Entry.mark?_eq_some {url : Url} {standing : Option SourceFile} {entry : Entry}
    {file : SourceFile} (h : entry.mark? url standing = some (some file)) :
    entry.answer = .ok (some file) ∧ entry.url? = some url := by
  obtain ⟨disk, action, answer⟩ := entry
  cases answer with
  | error => cases action <;> simp [mark?] at h
  | ok answer => cases action <;> simp_all [mark?, url?]

namespace Session

/-! ## One action -/

/-- An input fails, or it answers with the handle that is registered, or it does what opening a
document under its URL does. -/
theorem act_input_cases (session : Session) (path : List UInt8) :
    (∃ fault, session.act (.input path) = (.error (.io fault), session.db, session.disk) ∧
        (session.disk.canonicalize path = .error fault ∨
          ∃ canonical url, session.disk.canonicalize path = .ok canonical ∧
            Url.ofPath canonical = .ok url ∧ session.db.sourceFile? url = none ∧
            Database.readText session.disk canonical = .error fault)) ∨
      ∃ url, Database.urlOf? session.disk path = some url ∧
        ((∃ file, session.db.sourceFile? url = some file ∧
            session.act (.input path) = (.ok (some file), session.db, session.disk)) ∨
          session.db.sourceFile? url = none ∧
            ∃ text, session.act (.input path) = session.act (.openDocument url text)) := by
  obtain ⟨fault, hcanonical, hload⟩ | ⟨canonical, url, hcanonical, hurl, hfile⟩ :=
    session.db.load_cases session.disk path
  · exact .inl ⟨fault, by rw [act, hload]; rfl, .inl hcanonical⟩
  · obtain ⟨file, hfile, hload⟩ | ⟨hnone, ⟨fault, hread, hload⟩ | ⟨text, -, hload⟩⟩ := hfile
    · exact .inr ⟨url, Database.urlOf?_of_canonical hcanonical hurl,
        .inl ⟨file, hfile, by rw [act, hload]; rfl⟩⟩
    · exact .inl ⟨fault, by rw [act, hload]; rfl,
        .inr ⟨canonical, url, hcanonical, hurl, hnone, hread⟩⟩
    · exact .inr ⟨url, Database.urlOf?_of_canonical hcanonical hurl,
        .inr ⟨hnone, text, by simp only [act, hload, Except.map]⟩⟩

/-- An action does to the register what its entry tells. -/
theorem sourceFile?_act (session : Session) (action : Action) (url : Url) :
    (session.act action).2.1.sourceFile? url =
      ((session.entry action).mark? url (session.db.sourceFile? url)).getD
        (session.db.sourceFile? url) := by
  cases action with
  | changeDisk | create | lookUp | setText | setUrl => rfl
  | openDocument opened text =>
    simp only [act, entry, Entry.mark?, Database.sourceFile?_openDocument, eq_comm (a := opened)]
    split <;> rfl
  | closeDocument closed =>
    simp only [act, entry, Entry.mark?, Database.sourceFile?_closeDocument, eq_comm (a := closed)]
    split <;> rfl
  | input path =>
    obtain ⟨fault, hact, -⟩ | ⟨sought, hsought, ⟨file, hfile, hact⟩ | ⟨hnone, text, hact⟩⟩ :=
      session.act_input_cases path
    · simp [entry, Entry.mark?, hact]
    · have hnot : ¬(sought = url ∧ session.db.sourceFile? url = none) := by
        rintro ⟨rfl, hnone⟩
        simp [hfile] at hnone
      simp [entry, Entry.mark?, hact, hsought, hnot]
    · simp only [entry, Entry.mark?, hact]
      simp only [act, hsought, Option.some.injEq, Database.sourceFile?_openDocument,
        eq_comm (a := sought)]
      by_cases hurl : url = sought
      · subst hurl
        simp [hnone, Database.openDocument, Database.create]
      · simp [hurl]

/-- The handle that an action answers with is new, or it was registered and nothing changes. -/
theorem answer_cases {session : Session} {action : Action} {file : SourceFile}
    (h : (session.act action).1 = .ok (some file)) :
    (file.number = session.db.sources.size ∧
        (session.act action).2.1.sources.size = session.db.sources.size + 1) ∨
      (session.act action).2.1 = session.db ∧ ∃ url, session.db.sourceFile? url = some file ∧
        ∀ url', (session.entry action).url? = some url' → url' = url := by
  have hcreated (url : Option Url) (text : String) (hfile : (session.db.create url text).1 = file) :
      file.number = session.db.sources.size ∧
        (session.db.create url text).2.sources.size = session.db.sources.size + 1 := by
    subst hfile
    exact ⟨rfl, Array.size_push _⟩
  have hopened (url : Url) (text : String)
      (hanswer : (session.act (.openDocument url text)).1 = .ok (some file)) :
      file.number = session.db.sources.size ∧
        (session.act (.openDocument url text)).2.1.sources.size = session.db.sources.size + 1 :=
    hcreated (some url) text (Option.some.inj (Except.ok.inj hanswer))
  cases action with
  | changeDisk | closeDocument | setText | setUrl => simp [act] at h
  | create url text => exact .inl (hcreated url text (by simpa [act] using h))
  | openDocument opened text => exact .inl (hopened opened text h)
  | lookUp url => exact .inr ⟨rfl, url, by simpa [act] using h, by simp [entry, Entry.url?]⟩
  | input path =>
    obtain ⟨fault, hact, -⟩ | ⟨url, hurl, ⟨found, hfile, hact⟩ | ⟨-, text, hact⟩⟩ :=
      session.act_input_cases path
    · simp [hact] at h
    · obtain rfl : found = file := by simpa [hact] using h
      exact .inr ⟨by rw [hact], url, hfile, by simp [entry, Entry.url?, hurl]⟩
    · rw [hact] at h ⊢
      exact .inl (hopened url text h)

/-- What is registered after an action was so before, or it is the new handle of the answer. -/
theorem registered_cases {session : Session} {action : Action} {url : Url} {file : SourceFile}
    (h : (session.act action).2.1.sourceFile? url = some file) :
    session.db.sourceFile? url = some file ∨
      file.number = session.db.sources.size ∧
        (session.act action).2.1.sources.size = session.db.sources.size + 1 ∧
        (session.entry action).url? = some url := by
  have hact := session.sourceFile?_act action url
  cases hmark : (session.entry action).mark? url (session.db.sourceFile? url) with
  | none => exact .inl (by simpa [hact, hmark] using h)
  | some mark =>
    obtain rfl : mark = some file := by simpa [hact, hmark] using h
    obtain ⟨hanswer, hurl⟩ := Entry.mark?_eq_some hmark
    obtain ⟨hnumber, hsize⟩ | ⟨hsame, -⟩ := answer_cases hanswer
    · exact .inr ⟨hnumber, hsize, hurl⟩
    · exact .inl (hsame ▸ h)

/-- No action removes a source file. -/
theorem size_le_act (session : Session) (action : Action) :
    session.db.sources.size ≤ (session.act action).2.1.sources.size := by
  have hopened (url : Url) (text : String) :
      session.db.sources.size ≤ (session.act (.openDocument url text)).2.1.sources.size := by
    simp [act, Database.openDocument, Database.create]
  cases action with
  | changeDisk | lookUp | closeDocument => exact Nat.le_refl _
  | create | setText | setUrl =>
    simp [act, Database.create, Database.setText, Database.setUrl]
  | openDocument url text => exact hopened url text
  | input path =>
    obtain ⟨fault, hact, -⟩ | ⟨url, -, ⟨file, -, hact⟩ | ⟨-, text, hact⟩⟩ :=
      session.act_input_cases path
    · rw [hact]
    · rw [hact]
    · exact hact ▸ hopened url text

/-- Through a handle one sees the same text until it is set, and the same URL until it is set. -/
theorem source?_act {session : Session} {file : SourceFile} {source : Source}
    (h : session.db.source? file = some source) (action : Action) :
    ∃ source', (session.act action).2.1.source? file = some source' ∧
      ((∀ text, action ≠ .setText file text) → source'.text = source.text) ∧
      ((∀ url, action ≠ .setUrl file url) → source'.url = source.url) := by
  have hopened (url : Url) (text : String) :
      (session.act (.openDocument url text)).2.1.source? file = some source :=
    Database.source?_create (some url) text h
  cases action with
  | changeDisk | lookUp | closeDocument => exact ⟨source, h, fun _ => rfl, fun _ => rfl⟩
  | create url text =>
    exact ⟨source, Database.source?_create url text h, fun _ => rfl, fun _ => rfl⟩
  | openDocument url text => exact ⟨source, hopened url text, fun _ => rfl, fun _ => rfl⟩
  | setText set text =>
    simp only [act, Database.source?_setText]
    split <;> simp_all
  | setUrl set url =>
    simp only [act, Database.source?_setUrl]
    split <;> simp_all
  | input path =>
    refine ⟨source, ?_, fun _ => rfl, fun _ => rfl⟩
    obtain ⟨fault, hact, -⟩ | ⟨url, -, ⟨found, -, hact⟩ | ⟨-, text, hact⟩⟩ :=
      session.act_input_cases path
    · rwa [hact]
    · rwa [hact]
    · exact hact ▸ hopened url text

/-! ## Many actions -/

/-- What holds of a database after any history. -/
structure Consistent (session : Session) : Prop where
  standing : ∀ url, session.db.sourceFile? url = standing? url session.history
  registered_lt : ∀ {url file}, session.db.sourceFile? url = some file →
    file.number < session.db.sources.size
  answered_lt : ∀ {entry file}, entry ∈ session.history → entry.answer = .ok (some file) →
    file.number < session.db.sources.size
  /-- A handle is registered under one URL only. -/
  register_inj : ∀ {url url' file}, session.db.sourceFile? url = some file →
    session.db.sourceFile? url' = some file → url = url'
  /-- A registered handle was never the answer to another URL than its own. -/
  owner : ∀ {entry file url url'}, entry ∈ session.history → entry.answer = .ok (some file) →
    entry.url? = some url → session.db.sourceFile? url' = some file → url = url'

theorem consistent_new (disk : Disk) : Consistent { disk := disk } where
  standing _ := rfl
  registered_lt h := by simp [Database.sourceFile?, Bindings.get?] at h
  answered_lt h := by simp at h
  register_inj h := by simp [Database.sourceFile?, Bindings.get?] at h
  owner h := by simp at h

/-- One more action keeps it. -/
theorem Consistent.next {session : Session} (h : session.Consistent) (action : Action) :
    (session.next action).Consistent where
  standing url := by
    rw [Session.next, standing?_cons, ← h.standing]
    exact session.sourceFile?_act action url
  registered_lt hfile := by
    obtain hfile | ⟨hnumber, hsize, -⟩ := registered_cases hfile
    · exact (h.registered_lt hfile).trans_le (session.size_le_act action)
    · simp only [Session.next]
      omega
  answered_lt {entry file} hmem hanswer := by
    obtain rfl | hmem := List.mem_cons.mp hmem
    · obtain ⟨hnumber, hsize⟩ | ⟨-, url, hfile, -⟩ := answer_cases hanswer
      · simp only [Session.next]
        omega
      · exact (h.registered_lt hfile).trans_le (session.size_le_act action)
    · exact (h.answered_lt hmem hanswer).trans_le (session.size_le_act action)
  register_inj hfile hfile' := by
    -- A new handle has a number that none had before, and one URL, that of its action.
    obtain hfile | ⟨hnumber, -, hurl⟩ := registered_cases hfile <;>
      obtain hfile' | ⟨hnumber', -, hurl'⟩ := registered_cases hfile'
    · exact h.register_inj hfile hfile'
    · exact absurd hnumber' (h.registered_lt hfile).ne
    · exact absurd hnumber (h.registered_lt hfile').ne
    · exact Option.some.inj (hurl.symm.trans hurl')
  owner {entry file url url'} hmem hanswer hurl hfile := by
    obtain rfl | hmem := List.mem_cons.mp hmem
    · -- The action answers with a handle that it registers itself, or with one that was found.
      obtain ⟨hnumber, -⟩ | ⟨hsame, found, hfound, hsought⟩ := answer_cases hanswer
      · obtain hfile | ⟨-, -, hurl'⟩ := registered_cases hfile
        · exact absurd hnumber (h.registered_lt hfile).ne
        · exact Option.some.inj (hurl.symm.trans hurl')
      · rw [hsought url hurl]
        exact h.register_inj hfound (hsame ▸ hfile)
    · -- An earlier answer cannot be a handle that is new.
      obtain hfile | ⟨hnumber, -⟩ := registered_cases hfile
      · exact h.owner hmem hanswer hurl hfile
      · exact absurd hnumber (h.answered_lt hmem hanswer).ne

theorem consistent_run (disk : Disk) (actions : List Action) : (run disk actions).Consistent :=
  actions.foldlRecOn next (consistent_new disk) fun _ h action _ => h.next action

/-- Where an input fails, which is at the canonical form or, unless its URL is registered, at the
text. -/
theorem act_input_error {session : Session} {path : List UInt8} {error : CompileError}
    (h : (session.act (.input path)).1 = .error error) :
    (session.act (.input path)).2.1 = session.db ∧ ∃ fault, error = .io fault ∧
      (session.disk.canonicalize path = .error fault ∨
        ∃ canonical url, session.disk.canonicalize path = .ok canonical ∧
          Url.ofPath canonical = .ok url ∧ session.db.sourceFile? url = none ∧
          Database.readText session.disk canonical = .error fault) := by
  obtain ⟨fault, hact, hfault⟩ | ⟨url, -, ⟨file, -, hact⟩ | ⟨-, text, hact⟩⟩ :=
    session.act_input_cases path
  · obtain rfl : CompileError.io fault = error := by simpa [hact] using h
    exact ⟨by rw [hact], fault, rfl, hfault⟩
  · simp [hact] at h
  · rw [hact] at h
    simp [act] at h

/-- An entry that creates a source file answers with a new handle. -/
theorem Consistent.number_of_creates {session : Session} (h : session.Consistent) {action : Action}
    {file : SourceFile} (hcreates : (session.entry action).Creates session.history)
    (hanswer : (session.act action).1 = .ok (some file)) :
    file.number = session.db.sources.size := by
  obtain ⟨hnumber, -⟩ | ⟨hsame, url, hfile, hurl⟩ := answer_cases hanswer
  · exact hnumber
  · -- Only an input answers so, and not a first one.
    cases action with
    | changeDisk | closeDocument | lookUp | setText | setUrl => exact hcreates.elim
    | create | openDocument =>
      have hsize := congrArg (·.sources.size) hsame
      simp [act, Database.create, Database.openDocument] at hsize
    | input path =>
      obtain ⟨_, url', ⟨⟩, hurl', hnone⟩ := hcreates
      obtain rfl := hurl url' hurl'
      rw [← h.standing, hfile] at hnone
      exact absurd hnone (Option.some_ne_none file)

/-- In whatever order a database goes through actions while files change, and after each of them:
- a URL leads to the handle that the latest of its openings and first inputs answered with, unless
  it was closed since;
- an input whose URL is registered answers with that handle and reads nothing;
- an input that fails, which it does at the canonical form, the content or its decoding, leaves the
  register as it is;
- a handle that is created is none that was known before;
- through a known handle one sees a source, whose text and URL change only by being set. -/
theorem last_registration_wins (disk : Disk) (actions : List Action) :
    let session := run disk actions
    (∀ url file, session.db.sourceFile? url = some file ↔
      (marks url session.history).head? = some (some file)) ∧
    (∀ path canonical url file, session.disk.canonicalize path = .ok canonical →
      Url.ofPath canonical = .ok url → session.db.sourceFile? url = some file →
      ∀ read, session.db.input { session.disk with read := read } path =
        .ok (file, session.db)) ∧
    (∀ path error, (session.act (.input path)).1 = .error error →
      (∃ fault, error = .io fault ∧
        (session.disk.canonicalize path = .error fault ∨
          ∃ canonical url, session.disk.canonicalize path = .ok canonical ∧
            Url.ofPath canonical = .ok url ∧ session.db.sourceFile? url = none ∧
            Database.readText session.disk canonical = .error fault)) ∧
      ∀ url, (session.next (.input path)).db.sourceFile? url = session.db.sourceFile? url) ∧
    (∀ action file, (session.entry action).Creates session.history →
      (session.entry action).answer = .ok (some file) →
      ∀ entry ∈ session.history, entry.answer ≠ .ok (some file)) ∧
    ∀ entry ∈ session.history, ∀ file, entry.answer = .ok (some file) →
      ∃ source, session.db.source? file = some source ∧ ∀ action,
        ∃ source', (session.next action).db.source? file = some source' ∧
          ((∀ text, action ≠ .setText file text) → source'.text = source.text) ∧
          ((∀ url, action ≠ .setUrl file url) → source'.url = source.url) := by
  intro session
  have h : session.Consistent := consistent_run disk actions
  refine ⟨fun url file => ?_, fun path canonical url file hcanonical hurl hfile read => ?_,
    fun path error herror => ?_, fun action file hcreates hanswer entry hmem hearlier => ?_,
    fun entry hmem file hanswer => ?_⟩
  · rw [h.standing]
    exact standing?_eq_some_iff
  · have hload : session.db.load { session.disk with read := read } path = _ :=
      Database.load_of_registered (Database.urlOf?_of_canonical hcanonical hurl) hfile
    rw [Database.input_eq, hload]
    rfl
  · obtain ⟨hsame, hfault⟩ := act_input_error herror
    exact ⟨hfault, fun url => congrArg (·.sourceFile? url) hsame⟩
  · exact (h.answered_lt hmem hearlier).ne (h.number_of_creates hcreates hanswer)
  · have hlt := h.answered_lt hmem hanswer
    exact ⟨session.db.sources[file.number], Array.getElem?_eq_getElem hlt,
      source?_act (Array.getElem?_eq_getElem hlt)⟩

theorem last_registration_wins_reopened :
    ∃ url, Url.ofPath [0x2F] = .ok url ∧
      let session := run ⟨fun _ => .ok [0x2F], fun _ => .ok []⟩
        [.openDocument url "a", .closeDocument url, .input [0x2F]]
      session.db.sourceFile? url = some ⟨1⟩ ∧
      session.db.input { session.disk with read := fun _ => .error .notFound } [0x2F] =
        .ok (⟨1⟩, session.db) ∧
      ∃ source, (session.next (.setText ⟨1⟩ "b")).db.source? ⟨0⟩ = some source ∧
        source.text = "a" := by
  obtain ⟨url, hurl, -⟩ := Url.exists_ofPath [0x2F]
  let disk : Disk := ⟨fun _ => .ok [0x2F], fun _ => .ok []⟩
  let closed := (Database.openDocument {} url "a").2.closeDocument url
  have hurlOf : Database.urlOf? disk [0x2F] = some url := Database.urlOf?_of_canonical rfl hurl
  have hclosed : closed.sourceFile? url = none := by
    rw [Database.sourceFile?_closeDocument, if_pos rfl]
  have hload : closed.load disk [0x2F] = (.ok ⟨1⟩, (closed.openDocument url "").2) :=
    Database.load_of_unregistered rfl hurl hclosed rfl
  have hsession : run disk [.openDocument url "a", .closeDocument url, .input [0x2F]] =
      ⟨(closed.openDocument url "").2, disk, [⟨disk, .input [0x2F], .ok (some ⟨1⟩)⟩,
        ⟨disk, .closeDocument url, .ok none⟩, ⟨disk, .openDocument url "a", .ok (some ⟨0⟩)⟩]⟩ := by
    change next ⟨closed, disk, _⟩ _ = _
    simp only [next, act, entry, hload]
    rfl
  obtain ⟨hregister, hregistered, -, -, hsources⟩ :=
    last_registration_wins disk [.openDocument url "a", .closeDocument url, .input [0x2F]]
  refine ⟨url, hurl, ?_⟩
  rw [hsession] at hregister hregistered hsources ⊢
  have hfile := (hregister url ⟨1⟩).mpr (by simp [marks, Entry.mark?, hurlOf])
  refine ⟨hfile, hregistered [0x2F] [0x2F] url ⟨1⟩ rfl hurl hfile _, ?_⟩
  obtain ⟨source, hsource, hnext⟩ := hsources _ (.tail _ (.tail _ (.head _))) ⟨0⟩ rfl
  obtain ⟨source', hsource', htext, -⟩ := hnext (.setText ⟨1⟩ "b")
  cases hsource
  exact ⟨source', hsource', htext (by simp)⟩

end Session

end Stylesheet
