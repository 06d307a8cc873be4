import Stylesheet.Proofs.Storage.History

/-!
# Files loaded once

An input looks for the handle of an earlier one under the URL of its canonical path. Two paths share
the handle in some history exactly if they share the URL, which they do exactly if they have the
same text once malformed bytes are replaced. Paths that are UTF-8 share nothing with one another.
-/

namespace Stylesheet

open Text (Utf8.encode Utf8.decodeLossy Utf8.decodeLossy_encode)

namespace Session

/-! ## Handles of two paths -/

/-- The canonical path of an input. -/
def canonical? (disk : Disk) : Action → Option (List UInt8)
  | .input path => (disk.canonicalize path).toOption
  | _ => none

/-- An input with the second canonical path answers with the handle that one with the first did. -/
def Shares (session : Session) (path path' : List UInt8) : Prop :=
  ∃ entry ∈ session.history, ∃ action file,
    canonical? entry.disk entry.action = some path ∧ entry.answer = .ok (some file) ∧
      canonical? session.disk action = some path' ∧
      (session.entry action).answer = .ok (some file)

end Session

theorem Entry.url?_of_canonical {entry : Entry} {path : List UInt8} {url : Url}
    (hcanonical : Session.canonical? entry.disk entry.action = some path)
    (hurl : Url.ofPath path = .ok url) : entry.url? = some url := by
  obtain ⟨disk, action, answer⟩ := entry
  cases action with
  | input given =>
    cases hgiven : disk.canonicalize given with
    | error fault => simp [Session.canonical?, hgiven, Except.toOption] at hcanonical
    | ok canonical =>
      obtain rfl : canonical = path := by
        simpa [Session.canonical?, hgiven, Except.toOption] using hcanonical
      exact Database.urlOf?_of_canonical hgiven hurl
  | _ => simp [Session.canonical?] at hcanonical

namespace Session

variable {path path' : List UInt8}

/-- Paths that share a handle share their URL. -/
theorem Consistent.ofPath_eq {session : Session} (h : session.Consistent)
    (hshares : session.Shares path path') : Url.ofPath path = Url.ofPath path' := by
  obtain ⟨entry, hmem, action, file, hcanonical, hanswer, hcanonical', hanswer'⟩ := hshares
  obtain ⟨url, hurl, -⟩ := Url.exists_ofPath path
  obtain ⟨url', hurl', -⟩ := Url.exists_ofPath path'
  have hentry := Entry.url?_of_canonical hcanonical hurl
  have haction : (session.entry action).url? = some url' :=
    Entry.url?_of_canonical hcanonical' hurl'
  obtain ⟨hnumber, -⟩ | ⟨-, found, hfound, hsought⟩ := answer_cases hanswer'
  · exact absurd hnumber (h.answered_lt hmem hanswer).ne
  · rw [hurl, hurl', h.owner hmem hanswer hentry hfound, hsought url' haction]

/-- Paths with one URL share the handle under which the first of them is loaded. -/
theorem shares_of_ofPath_eq {disk : Disk} {given given' : List UInt8} {text : String}
    (hgiven : disk.canonicalize given = .ok path) (hgiven' : disk.canonicalize given' = .ok path')
    (hread : Database.readText disk path = .ok text) (h : Url.ofPath path = Url.ofPath path') :
    (run disk [.input given]).Shares path path' := by
  obtain ⟨url, hurl, -⟩ := Url.exists_ofPath path
  have hload : Database.load {} disk given = (.ok ⟨0⟩, (Database.openDocument {} url text).2) :=
    Database.load_of_unregistered hgiven hurl rfl hread
  have hrun : run disk [.input given] = ⟨(Database.openDocument {} url text).2, disk,
      [⟨disk, .input given, .ok (some ⟨0⟩)⟩]⟩ := by
    change next { disk := disk } _ = _
    simp only [next, act, entry, hload]
    rfl
  have hfile : (Database.openDocument {} url text).2.sourceFile? url = some ⟨0⟩ := by
    rw [Database.sourceFile?_openDocument, if_pos rfl]
    rfl
  have hload' := Database.load_of_registered
    (Database.urlOf?_of_canonical hgiven' (h.symm.trans hurl)) hfile
  rw [hrun]
  refine ⟨_, .head _, .input given', ⟨0⟩, ?_, rfl, ?_, ?_⟩
  · simp [canonical?, hgiven, Except.toOption]
  · simp [canonical?, hgiven', Except.toOption]
  · simp [entry, act, hload', Except.map]

/-! ## Paths told apart -/

/-- Whether two absolute paths have one URL, and whether there is a history in which they share a
handle, depends on their texts alone, in which malformed bytes are replaced. For paths that are
UTF-8, these are the paths. -/
theorem loads_told_apart (h : Url.IsAbsolute path) (h' : Url.IsAbsolute path') :
    (Url.ofPath path = Url.ofPath path' ↔ Utf8.decodeLossy path = Utf8.decodeLossy path') ∧
    ((∃ disk actions, (run disk actions).Shares path path') ↔
      Utf8.decodeLossy path = Utf8.decodeLossy path') ∧
    ∀ text text', path = Utf8.encode text → path' = Utf8.encode text' → path ≠ path' →
      Url.ofPath path ≠ Url.ofPath path' ∧
        ∀ disk actions, ¬(run disk actions).Shares path path' := by
  have hshares : (∃ disk actions, (run disk actions).Shares path path') ↔
      Utf8.decodeLossy path = Utf8.decodeLossy path' := by
    rw [← Url.ofPath_eq_iff h h']
    constructor
    · rintro ⟨disk, actions, hshares⟩
      exact (consistent_run disk actions).ofPath_eq hshares
    · exact fun heq => ⟨⟨.ok, fun _ => .ok []⟩, [.input path], shares_of_ofPath_eq rfl rfl rfl heq⟩
  refine ⟨Url.ofPath_eq_iff h h', hshares, ?_⟩
  rintro text text' rfl rfl hne
  have htext : Utf8.decodeLossy (Utf8.encode text) ≠ Utf8.decodeLossy (Utf8.encode text') := by
    rw [Utf8.decodeLossy_encode, Utf8.decodeLossy_encode]
    exact fun heq => hne (heq ▸ rfl)
  exact ⟨fun heq => htext ((Url.ofPath_eq_iff h h').mp heq),
    fun disk actions hrun => htext (hshares.mp ⟨disk, actions, hrun⟩)⟩

theorem loads_told_apart_names :
    Url.ofPath [0x2F, 0x61] ≠ Url.ofPath [0x2F, 0x62] ∧
      ∀ disk actions, ¬(run disk actions).Shares [0x2F, 0x61] [0x2F, 0x62] := by
  have hpath : Url.IsAbsolute [0x2F, 0x61] := rfl
  have hpath' : Url.IsAbsolute [0x2F, 0x62] := rfl
  exact (loads_told_apart hpath hpath').2.2 "/a" "/b" (by decide +kernel) (by decide +kernel)
    (by decide)

/-- Two files whose names are malformed have one URL, and the second is taken for the first. -/
theorem malformed_names_confused :
    let path : List UInt8 := [0x2F, 0xFF]
    let path' : List UInt8 := [0x2F, 0xFE]
    let disk : Disk := ⟨.ok, fun read => .ok (if read = path then [0x61] else [0x62])⟩
    Url.IsAbsolute path ∧ Url.IsAbsolute path' ∧ path ≠ path' ∧
      Url.ofPath path = Url.ofPath path' ∧ (run disk [.input path]).Shares path path' := by
  intro path path' disk
  have hpath : Url.IsAbsolute path := rfl
  have hpath' : Url.IsAbsolute path' := rfl
  have heq : Url.ofPath path = Url.ofPath path' :=
    (Url.ofPath_eq_iff hpath hpath').mpr (by decide +kernel)
  have hread : Database.readText disk path = .ok "a" := by decide +kernel
  exact ⟨hpath, hpath', by decide, heq, shares_of_ofPath_eq rfl rfl hread heq⟩

end Session

end Stylesheet
