import Stylesheet.Proofs.Source.FilePath
import Stylesheet.Proofs.Source.ReferenceText

/-!
# The path component of a URL

The path that is made of a file URL starts at its first slash behind two others, and goes on to its
end. It is the path component exactly if there is an authority, and neither a query nor a fragment
(`Url.toPath?_eq_component_iff`).
-/

namespace Stylesheet

/-! ## What stands behind a scheme -/

namespace Reference

variable {s front rest : List Char} {index : Nat} {scheme : Option (List Char)}
  {reference : Reference}

/-- The text of a reference behind its path. -/
def ending (reference : Reference) : List Char :=
  reference.query.elim [] ('?' :: ·) ++ reference.fragment.elim [] ('#' :: ·)

theorem ending_eq_nil_iff :
    reference.ending = [] ↔ reference.query = none ∧ reference.fragment = none := by
  obtain ⟨_, _, _, query, fragment⟩ := reference
  cases query <;> cases fragment <;> simp [ending]

/-- A query and a fragment start with their marks. -/
theorem exists_of_ending_ne_nil (h : reference.ending ≠ []) :
    ∃ c s, c ≠ '%' ∧ reference.ending = c :: s := by
  obtain ⟨_, _, _, query, fragment⟩ := reference
  cases query with
  | some query => exact ⟨'?', _, by decide, rfl⟩
  | none =>
    cases fragment with
    | some fragment => exact ⟨'#', _, by decide, rfl⟩
    | none => contradiction

/-- Behind two slashes stand an authority, in which no slash is, and a path from the root, if there
is one. -/
theorem readHierarchy_of_slashes
    (h : readHierarchy scheme index ('/' :: '/' :: s) = .ok reference) :
    ∃ authority start, reference.authority = some authority ∧ '/' ∉ authority ∧
      s = authority ++ (reference.path ++ reference.ending) ∧
      readRun isPathChar start (reference.path ++ reference.ending) =
        .ok (reference.path, reference.ending) ∧
      (reference.path = [] ∨ reference.path.head? = some '/') := by
  rw [readHierarchy] at h
  obtain ⟨⟨authority, behind⟩, hauthority, h⟩ := Except.bind_eq_ok_iff.mp h
  obtain ⟨⟨path, rest⟩, hpath, h⟩ := Except.bind_eq_ok_iff.mp h
  dsimp only at h
  split at h
  · rename_i hstart
    obtain ⟨query, fragment, rfl, hending⟩ := reads_readTail h
    obtain rfl : rest = ending ⟨scheme, some authority, path, query, fragment⟩ :=
      hending.parts.trans (List.append_nil _)
    have hreads := reads_readAuthority hauthority
    obtain rfl : behind = path ++ _ :=
      (reads_readRun (fun _ => isReferenceChar_of_isPathChar) hpath).parts
    have hslash : '/' ∉ authority := fun hslash => absurd (hreads.chars _ hslash) (by decide)
    exact ⟨authority, _, rfl, hslash, hreads.parts, hpath, by simpa using hstart⟩
  · contradiction

theorem readHierarchy_of_not_slashes (hs : ∀ s', s ≠ '/' :: '/' :: s')
    (h : readHierarchy scheme index s = .ok reference) : reference.authority = none := by
  unfold readHierarchy at h
  split at h
  · rename_i s'
    exact absurd rfl (hs s')
  · obtain ⟨⟨path, rest⟩, hpath, h⟩ := Except.bind_eq_ok_iff.mp h
    obtain ⟨query, fragment, rfl, htail⟩ := reads_readTail h
    rfl

end Reference

/-! ## Decoding a path and what follows it -/

namespace Url

open Reference

variable {s front rest : List Char} {index : Nat} {url : Url} {reference : Reference}

theorem isSome_hexValue? {c : Char} (h : isHexDigit c = true) : ∃ n, hexValue? c = some n := by
  simp only [isHexDigit, Bool.or_eq_true, Bool.and_eq_true, decide_eq_true_eq] at h
  rw [hexValue?]
  split_ifs with hdigit hupper hlower
  · exact ⟨_, rfl⟩
  · exact ⟨_, rfl⟩
  · exact ⟨_, rfl⟩
  · exact absurd h (not_or.mpr ⟨not_or.mpr ⟨hdigit, hupper⟩, hlower⟩)

/-- What is read as a run ends with no octet under way, so it is decoded apart from what follows. -/
theorem decodeBytes_append {allowed : Char → Bool}
    (h : readRun allowed index s = .ok (front, rest)) (more : List Char) :
    decodeBytes (front ++ more) = decodeBytes front ++ decodeBytes more := by
  fun_induction readRun allowed index s generalizing front rest with
  | case1 index =>
    obtain ⟨rfl, rfl⟩ := Prod.mk.inj (Except.ok.inj h)
    rfl
  | case2 index high low s hoctet ih =>
    obtain ⟨⟨front', rest'⟩, hrun, hok⟩ := Except.bind_eq_ok_iff.mp h
    obtain ⟨rfl, rfl⟩ := Prod.mk.inj (Except.ok.inj hok)
    rw [Bool.and_eq_true] at hoctet
    obtain ⟨m, hm⟩ := isSome_hexValue? hoctet.1
    obtain ⟨n, hn⟩ := isSome_hexValue? hoctet.2
    simp only [List.cons_append, decodeBytes, hm, hn, ih hrun]
  | case5 index c s hshort hpercent hchar ih =>
    obtain ⟨⟨front', rest'⟩, hrun, hok⟩ := Except.bind_eq_ok_iff.mp h
    obtain ⟨rfl, rfl⟩ := Prod.mk.inj (Except.ok.inj hok)
    have hc : c ≠ '%' := by simpa using hpercent
    rw [List.cons_append, decodeBytes_cons_of_ne hc, decodeBytes_cons_of_ne hc, ih hrun,
      List.append_assoc]
  | case6 index c s hshort hpercent hchar =>
    obtain ⟨rfl, rfl⟩ := Prod.mk.inj (Except.ok.inj h)
    rfl
  | case3 | case4 => contradiction

/-- The decoded text of a character that is no mark of an octet starts with it. -/
theorem decodeLossy_decodeBytes_ne_empty {c : Char} (hc : c ≠ '%') (s : List Char) :
    Text.Utf8.decodeLossy (decodeBytes (c :: s)) ≠ "" := by
  intro h
  have hchars := congrArg String.toList h
  rw [decodeBytes_cons_of_ne hc, Text.Utf8.decodeLossy, Text.Utf8.read_utf8EncodeChar] at hchars
  simp at hchars

theorem decodeLossy_ending_eq_empty_iff :
    Text.Utf8.decodeLossy (decodeBytes reference.ending) = "" ↔ reference.ending = [] := by
  constructor
  · intro h
    by_contra hne
    obtain ⟨c, s, hc, hending⟩ := exists_of_ending_ne_nil hne
    rw [hending] at h
    exact decodeLossy_decodeBytes_ne_empty hc s h
  · intro h
    rw [h]
    rfl

/-! ## The path of a file URL -/

/-- The path that is made of a URL starts at the first slash behind the mark. -/
theorem toPath?_of_authority {authority : List Char}
    (htext : url.text.toList = fileMark.toList ++ (authority ++ '/' :: s))
    (hslash : '/' ∉ authority) :
    url.toPath? = some (Text.Utf8.decodeLossy (decodeBytes ('/' :: s))) := by
  have hdrop : (authority ++ '/' :: s).dropWhile (· != '/') = '/' :: s := by
    rw [List.dropWhile_append_of_pos]
    · rfl
    · exact fun c hc => bne_iff_ne.mpr fun h => hslash (h ▸ hc)
  rw [toPath?, htext, stripFront?_append]
  simp only [bind, Option.bind, hdrop]

theorem toPath?_eq_none (h : ∀ s, url.text.toList ≠ fileMark.toList ++ s) : url.toPath? = none := by
  have hstrip : stripFront? fileMark.toList url.text.toList = none := by
    rw [stripFront?, if_neg]
    intro hprefix
    obtain ⟨s, hs⟩ := List.isPrefixOf_iff_prefix.mp hprefix
    exact h s hs.symm
  rw [toPath?, hstrip]
  rfl

theorem exists_of_isFile (h : url.isFile = true) :
    ∃ s, url.text.toList = "file:".toList ++ s := by
  obtain ⟨s, hs⟩ := List.isPrefixOf_iff_prefix.mp h
  exact ⟨s, hs.symm⟩

theorem toPath?_of_isFile_eq_false (h : url.isFile = false) : url.toPath? = none := by
  apply toPath?_eq_none
  intro s hs
  rw [isFile, hs] at h
  contradiction

/-- The path that is made of a file URL is its path component, decoded, exactly if the URL has an
authority, and neither a query nor a fragment. Other URLs have no path. -/
theorem toPath?_eq_component_iff {decoded : String}
    (hparse : Reference.parse url.text.toList = .ok reference) (hpath : reference.path ≠ [])
    (hdecoded : Text.Utf8.decode? (decodeBytes reference.path) = some decoded) :
    (url.isFile = true → (url.toPath? = some decoded ↔
        reference.authority.isSome ∧ reference.query = none ∧ reference.fragment = none)) ∧
      (url.isFile = false → url.toPath? = none) := by
  refine ⟨fun hfile => ?_, toPath?_of_isFile_eq_false⟩
  obtain ⟨s, hs⟩ := exists_of_isFile hfile
  have hread : readHierarchy (some "file".toList) 5 s = .ok reference := by
    rw [← hparse, hs]
    rfl
  by_cases hslashes : ∃ s', s = '/' :: '/' :: s'
  · obtain ⟨s', rfl⟩ := hslashes
    obtain ⟨authority, start, hauthority, hslash, rfl, hrun, hroot⟩ :=
      readHierarchy_of_slashes hread
    obtain ⟨path, hslashed⟩ := List.head?_eq_some_iff.mp (hroot.resolve_left hpath)
    have hall : url.toPath? =
        some (decoded ++ Text.Utf8.decodeLossy (decodeBytes reference.ending)) := by
      rw [← Text.Utf8.decodeLossy_append hdecoded, ← decodeBytes_append hrun, hslashed]
      apply toPath?_of_authority _ hslash
      rw [hs, hslashed]
      rfl
    rw [hall, Option.some.injEq, hauthority, ← ending_eq_nil_iff,
      ← decodeLossy_ending_eq_empty_iff]
    simp
  · have hmark : ∀ s', s ≠ '/' :: '/' :: s' := fun s' h => hslashes ⟨s', h⟩
    have hnone : url.toPath? = none := by
      apply toPath?_eq_none
      intro s' hs'
      exact hmark s' (List.append_cancel_left (hs.symm.trans hs'))
    rw [hnone, readHierarchy_of_not_slashes hmark hread]
    simp

/-- A URL with user information, an address and a port in front of its path. -/
theorem toPath?_eq_component_iff_address :
    let url : Url := ⟨"file://u@[::1]:80/a%20b", by decide +kernel⟩
    let reference : Reference :=
      ⟨some "file".toList, some "u@[::1]:80".toList, "/a%20b".toList, none, none⟩
    Reference.parse url.text.toList = .ok reference ∧ reference.path ≠ [] ∧
      Text.Utf8.decode? (decodeBytes reference.path) = some "/a b" ∧ url.isFile = true ∧
      url.toPath? = some "/a b" := by
  intro url reference
  have hparse : Reference.parse url.text.toList = .ok reference := by decide +kernel
  have hpath : reference.path ≠ [] := by decide
  have hdecoded : Text.Utf8.decode? (decodeBytes reference.path) = some "/a b" := by decide +kernel
  have hfile : url.isFile = true := by decide +kernel
  refine ⟨hparse, hpath, hdecoded, hfile, ?_⟩
  exact ((toPath?_eq_component_iff hparse hpath hdecoded).1 hfile).mpr ⟨rfl, rfl, rfl⟩

/-- The query of a URL, and its mark, are taken for a part of the path. -/
theorem query_in_toPath? :
    let url : Url := ⟨"file:///a?b", by decide +kernel⟩
    Reference.parse url.text.toList =
        .ok ⟨some "file".toList, some [], "/a".toList, some "b".toList, none⟩ ∧
      Text.Utf8.decode? (decodeBytes "/a".toList) = some "/a" ∧ url.isFile = true ∧
      url.toPath? = some "/a?b" := by
  decide +kernel

end Url

end Stylesheet
