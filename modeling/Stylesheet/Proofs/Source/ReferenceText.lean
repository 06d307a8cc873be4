import Stylesheet.Proofs.Source.Wire
import Stylesheet.Text.Letter

/-!
# The text of a reference

Each reader of a part of a URL reference takes a front off the text, of characters that may stand in
references, or in authorities if it reads one of these. So an accepted reference is written as its
parts (`Reference.reads_parse`), and no URL holds a blank or the end of a line
(`Url.isReferenceChar_of_mem`).
-/

namespace Stylesheet

namespace Reference

/-! ## Characters -/

/-- What may stand in an authority. -/
def isAuthorityChar (c : Char) : Bool := isUserChar c || "%@[]".toList.contains c

/-- What may stand somewhere in a reference. -/
def isReferenceChar (c : Char) : Bool := isQueryChar c || "%#[]".toList.contains c

theorem isAuthorityChar_of_isUserChar {c : Char} (h : isUserChar c = true) :
    isAuthorityChar c = true := by
  simp [isAuthorityChar, h]

theorem isAuthorityChar_of_isNameChar {c : Char} (h : isNameChar c = true) :
    isAuthorityChar c = true :=
  isAuthorityChar_of_isUserChar (by simp [isUserChar, h])

theorem isAuthorityChar_of_isAlphanum {c : Char} (h : c.isAlphanum = true) :
    isAuthorityChar c = true :=
  isAuthorityChar_of_isNameChar (by simp [isNameChar, isUnreserved, h])

theorem isAuthorityChar_of_isDigit {c : Char} (h : c.isDigit = true) : isAuthorityChar c = true :=
  isAuthorityChar_of_isAlphanum (by simp [Char.isAlphanum, h])

theorem isAuthorityChar_of_isHexDigit {c : Char} (h : isHexDigit c = true) :
    isAuthorityChar c = true := by
  apply isAuthorityChar_of_isAlphanum
  simp only [isHexDigit, Char.isAlphanum, Text.isAlpha_iff, Bool.or_eq_true, Bool.and_eq_true,
    decide_eq_true_eq] at h ⊢
  rcases h with (h | ⟨hle, hge⟩) | ⟨hle, hge⟩
  · exact .inr h
  · exact .inl (.inl ⟨hle, Nat.le_trans hge (by decide)⟩)
  · exact .inl (.inr ⟨hle, Nat.le_trans hge (by decide)⟩)

theorem isReferenceChar_of_isQueryChar {c : Char} (h : isQueryChar c = true) :
    isReferenceChar c = true := by
  simp [isReferenceChar, h]

theorem isReferenceChar_of_isPathChar {c : Char} (h : isPathChar c = true) :
    isReferenceChar c = true :=
  isReferenceChar_of_isQueryChar (by simp [isQueryChar, h])

theorem isReferenceChar_of_isFirstSegmentChar {c : Char} (h : isFirstSegmentChar c = true) :
    isReferenceChar c = true := by
  rw [isFirstSegmentChar, Bool.or_eq_true] at h
  apply isReferenceChar_of_isPathChar
  rcases h with h | h <;> simp [isPathChar, h]

theorem isReferenceChar_of_isAuthorityChar {c : Char} (h : isAuthorityChar c = true) :
    isReferenceChar c = true := by
  simp only [isAuthorityChar, isUserChar, Bool.or_eq_true, List.contains_eq_mem,
    decide_eq_true_eq] at h
  rcases h with (h | h) | h
  · exact isReferenceChar_of_isPathChar (by simp [isPathChar, h])
  · exact isReferenceChar_of_isPathChar (by simp [isPathChar, h])
  · have hall : "%@[]".toList.all isReferenceChar = true := by decide
    exact List.all_eq_true.mp hall c h

theorem isReferenceChar_of_isSchemeChar {c : Char} (h : isSchemeChar c = true) :
    isReferenceChar c = true := by
  simp only [isSchemeChar, Bool.or_eq_true, List.contains_eq_mem, decide_eq_true_eq] at h
  rcases h with h | h
  · exact isReferenceChar_of_isAuthorityChar (isAuthorityChar_of_isAlphanum h)
  · have hall : "+-.".toList.all isReferenceChar = true := by decide
    exact List.all_eq_true.mp hall c h

/-! ## Fronts -/

theorem append_drop_takeWhile (p : Char → Bool) (s : List Char) :
    s.takeWhile p ++ s.drop (s.takeWhile p).length = s :=
  List.prefix_iff_eq_append.mp (List.takeWhile_prefix p)

/-- A reader has taken a front off a text, of characters of a class. -/
structure Reads (kind : Char → Bool) (s front rest : List Char) : Prop where
  parts : s = front ++ rest
  chars : ∀ c ∈ front, kind c = true

namespace Reads

variable {kind : Char → Bool} {s front rest front' rest' : List Char} {c : Char}

theorem nil (s : List Char) : Reads kind s [] s := ⟨rfl, by simp⟩

theorem cons (hc : kind c = true) (h : Reads kind s front rest) :
    Reads kind (c :: s) (c :: front) rest where
  parts := by rw [h.parts, List.cons_append]
  chars := List.forall_mem_cons.mpr ⟨hc, h.chars⟩

theorem append (h : Reads kind s front rest) (h' : Reads kind rest front' rest') :
    Reads kind s (front ++ front') rest' where
  parts := by rw [h.parts, h'.parts, List.append_assoc]
  chars := List.forall_mem_append.mpr ⟨h.chars, h'.chars⟩

theorem mono {kind' : Char → Bool} (h : Reads kind s front rest)
    (hclass : ∀ c, kind c = true → kind' c = true) : Reads kind' s front rest :=
  ⟨h.parts, fun c hc => hclass c (h.chars c hc)⟩

/-- The longest front of allowed characters. -/
theorem takeWhile {allowed : Char → Bool} (hallowed : ∀ c, allowed c = true → kind c = true)
    (s : List Char) : Reads kind s (s.takeWhile allowed) (s.dropWhile allowed) where
  parts := List.takeWhile_append_dropWhile.symm
  chars c hc := hallowed c (List.mem_takeWhile_imp hc)

end Reads

variable {s front rest : List Char} {index : Nat}

theorem Reads.readRun {allowed kind : Char → Bool}
    (hallowed : ∀ c, allowed c = true → kind c = true)
    (hoctets : ∀ c, isAuthorityChar c = true → kind c = true)
    (h : Reference.readRun allowed index s = .ok (front, rest)) : Reads kind s front rest := by
  fun_induction Reference.readRun allowed index s generalizing front rest with
  | case1 index =>
    obtain ⟨rfl, rfl⟩ := Prod.mk.inj (Except.ok.inj h)
    exact .nil []
  | case2 index high low s hoctet ih =>
    obtain ⟨⟨front', rest'⟩, hrun, hok⟩ := Except.bind_eq_ok_iff.mp h
    obtain ⟨rfl, rfl⟩ := Prod.mk.inj (Except.ok.inj hok)
    rw [Bool.and_eq_true] at hoctet
    exact .cons (hoctets _ (by decide)) (.cons (hoctets _ (isAuthorityChar_of_isHexDigit hoctet.1))
      (.cons (hoctets _ (isAuthorityChar_of_isHexDigit hoctet.2)) (ih hrun)))
  | case5 index c s hshort hpercent hchar ih =>
    obtain ⟨⟨front', rest'⟩, hrun, hok⟩ := Except.bind_eq_ok_iff.mp h
    obtain ⟨rfl, rfl⟩ := Prod.mk.inj (Except.ok.inj hok)
    exact .cons (hallowed c hchar) (ih hrun)
  | case6 index c s hshort hpercent hchar =>
    obtain ⟨rfl, rfl⟩ := Prod.mk.inj (Except.ok.inj h)
    exact .nil _
  | case3 | case4 => contradiction

theorem reads_readRun {allowed : Char → Bool}
    (hallowed : ∀ c, allowed c = true → isReferenceChar c = true)
    (h : readRun allowed index s = .ok (front, rest)) : Reads isReferenceChar s front rest :=
  .readRun hallowed (fun _ => isReferenceChar_of_isAuthorityChar) h

/-! ## Addresses -/

theorem splitOn_ne_nil (separator : Char) (s : List Char) : splitOn separator s ≠ [] := by
  induction s with
  | nil => simp [splitOn]
  | cons c s ih =>
    rw [splitOn, List.foldr_cons, ← splitOn]
    cases h : splitOn separator s with
    | nil => exact absurd h ih
    | cons part parts =>
      dsimp only
      split <;> simp

theorem splitOn_cons {separator : Char} {part : List Char} {parts : List (List Char)}
    (h : splitOn separator s = part :: parts) (c : Char) :
    splitOn separator (c :: s) =
      if c == separator then [] :: part :: parts else (c :: part) :: parts := by
  rw [splitOn, List.foldr_cons, ← splitOn, h]

/-- A text is made of its parts and of the separators between them. -/
theorem mem_splitOn (separator : Char) {c : Char} (h : c ∈ s) :
    c = separator ∨ ∃ part ∈ splitOn separator s, c ∈ part := by
  induction s with
  | nil => contradiction
  | cons d s ih =>
    cases hparts : splitOn separator s with
    | nil => exact absurd hparts (splitOn_ne_nil separator s)
    | cons part parts =>
      rw [hparts] at ih
      rw [splitOn_cons hparts]
      by_cases hd : d = separator
      · rw [if_pos (beq_iff_eq.mpr hd)]
        rcases List.mem_cons.mp h with rfl | h
        · exact .inl hd
        · exact (ih h).imp_right fun ⟨p, hp, hc⟩ => ⟨p, List.mem_cons_of_mem _ hp, hc⟩
      · rw [if_neg (by simpa using hd)]
        rcases List.mem_cons.mp h with rfl | h
        · exact .inr ⟨c :: part, List.mem_cons_self, List.mem_cons_self⟩
        · rcases ih h with hc | ⟨p, hp, hc⟩
          · exact .inl hc
          · rcases List.mem_cons.mp hp with rfl | hp
            · exact .inr ⟨d :: p, List.mem_cons_self, List.mem_cons_of_mem _ hc⟩
            · exact .inr ⟨p, List.mem_cons_of_mem _ hp, hc⟩

/-- A text whose parts are made of authority characters is, if its separator is one. -/
theorem isAuthorityChar_of_splitOn (separator : Char)
    (hseparator : isAuthorityChar separator = true)
    (hparts : ∀ part ∈ splitOn separator s, ∀ c ∈ part, isAuthorityChar c = true) :
    ∀ c ∈ s, isAuthorityChar c = true := by
  intro c hc
  rcases mem_splitOn separator hc with rfl | ⟨part, hpart, hc⟩
  · exact hseparator
  · exact hparts part hpart c hc

theorem isAuthorityChar_of_isGroup (h : isGroup s = true) : ∀ c ∈ s, isAuthorityChar c = true := by
  simp only [isGroup, Bool.and_eq_true, List.all_eq_true] at h
  exact fun c hc => isAuthorityChar_of_isHexDigit (h.2 c hc)

theorem isAuthorityChar_of_isIPv4 (h : isIPv4 s = true) : ∀ c ∈ s, isAuthorityChar c = true := by
  simp only [isIPv4, Bool.and_eq_true, List.all_eq_true] at h
  apply isAuthorityChar_of_splitOn '.' (by decide)
  intro part hpart c hc
  have hoctet := h.2 part hpart
  simp only [isDecimalOctet, Bool.and_eq_true, List.all_eq_true] at hoctet
  exact isAuthorityChar_of_isDigit (hoctet.1.1.2 c hc)

theorem isAuthorityChar_of_groups? {mayEndInIPv4 : Bool} {n : Nat}
    (h : groups? mayEndInIPv4 s = some n) : ∀ c ∈ s, isAuthorityChar c = true := by
  rw [groups?] at h
  split at h
  · rename_i hempty
    simp [List.isEmpty_iff.mp hempty]
  apply isAuthorityChar_of_splitOn ':' (by decide)
  intro part hpart
  dsimp only at h
  split at h
  · rename_i hgroups
    exact isAuthorityChar_of_isGroup (List.all_eq_true.mp hgroups part hpart)
  split at h
  · rename_i hmixed
    simp only [Bool.and_eq_true, List.all_eq_true] at hmixed
    obtain ⟨⟨_, hgroups⟩, hlast⟩ := hmixed
    rw [← List.dropLast_append_getLast (List.ne_nil_of_mem hpart)] at hpart
    rcases List.mem_append.mp hpart with hpart | hpart
    · exact isAuthorityChar_of_isGroup (hgroups part hpart)
    · rw [List.getLast?_eq_some_getLast (splitOn_ne_nil ':' s)] at hlast
      rw [List.mem_singleton.mp hpart]
      exact isAuthorityChar_of_isIPv4 hlast
  · contradiction

theorem splitElision?_eq_some (h : splitElision? s = some (front, rest)) :
    s = front ++ ':' :: ':' :: rest := by
  fun_induction splitElision? s generalizing front with
  | case1 s =>
    obtain ⟨rfl, rfl⟩ := Prod.mk.inj (Option.some.inj h)
    rfl
  | case2 c s hc ih =>
    obtain ⟨⟨front', rest'⟩, hsplit, heq⟩ := Option.map_eq_some_iff.mp h
    obtain ⟨rfl, rfl⟩ := Prod.mk.inj heq
    rw [ih hsplit, List.cons_append]
  | case3 => contradiction

theorem isAuthorityChar_of_isIPv6 (h : isIPv6 s = true) : ∀ c ∈ s, isAuthorityChar c = true := by
  rw [isIPv6] at h
  split at h
  · exact isAuthorityChar_of_groups? (beq_iff_eq.mp h)
  · rename_i front rest hsplit
    split at h
    · rename_i m n hfront hrest
      rw [splitElision?_eq_some hsplit]
      simp only [List.forall_mem_append, List.forall_mem_cons]
      exact ⟨isAuthorityChar_of_groups? hfront, by decide, by decide,
        isAuthorityChar_of_groups? hrest⟩
    · contradiction

theorem isAuthorityChar_of_isFutureAddress (h : isFutureAddress s = true) :
    ∀ c ∈ s, isAuthorityChar c = true := by
  cases s with
  | nil => simp
  | cons c s =>
    dsimp only [isFutureAddress] at h
    split at h
    · rename_i address hdrop
      simp only [Bool.and_eq_true, Bool.or_eq_true, beq_iff_eq, List.all_eq_true] at h
      obtain ⟨⟨⟨hletter, _⟩, _⟩, haddress⟩ := h
      have hparts := append_drop_takeWhile isHexDigit s
      rw [hdrop] at hparts
      rw [← hparts]
      simp only [List.forall_mem_append, List.forall_mem_cons]
      refine ⟨?_, ?_, by decide, fun d hd => isAuthorityChar_of_isUserChar (haddress d hd)⟩
      · rcases hletter with rfl | rfl <;> decide
      · exact fun d hd => isAuthorityChar_of_isHexDigit (List.mem_takeWhile_imp hd)
    · contradiction

theorem reads_readLiteral? (h : readLiteral? s = some (front, rest)) :
    Reads isAuthorityChar s front rest := by
  unfold readLiteral? at h
  split at h
  · rename_i s
    dsimp only at h
    split at h
    · rename_i behind hdrop
      split at h
      · rename_i haddress
        obtain ⟨rfl, rfl⟩ := Prod.mk.inj (Option.some.inj h)
        have hparts := append_drop_takeWhile (· != ']') s
        rw [hdrop] at hparts
        have hchars : ∀ c ∈ s.takeWhile (· != ']'), isAuthorityChar c = true := by
          rcases Bool.or_eq_true .. |>.mp haddress with haddress | haddress
          · exact isAuthorityChar_of_isIPv6 haddress
          · exact isAuthorityChar_of_isFutureAddress haddress
        have hbracket : Reads isAuthorityChar s (s.takeWhile (· != ']') ++ [']']) behind := by
          refine ⟨?_, List.forall_mem_append.mpr
            ⟨hchars, List.forall_mem_singleton.mpr (by decide)⟩⟩
          rw [List.append_assoc, List.singleton_append, hparts]
        exact .cons (by decide) hbracket
      · contradiction
    · contradiction
  · contradiction

theorem reads_readPort (s : List Char) : Reads isAuthorityChar s (readPort s).1 (readPort s).2 := by
  unfold readPort
  split
  · exact .cons (by decide) (.takeWhile (fun _ => isAuthorityChar_of_isDigit) _)
  · exact .nil s

/-! ## Authorities -/

theorem reads_readHostPort (h : readHostPort index s = .ok (front, rest)) :
    Reads isAuthorityChar s front rest := by
  rw [readHostPort] at h
  have hport {host behind : List Char} (hhost : Reads isAuthorityChar s host behind)
      (hok : (.ok (host ++ (readPort behind).1, (readPort behind).2) : Except UrlFault _) =
        .ok (front, rest)) : Reads isAuthorityChar s front rest := by
    obtain ⟨rfl, rfl⟩ := Prod.mk.inj (Except.ok.inj hok)
    exact hhost.append (reads_readPort behind)
  split at h
  · rename_i split hliteral
    exact hport (reads_readLiteral? hliteral) h
  · obtain ⟨⟨host, behind⟩, hhost, hok⟩ := Except.bind_eq_ok_iff.mp h
    exact hport (Reads.readRun (fun _ => isAuthorityChar_of_isNameChar) (fun _ h => h) hhost) hok

theorem reads_readAuthority (h : readAuthority index s = .ok (front, rest)) :
    Reads isAuthorityChar s front rest := by
  rw [readAuthority] at h
  obtain ⟨⟨user, behind⟩, huser, h⟩ := Except.bind_eq_ok_iff.mp h
  have hreads := Reads.readRun (fun _ => isAuthorityChar_of_isUserChar) (fun _ h => h) huser
  dsimp only at h
  split at h
  · obtain ⟨⟨host, rest'⟩, hhost, hok⟩ := Except.bind_eq_ok_iff.mp h
    obtain ⟨rfl, rfl⟩ := Prod.mk.inj (Except.ok.inj hok)
    exact hreads.append (.cons (by decide) (reads_readHostPort hhost))
  · split at h
    · rename_i hempty
      rw [List.isEmpty_iff.mp hempty] at hreads
      split at h
      · rename_i host rest' hliteral
        obtain ⟨rfl, rfl⟩ := Prod.mk.inj (Except.ok.inj h)
        exact hreads.append ((reads_readLiteral? hliteral).append (reads_readPort rest'))
      · obtain ⟨rfl, rfl⟩ := Prod.mk.inj (Except.ok.inj h)
        exact hreads
    · split at h
      · contradiction
      · split at h
        · contradiction
        · obtain ⟨rfl, rfl⟩ := Prod.mk.inj (Except.ok.inj h)
          exact hreads

/-! ## Whole references -/

/-- The text of a reference behind its scheme: its parts, with the marks that announce them. -/
def hierarchy (reference : Reference) : List Char :=
  reference.authority.elim [] ('/' :: '/' :: ·) ++ reference.path ++
    (reference.query.elim [] ('?' :: ·) ++ reference.fragment.elim [] ('#' :: ·))

/-- The text of a reference. -/
def written (reference : Reference) : List Char :=
  reference.scheme.elim [] (· ++ [':']) ++ reference.hierarchy

theorem reads_readMarked {mark : Char} {part : Option (List Char)}
    (hmark : isReferenceChar mark = true) (h : readMarked mark index s = .ok (part, rest)) :
    Reads isReferenceChar s (part.elim [] (mark :: ·)) rest := by
  unfold readMarked at h
  split at h
  · rename_i c s'
    split at h
    · rename_i hc
      obtain ⟨⟨run, behind⟩, hrun, hok⟩ := Except.bind_eq_ok_iff.mp h
      obtain ⟨rfl, rfl⟩ := Prod.mk.inj (Except.ok.inj hok)
      rw [beq_iff_eq.mp hc]
      exact .cons hmark (reads_readRun (fun _ => isReferenceChar_of_isQueryChar) hrun)
    · obtain ⟨rfl, rfl⟩ := Prod.mk.inj (Except.ok.inj h)
      exact .nil _
  · obtain ⟨rfl, rfl⟩ := Prod.mk.inj (Except.ok.inj h)
    exact .nil []

/-- What is left behind a path is the rest of the text of the reference. -/
theorem reads_readTail {scheme authority : Option (List Char)} {path : List Char}
    {reference : Reference} (h : readTail scheme authority path index s = .ok reference) :
    ∃ query fragment, reference = ⟨scheme, authority, path, query, fragment⟩ ∧
      Reads isReferenceChar s (query.elim [] ('?' :: ·) ++ fragment.elim [] ('#' :: ·)) [] := by
  rw [readTail] at h
  obtain ⟨⟨query, rest⟩, hquery, h⟩ := Except.bind_eq_ok_iff.mp h
  obtain ⟨⟨fragment, rest'⟩, hfragment, h⟩ := Except.bind_eq_ok_iff.mp h
  dsimp only at h
  split at h
  · rename_i hempty
    obtain rfl := Except.ok.inj h
    have hreads := (reads_readMarked (by decide) hquery).append
      (reads_readMarked (by decide) hfragment)
    rw [List.isEmpty_iff.mp hempty] at hreads
    exact ⟨query, fragment, rfl, hreads⟩
  · contradiction

theorem reads_readHierarchy {scheme : Option (List Char)} {reference : Reference}
    (h : readHierarchy scheme index s = .ok reference) :
    reference.scheme = scheme ∧ Reads isReferenceChar s reference.hierarchy [] := by
  unfold readHierarchy at h
  split at h
  · obtain ⟨⟨authority, rest⟩, hauthority, h⟩ := Except.bind_eq_ok_iff.mp h
    obtain ⟨⟨path, behind⟩, hpath, h⟩ := Except.bind_eq_ok_iff.mp h
    dsimp only at h
    split at h
    · obtain ⟨query, fragment, rfl, htail⟩ := reads_readTail h
      have hslash : isReferenceChar '/' = true := by decide
      have hauthority := (reads_readAuthority hauthority).mono fun _ =>
        isReferenceChar_of_isAuthorityChar
      have hmarked := Reads.cons hslash (.cons hslash hauthority)
      have hpath := reads_readRun (fun _ => isReferenceChar_of_isPathChar) hpath
      exact ⟨rfl, (hmarked.append hpath).append htail⟩
    · contradiction
  · obtain ⟨⟨path, behind⟩, hpath, h⟩ := Except.bind_eq_ok_iff.mp h
    obtain ⟨query, fragment, rfl, htail⟩ := reads_readTail h
    exact ⟨rfl, (reads_readRun (fun _ => isReferenceChar_of_isPathChar) hpath).append htail⟩

theorem reads_readRelative {reference : Reference} (h : readRelative s = .ok reference) :
    reference.scheme = none ∧ Reads isReferenceChar s reference.hierarchy [] := by
  rw [readRelative] at h
  split at h
  · exact reads_readHierarchy h
  · obtain ⟨⟨segment, rest⟩, hsegment, h⟩ := Except.bind_eq_ok_iff.mp h
    dsimp only at h
    split at h
    · contradiction
    · obtain ⟨⟨path, behind⟩, hpath, h⟩ := Except.bind_eq_ok_iff.mp h
      obtain ⟨query, fragment, rfl, htail⟩ := reads_readTail h
      have hpath := (reads_readRun (fun _ => isReferenceChar_of_isFirstSegmentChar) hsegment).append
        (reads_readRun (fun _ => isReferenceChar_of_isPathChar) hpath)
      exact ⟨rfl, hpath.append htail⟩

/-- A text that is read as a reference is that reference as it is written, and is made of the
characters of references. -/
theorem reads_parse {reference : Reference} (h : parse s = .ok reference) :
    Reads isReferenceChar s reference.written [] := by
  rw [parse] at h
  split at h
  · rename_i rest hdrop
    split at h
    · obtain ⟨hscheme, hrest⟩ := reads_readHierarchy h
      have hparts := append_drop_takeWhile isSchemeChar s
      rw [hdrop] at hparts
      have hfront : Reads isReferenceChar s (s.takeWhile isSchemeChar ++ [':']) rest := by
        refine ⟨?_, List.forall_mem_append.mpr ⟨?_, List.forall_mem_singleton.mpr (by decide)⟩⟩
        · rw [List.append_assoc, List.singleton_append, hparts]
        · exact fun c hc => isReferenceChar_of_isSchemeChar (List.mem_takeWhile_imp hc)
      rw [written, hscheme]
      exact hfront.append hrest
    · contradiction
  · obtain ⟨hscheme, hrest⟩ := reads_readRelative h
    rw [written, hscheme]
    exact hrest

end Reference

/-- The text of a URL is made of the characters of references. -/
theorem Url.isReferenceChar_of_mem (url : Url) :
    ∀ c ∈ url.text.toList, Reference.isReferenceChar c = true := by
  have h := url.isAbsolute
  rw [Reference.parseAbsolute] at h
  cases hparse : Reference.parse url.text.toList with
  | ok reference =>
    have hreads := Reference.reads_parse hparse
    rw [hreads.parts, List.append_nil]
    exact hreads.chars
  | error fault =>
    rw [hparse] at h
    contradiction

theorem Url.newline_not_mem (url : Url) : '\n' ∉ url.text.toList := fun h =>
  absurd (url.isReferenceChar_of_mem _ h) (by decide)

end Stylesheet
