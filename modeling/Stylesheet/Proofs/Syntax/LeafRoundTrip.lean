import Mathlib.Data.List.TakeWhile
import Stylesheet.Proofs.Syntax.Printer
import Stylesheet.Proofs.Syntax.Reaching

/-!
# Reading printed leaves

In front of a delimiter, the lexer finds the names, numbers and strings that were printed
(`Cursor.reaches_primary_number` and the lemmas behind it).
-/

namespace Stylesheet

/-- A run of characters ends at the first one that does not belong to it. -/
theorem takeWhile_append_of_stop {p : Char → Bool} {run rest : List Char}
    (hrun : ∀ c ∈ run, p c = true) (hstop : ∀ c, rest.head? = some c → p c = false) :
    (run ++ rest).takeWhile p = run := by
  have hrest : rest.takeWhile p = [] := by
    cases rest with
    | nil => rfl
    | cons c rest => exact List.takeWhile_cons_of_neg (by simp [hstop c rfl])
  rw [List.takeWhile_append_of_pos hrun, hrest, List.append_nil]

namespace Lexeme

/-! ## Delimiters -/

theorem isIdentChar_eq {c : Char} (h : c.toNat < 0x80) :
    isIdentChar c = (c.isAlphanum || c == '_' || c == '-') := by
  rw [isIdentChar, Text.isLetterOrNumeral_eq_isAlphanum h]

/-- The characters that a printed leaf or name has behind it. -/
def isDelimiter (c : Char) : Bool := c == ' ' || c == ')' || c == ';' || c == ':'

/-- What a delimiter is not, so that it ends every lexeme. -/
structure Ends (c : Char) : Prop where
  isIdentChar : isIdentChar c = false
  isAlphanum : c.isAlphanum = false
  ne_point : c ≠ '.'
  ne_percent : c ≠ '%'

theorem ends_of_isDelimiter {c : Char} (h : isDelimiter c = true) : Ends c := by
  simp only [isDelimiter, Bool.or_eq_true, beq_iff_eq] at h
  obtain ((rfl | rfl) | rfl) | rfl := h <;>
    exact ⟨by rw [isIdentChar_eq (by decide)]; decide, by decide, by decide, by decide⟩

/-! ## Digits -/

theorem isDigit_eq_false_of_isAlpha {c : Char} (h : c.isAlpha = true) : c.isDigit = false := by
  have hletter := Text.isAlpha_iff.mp h
  rw [Bool.eq_false_iff]
  intro hdigit
  simp only [Char.isDigit, Bool.and_eq_true, decide_eq_true_eq, UInt32.le_iff_toNat_le,
    ge_iff_le] at hdigit
  have hbound : c.toNat ≤ 57 := hdigit.2
  omega

theorem toNat_lt_of_isDigit {c : Char} (h : c.isDigit = true) : c.toNat < 0x80 := by
  simp only [Char.isDigit, Bool.and_eq_true, decide_eq_true_eq, UInt32.le_iff_toNat_le,
    ge_iff_le] at h
  have hbound : c.toNat ≤ 57 := h.2
  omega

/-! ## Names -/

variable {x : Char} {rest : List Char}

theorem isIdentStart_eq {c : Char} (h : c.toNat < 0x80) :
    isIdentStart c = (c.isAlpha || c == '_') := by
  rw [isIdentStart, Text.isLetter_eq_isAlpha h]

theorem ne_of_isIdentStart {c d : Char} (hc : isIdentStart c = true)
    (hd : d.toNat < 0x80 ∧ (d.isAlpha || d == '_') = false) : c ≠ d := by
  rintro rfl
  rw [isIdentStart_eq hd.1, hd.2] at hc
  contradiction

theorem not_mem_of_isIdentStart {c : Char} {others : List Char} (hc : isIdentStart c = true)
    (hothers : others.all (fun d => d.toNat < 0x80 ∧ (d.isAlpha || d == '_') = false) = true) :
    c ∉ others := by
  intro hmem
  have hother := of_decide_eq_true (List.all_eq_true.mp hothers c hmem)
  exact ne_of_isIdentStart hc hother rfl

theorem isDigit_eq_false_of_isIdentStart {c : Char} (h : isIdentStart c = true) :
    c.isDigit = false := by
  rw [Bool.eq_false_iff]
  intro hdigit
  rw [isIdentStart_eq (toNat_lt_of_isDigit hdigit), Bool.or_eq_true, beq_iff_eq] at h
  obtain halpha | rfl := h
  · rw [isDigit_eq_false_of_isAlpha halpha] at hdigit
    contradiction
  · contradiction

theorem exists_of_startsIdent {s : List Char} (h : startsIdent s = true) :
    ∃ c t, s = c :: t ∧
      (isIdentStart c = true ∨ c = '-' ∧ ∃ d u, t = d :: u ∧ isIdentStart d = true) := by
  match s, h with
  | [], h => contradiction
  | [c], h =>
    refine ⟨c, [], rfl, .inl ?_⟩
    by_cases hc : c = '-' <;> simpa [startsIdent, hc] using h
  | c :: d :: u, h =>
    refine ⟨c, d :: u, rfl, ?_⟩
    by_cases hc : c = '-'
    · subst hc
      exact .inr ⟨rfl, d, u, rfl, h⟩
    · exact .inl (by simpa [startsIdent, hc] using h)

theorem startsIdent_append {s : List Char} (h : startsIdent s = true) (t : List Char) :
    startsIdent (s ++ t) = true := by
  obtain ⟨c, u, rfl, hc | ⟨rfl, d, v, rfl, hd⟩⟩ := exists_of_startsIdent h
  · have hhyphen : c ≠ '-' := ne_of_isIdentStart hc (by decide)
    simpa [startsIdent, hhyphen] using hc
  · exact hd

theorem isName_iff {s : String} :
    IsName s ↔ startsIdent s.toList = true ∧ ∀ c ∈ s.toList, isIdentChar c = true := by
  rw [IsName, ident]
  by_cases hstarts : startsIdent s.toList = true
  · rw [if_pos hstarts, List.takeWhile_eq_self_iff]
    refine ⟨fun h => ⟨hstarts, h.2⟩, fun h => ⟨?_, h.2⟩⟩
    intro hnil
    simp [hnil, startsIdent] at hstarts
  · rw [if_neg hstarts]
    refine ⟨fun h => absurd h.2.symm h.1, fun h => absurd h.1 hstarts⟩

/-- A name goes up to the delimiter. -/
theorem ident_of_isName {s : String} (h : IsName s) (hx : isDelimiter x = true) :
    ident (s.toList ++ x :: rest) = s.toList := by
  obtain ⟨hstarts, hchars⟩ := isName_iff.mp h
  rw [ident, if_pos (startsIdent_append hstarts _)]
  apply takeWhile_append_of_stop hchars
  intro c hc
  obtain rfl := Option.some.inj hc
  exact (ends_of_isDelimiter hx).isIdentChar

/-! ## Numbers -/

namespace Number.IsLiteral

variable {n : Number}

/-- Neither a unit nor a delimiter goes on with the digits of a number. -/
theorem head?_unit (h : n.IsLiteral) (hx : isDelimiter x = true) (rest : List Char) {c : Char}
    (hc : (n.unit ++ x :: rest).head? = some c) : c.isDigit = false ∧ c ≠ '.' := by
  cases hunit : n.unit with
  | nil =>
    rw [hunit] at hc
    obtain rfl := Option.some.inj hc
    have hends := ends_of_isDelimiter hx
    refine ⟨?_, hends.ne_point⟩
    have hdigit := hends.isAlphanum
    rw [Char.isAlphanum, Bool.or_eq_false_iff] at hdigit
    exact hdigit.2
  | cons d unit =>
    rw [hunit] at hc
    obtain rfl := Option.some.inj hc
    obtain hpercent | halpha := h.unit
    · obtain rfl := (List.cons.inj (hunit.symm.trans hpercent)).1
      decide
    · have hd := halpha d (by rw [hunit]; exact List.mem_cons_self ..)
      refine ⟨isDigit_eq_false_of_isAlpha hd, ?_⟩
      rintro rfl
      contradiction

/-- The unit of a number goes up to the delimiter. -/
theorem takeWhile_unit (h : n.IsLiteral) (hx : isDelimiter x = true) (rest : List Char) :
    n.unit = ['%'] ∨ (n.unit ++ x :: rest).takeWhile Char.isAlpha = n.unit ∧
      ∀ t, n.unit ++ x :: rest ≠ '%' :: t := by
  have hends := ends_of_isDelimiter hx
  refine h.unit.imp_right fun halpha => ⟨?_, ?_⟩
  · apply takeWhile_append_of_stop halpha
    intro c hc
    obtain rfl := Option.some.inj hc
    have hletter := hends.isAlphanum
    rw [Char.isAlphanum, Bool.or_eq_false_iff] at hletter
    exact hletter.1
  · intro t ht
    cases hunit : n.unit with
    | nil =>
      rw [hunit] at ht
      exact hends.ne_percent (List.cons.inj ht).1
    | cons d unit =>
      rw [hunit] at ht
      obtain rfl := (List.cons.inj ht).1
      have hletter := halpha '%' (by rw [hunit]; exact List.mem_cons_self ..)
      contradiction

/-- In front of a delimiter, the lexer finds the number that was printed. -/
theorem number_eq (h : n.IsLiteral) (hx : isDelimiter x = true) :
    number (n.text ++ x :: rest) = n := by
  obtain ⟨whole, fraction, unit⟩ := n
  have hunit := h.takeWhile_unit hx rest
  have htail (c : Char) := h.head?_unit hx rest (c := c)
  dsimp only at hunit htail
  cases fraction with
  | nil =>
    have htext : text ⟨whole, [], unit⟩ ++ x :: rest = whole ++ (unit ++ x :: rest) := by
      simp [text]
    have hwhole : (whole ++ (unit ++ x :: rest)).takeWhile Char.isDigit = whole :=
      takeWhile_append_of_stop h.whole fun c hc => (htail c hc).1
    have hpoint (t : List Char) : unit ++ x :: rest ≠ '.' :: t := by
      intro heq
      exact (htail '.' (by rw [heq]; rfl)).2 rfl
    rw [htext, number]
    simp only [hwhole, List.drop_left, List.isEmpty_nil, if_true]
    obtain rfl | ⟨hunit, hpercent⟩ := hunit
    · rfl
    · generalize unit ++ x :: rest = tail at *
      simp [hunit]
  | cons d fraction =>
    have htext : text ⟨whole, d :: fraction, unit⟩ ++ x :: rest =
        whole ++ '.' :: (d :: fraction ++ (unit ++ x :: rest)) := by
      simp [text]
    have hwhole : (whole ++ '.' :: (d :: fraction ++ (unit ++ x :: rest))).takeWhile Char.isDigit =
        whole := by
      apply takeWhile_append_of_stop h.whole
      intro c hc
      obtain rfl := Option.some.inj hc
      rfl
    have hfraction : (d :: fraction ++ (unit ++ x :: rest)).takeWhile Char.isDigit =
        d :: fraction :=
      takeWhile_append_of_stop h.fraction fun c hc => (htail c hc).1
    have hdrop : ('.' :: (d :: fraction ++ (unit ++ x :: rest))).drop
        (1 + (d :: fraction).length) = unit ++ x :: rest := by
      rw [Nat.add_comm, List.drop_succ_cons, List.drop_left]
    rw [htext, number]
    simp only [hwhole, List.drop_left, hfraction, hdrop]
    simp only [List.isEmpty_cons, Bool.false_eq_true, if_false]
    obtain rfl | ⟨hunit, hpercent⟩ := hunit
    · rfl
    · simp [hunit]

end Number.IsLiteral

/-! ## Strings and hashes -/

theorem stringRest_quote (quote : Char) (s : List Char) :
    stringRest quote (quote :: s) = .closed [] 1 := by
  rw [stringRest.eq_def]
  dsimp only
  rw [if_pos rfl]

theorem stringRest_backslash {quote : Char} (h : quote ≠ '\\') (c : Char) (s : List Char) :
    stringRest quote ('\\' :: c :: s) = (stringRest quote s).cons c 2 := by
  rw [stringRest, if_neg h.symm, if_pos rfl]

theorem stringRest_plain {quote c : Char} (hquote : c ≠ quote) (hbackslash : c ≠ '\\')
    (hfeed : c ≠ '\n') (s : List Char) :
    stringRest quote (c :: s) = (stringRest quote s).cons c 1 := by
  rw [stringRest.eq_def]
  dsimp only
  rw [if_neg hquote, if_neg hbackslash, if_neg hfeed]

/-- An escaped text is read up to the quote behind it. -/
theorem stringRest_escape (s rest : List Char) :
    stringRest '"' (s.flatMap escape ++ '"' :: rest) =
      .closed s ((s.flatMap escape).length + 1) := by
  induction s with
  | nil => exact stringRest_quote '"' rest
  | cons c s ih =>
    rw [List.flatMap_cons, List.append_assoc, escape]
    by_cases h : c = '"' ∨ c = '\\' ∨ c = '\n'
    · rw [if_pos h, List.cons_append, List.cons_append, List.nil_append,
        stringRest_backslash (by decide), ih, StringRest.cons]
      simp
      omega
    · simp only [not_or] at h
      rw [if_neg (by simp [h]), List.cons_append, List.nil_append,
        stringRest_plain h.1 h.2.1 h.2.2, ih, StringRest.cons]
      simp
      omega

theorem hashLength_append {digits : List Char} (hdigits : ∀ c ∈ digits, c.isAlphanum = true)
    (hx : isDelimiter x = true) :
    hashLength ('#' :: digits ++ x :: rest) = 1 + digits.length := by
  have hrun : (digits ++ x :: rest).takeWhile Char.isAlphanum = digits := by
    apply takeWhile_append_of_stop hdigits
    intro c hc
    obtain rfl := Option.some.inj hc
    exact (ends_of_isDelimiter hx).isAlphanum
  rw [hashLength, List.cons_append, List.drop_one, List.tail_cons, hrun]

end Lexeme

namespace Lexeme.Number

theorem length_text (n : Number) : n.text.length = n.length := by
  rw [text, length, List.length_append, List.length_append]
  cases n.fraction <;> simp
  omega

theorem length_pos {n : Number} (h : n.isPresent = true) : 0 < n.length := by
  simp only [isPresent, Bool.or_eq_true, Bool.not_eq_true', List.isEmpty_eq_false_iff] at h
  rw [length]
  obtain h | h := h
  · have hpos := List.length_pos_iff.mpr h
    omega
  · rw [if_neg (by simpa using h)]
    omega

end Lexeme.Number

namespace Cursor

open Lexeme (isDelimiter)

variable {c : Cursor} {d x : Char} {s rest : List Char}

/-! ## The leaf at a cursor -/

/-- What starts with neither a digit nor a point is no number. -/
theorem number?_eq_none (hrest : c.rest = d :: s) (hdigit : d.isDigit = false) (hpoint : d ≠ '.') :
    c.number? = none := by
  have habsent : (Lexeme.number c.rest).isPresent = false := by
    have hwhole : (d :: s).takeWhile Char.isDigit = [] := by simp [hdigit]
    rw [hrest, Lexeme.number]
    simp only [hwhole, List.length_nil, List.drop_zero]
    simp [Lexeme.Number.isPresent, hpoint]
  rw [number?]
  simp [habsent]

theorem primary_of_quote (hnumber : c.number? = none) (hrest : c.rest = '"' :: s)
    (hne : c.rest ≠ []) : c.primary = c.string '"' hne := by
  obtain ⟨offset, previous, _⟩ := c
  obtain rfl := hrest
  rw [primary]
  simp only [hnumber]
  rfl

theorem primary_of_apostrophe (hnumber : c.number? = none)
    (hrest : c.rest = '\'' :: s) (hne : c.rest ≠ []) : c.primary = c.string '\'' hne := by
  obtain ⟨offset, previous, _⟩ := c
  obtain rfl := hrest
  rw [primary]
  simp only [hnumber]
  rfl

theorem primary_of_dollar (hnumber : c.number? = none) (hrest : c.rest = '$' :: s) :
    c.primary = c.reference := by
  obtain ⟨offset, previous, _⟩ := c
  obtain rfl := hrest
  rw [primary]
  simp only [hnumber]
  rfl

theorem primary_of_hash (hnumber : c.number? = none) (hrest : c.rest = '#' :: s)
    (hne : c.rest ≠ []) : c.primary = .ok (c.hash hne) := by
  obtain ⟨offset, previous, _⟩ := c
  obtain rfl := hrest
  rw [primary]
  simp only [hnumber]
  rfl

theorem primary_of_word (hnumber : c.number? = none) (hrest : c.rest = d :: s)
    (hd : d ∉ ['"', '\'', '$', '#', '(']) : c.primary = c.word := by
  obtain ⟨offset, previous, _⟩ := c
  obtain rfl := hrest
  rw [primary]
  simp only [hnumber]
  split
  all_goals first
    | rfl
    | rename_i heq
      obtain rfl := Option.some.inj heq
      simp at hd

/-! ## Printed leaves -/

theorem reaches_ident_skip {name : String} (h : IsName name) (hx : isDelimiter x = true)
    (hrest : c.rest = name.toList ++ x :: rest) (expected : Expected) :
    Reaches (c.ident expected) name (c.skip name.toList.length) := by
  have hname : Lexeme.ident c.rest = name.toList := by
    rw [hrest]
    exact Lexeme.ident_of_isName h hx
  simp only [ident, ident?, hname, h.1, dite_false, String.ofList_toList]
  exact ⟨_, rfl⟩

theorem reaches_ident {name : String} (h : IsName name) (hx : isDelimiter x = true)
    (hrest : c.rest = name.toList ++ x :: rest) (expected : Expected) :
    ∃ next, Reaches (c.ident expected) name next ∧ next.rest = x :: rest :=
  ⟨_, reaches_ident_skip h hx hrest expected, by rw [rest_skip, hrest, List.drop_left]⟩

theorem reaches_primary_number {literal : Lexeme.Number} (h : literal.IsLiteral)
    (hx : isDelimiter x = true) (hrest : c.rest = literal.text ++ x :: rest) :
    ∃ e next, Reaches c.primary e next ∧ e.unplaced = (Term.number literal).tree ∧
      next.rest = x :: rest := by
  have hnumber : Lexeme.number c.rest = literal := by
    rw [hrest]
    exact h.number_eq hx
  refine ⟨.number ⟨c.offset, (c.skip literal.length).offset⟩ literal.value literal.unit?,
    c.skip literal.length, ?_, rfl, ?_⟩
  · rw [primary, number?]
    simp only [hnumber, Lexeme.Number.length_pos h.isPresent, h.isPresent, and_self, dite_true]
    exact ⟨_, rfl⟩
  · rw [rest_skip, hrest, ← literal.length_text, List.drop_left]

theorem reaches_primary_quoted {text : String}
    (hrest : c.rest = '"' :: text.toList.flatMap Lexeme.escape ++ '"' :: rest) :
    ∃ e next, Reaches c.primary e next ∧ e.unplaced = (Term.quoted text).tree ∧
      next.rest = rest := by
  let length := (text.toList.flatMap Lexeme.escape).length + 1
  have hnumber : c.number? = none := number?_eq_none hrest (by decide) (by decide)
  have hstring : Lexeme.stringRest '"' (c.rest.drop 1) = .closed text.toList length := by
    rw [hrest, List.cons_append, List.drop_one, List.tail_cons, Lexeme.stringRest_escape]
  refine ⟨.text ⟨c.offset, (c.skip (1 + length)).offset⟩ (String.ofList text.toList) true,
    c.skip (1 + length), ?_, ?_, ?_⟩
  · rw [primary_of_quote hnumber hrest (by simp [hrest]), string]
    split
    · rename_i heq
      cases hstring.symm.trans heq
      exact ⟨_, rfl⟩
    · rename_i heq
      cases hstring.symm.trans heq
  · rw [String.ofList_toList]
    rfl
  · rw [rest_skip, hrest, Nat.add_comm 1, List.cons_append, List.drop_succ_cons, ← List.drop_drop,
      List.drop_left]
    rfl

theorem reaches_primary_var {name : String} (h : IsName name) (hx : isDelimiter x = true)
    (hrest : c.rest = '$' :: name.toList ++ x :: rest) :
    ∃ e next, Reaches c.primary e next ∧ e.unplaced = (Term.var name).tree ∧
      next.rest = x :: rest := by
  have hnumber : c.number? = none := number?_eq_none hrest (by decide) (by decide)
  have hname : (c.skip 1).rest = name.toList ++ x :: rest := by
    rw [rest_skip, hrest]
    rfl
  obtain ⟨next, hident, hnext⟩ := reaches_ident h hx hname .variableName
  refine ⟨.var ⟨c.offset, next.offset⟩ name, next, ?_, rfl, hnext⟩
  rw [primary_of_dollar hnumber hrest, reference]
  exact hident.bind fun _ => ⟨_, rfl⟩

theorem reaches_primary_hash {text : String} {digits : List Char}
    (htext : text.toList = '#' :: digits) (hdigits : ∀ c ∈ digits, c.isAlphanum = true)
    (hx : isDelimiter x = true) (hrest : c.rest = text.toList ++ x :: rest) :
    ∃ e next, Reaches c.primary e next ∧ e.unplaced = (Term.word text).tree ∧
      next.rest = x :: rest := by
  have hlength : Lexeme.hashLength c.rest = text.toList.length := by
    rw [hrest, htext, Lexeme.hashLength_append hdigits hx, List.length_cons, Nat.add_comm]
  have hhead : c.rest = '#' :: (digits ++ x :: rest) := by rw [hrest, htext, List.cons_append]
  have hnumber : c.number? = none := number?_eq_none hhead (by decide) (by decide)
  refine ⟨.text ⟨c.offset, (c.skip text.toList.length).offset⟩ text false,
    c.skip text.toList.length, ?_, rfl, ?_⟩
  · have htake : c.rest.take text.toList.length = text.toList := by rw [hrest, List.take_left]
    rw [primary_of_hash hnumber hhead (by simp [hhead]), hash]
    simp only [hlength, htake, String.ofList_toList]
    exact ⟨_, rfl⟩
  · rw [rest_skip, hrest, List.drop_left]

theorem reaches_primary_name {text : String} (h : IsName text) (hx : isDelimiter x = true)
    (hrest : c.rest = text.toList ++ x :: rest) :
    ∃ e next, Reaches c.primary e next ∧ e.unplaced = (Term.word text).tree ∧
      next.rest = x :: rest := by
  obtain ⟨d, s, htext, hstart⟩ := Lexeme.exists_of_startsIdent (Lexeme.isName_iff.mp h).1
  have hd : d.isDigit = false ∧ d ∉ ['.', '"', '\'', '$', '#', '('] := by
    obtain hd | ⟨rfl, -⟩ := hstart
    · exact ⟨Lexeme.isDigit_eq_false_of_isIdentStart hd,
        Lexeme.not_mem_of_isIdentStart hd (by decide)⟩
    · decide
  rw [List.mem_cons, not_or] at hd
  have hhead : c.rest = d :: (s ++ x :: rest) := by rw [hrest, htext, List.cons_append]
  have hnumber : c.number? = none := number?_eq_none hhead hd.1 hd.2.1
  obtain ⟨next, hident, hnext⟩ := reaches_ident h hx hrest .expression
  refine ⟨.text ⟨c.offset, next.offset⟩ text false, next, ?_, rfl, hnext⟩
  rw [primary_of_word hnumber hhead hd.2.2, word]
  exact hident.bind fun _ => ⟨_, rfl⟩

end Cursor

end Stylesheet
