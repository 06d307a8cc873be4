import Stylesheet.Proofs.Syntax.LeafRoundTrip

/-!
# Printed terms

How the text of a term starts, and which characters it does not have.
-/

namespace Stylesheet

/-! ## Characters that start items -/

namespace Lexeme

variable {c d : Char}

theorem startsItem_eq (h : c.toNat < 0x80) :
    startsItem c = (c.isAlphanum || "_-.\"'$(#".toList.contains c) := by
  rw [startsItem, Text.isLetterOrNumeral_eq_isAlphanum h]

theorem startsItem_of_mem (h : c ∈ "_-.\"'$(#".toList) : startsItem c = true := by
  rw [startsItem, List.contains_iff_mem.mpr h, Bool.or_true]

theorem startsItem_of_isDigit (h : c.isDigit = true) : startsItem c = true := by
  rw [startsItem_eq (toNat_lt_of_isDigit h), Char.isAlphanum, h, Bool.or_true, Bool.true_or]

theorem startsItem_of_isIdentStart (h : isIdentStart c = true) : startsItem c = true := by
  rw [isIdentStart, Bool.or_eq_true, beq_iff_eq] at h
  obtain hletter | rfl := h
  · rw [startsItem, Text.isLetterOrNumeral, hletter, Bool.true_or, Bool.true_or]
  · exact startsItem_of_mem (by decide)

theorem isBlank_eq_false_of_startsItem (h : startsItem c = true) : Text.isBlank c = false := by
  rw [startsItem, Bool.or_eq_true] at h
  obtain h | h := h
  · exact Text.isBlank_eq_false_of_isLetterOrNumeral h
  · rw [List.contains_iff_mem] at h
    have hblank : "_-.\"'$(#".toList.all (fun d => !Text.isBlank d) = true := by decide
    simpa using List.all_eq_true.mp hblank c h

theorem ne_of_startsItem (hc : startsItem c = true)
    (hd : d.toNat < 0x80 ∧ (d.isAlphanum || "_-.\"'$(#".toList.contains d) = false) : c ≠ d := by
  rintro rfl
  rw [startsItem_eq hd.1, hd.2] at hc
  contradiction

/-- A number starts with a digit or a point. -/
theorem Number.IsLiteral.exists_head {n : Number} (h : n.IsLiteral) :
    ∃ c s, n.text = c :: s ∧ (c.isDigit = true ∨ c = '.') := by
  have hpresent := h.isPresent
  simp only [Number.isPresent, Bool.or_eq_true, Bool.not_eq_true', List.isEmpty_eq_false_iff]
    at hpresent
  cases hwhole : n.whole with
  | cons c s =>
    refine ⟨c, s ++ (if n.fraction = [] then [] else '.' :: n.fraction) ++ n.unit, ?_, .inl ?_⟩
    · simp [Number.text, hwhole]
    · exact h.whole c (by rw [hwhole]; exact List.mem_cons_self ..)
  | nil =>
    have hfraction : n.fraction ≠ [] := by simpa [hwhole] using hpresent
    exact ⟨'.', n.fraction ++ n.unit, by simp [Number.text, hwhole, hfraction], .inr rfl⟩

end Lexeme

/-! ## Items of lists -/

/-- A text that can be an item of a list. A hyphen in front of it has no blank behind it, so that
it does not subtract. -/
def Opens (s : List Char) : Prop :=
  ∃ c t, s = c :: t ∧ Lexeme.startsItem c = true ∧
    (c = '-' → ∃ d u, t = d :: u ∧ Text.isBlank d = false)

/-- A character that can start an item and is no hyphen. -/
theorem opens_cons {c : Char} (hc : Lexeme.startsItem c = true) (hhyphen : c ≠ '-')
    (s : List Char) : Opens (c :: s) :=
  ⟨c, s, rfl, hc, fun h => absurd h hhyphen⟩

theorem Opens.append {s : List Char} (h : Opens s) (t : List Char) : Opens (s ++ t) := by
  obtain ⟨c, u, rfl, hc, hhyphen⟩ := h
  refine ⟨c, u ++ t, rfl, hc, fun heq => ?_⟩
  obtain ⟨d, v, rfl, hd⟩ := hhyphen heq
  exact ⟨d, v ++ t, rfl, hd⟩

theorem Opens.isSolid {s : List Char} (h : Opens s) : Lexeme.IsSolid s := by
  obtain ⟨c, t, rfl, hc, -⟩ := h
  exact Lexeme.isSolid_cons (Lexeme.isBlank_eq_false_of_startsItem hc)
    (Lexeme.ne_of_startsItem hc (by decide))

theorem IsName.opens {s : String} (h : IsName s) : Opens s.toList := by
  obtain ⟨c, t, hs, hc | ⟨rfl, d, u, rfl, hd⟩⟩ :=
    Lexeme.exists_of_startsIdent (Lexeme.isName_iff.mp h).1
  · rw [hs]
    exact opens_cons (Lexeme.startsItem_of_isIdentStart hc)
      (Lexeme.ne_of_isIdentStart hc (by decide)) t
  · refine ⟨'-', d :: u, hs, Lexeme.startsItem_of_mem (by decide), fun _ => ⟨d, u, rfl, ?_⟩⟩
    exact Lexeme.isBlank_eq_false_of_startsItem (Lexeme.startsItem_of_isIdentStart hd)

section

variable (also : Place → Term → Bool)

theorem Place.opens_enclose {text : List Char} (h : Opens text) (place : Place) (t : Term) :
    Opens (place.enclose also t text) := by
  rw [enclose]
  split
  · exact opens_cons (Lexeme.startsItem_of_mem (by decide)) (by decide) _
  · exact h

/-- A term is printed as a text that can be an item of a list. -/
theorem Term.IsWellFormed.opens {t : Term} (h : t.IsWellFormed) : Opens (t.text also) := by
  induction h with
  | number h =>
    obtain ⟨c, s, htext, hc⟩ := h.exists_head
    rw [Term.text, htext]
    obtain hdigit | rfl := hc
    · refine opens_cons (Lexeme.startsItem_of_isDigit hdigit) ?_ s
      rintro rfl
      contradiction
    · exact opens_cons (Lexeme.startsItem_of_mem (by decide)) (by decide) s
  | name h => exact h.opens
  | hash htext hdigits =>
    rw [Term.text, htext]
    exact opens_cons (Lexeme.startsItem_of_mem (by decide)) (by decide) _
  | quoted text => exact opens_cons (Lexeme.startsItem_of_mem (by decide)) (by decide) _
  | var h => exact opens_cons (Lexeme.startsItem_of_mem (by decide)) (by decide) _
  | binary operator hleft hright ihleft ihright =>
    rw [Term.text, List.append_assoc]
    exact (Place.opens_enclose also ihleft _ _).append _
  | negate h ih =>
    obtain ⟨c, s, htext, hc, -⟩ := Place.opens_enclose also ih .negated _
    rw [Term.text, htext]
    exact ⟨'-', c :: s, rfl, Lexeme.startsItem_of_mem (by decide),
      fun _ => ⟨c, s, rfl, Lexeme.isBlank_eq_false_of_startsItem hc⟩⟩
  | @list items hlength h ih =>
    match items with
    | [] => contradiction
    | item :: items =>
      rw [Term.text]
      exact (Place.opens_enclose also (ih item (List.mem_cons_self ..)) _ _).append _

end

/-! ## Braces -/

theorem Lexeme.Number.IsLiteral.brace_not_mem {n : Lexeme.Number} (h : n.IsLiteral) :
    '{' ∉ n.text := by
  have hwhole : '{' ∉ n.whole := fun hmem => absurd (h.whole _ hmem) (by decide)
  have hfraction : '{' ∉ n.fraction := fun hmem => absurd (h.fraction _ hmem) (by decide)
  have hunit : '{' ∉ n.unit := by
    intro hmem
    obtain hunit | hunit := h.unit
    · rw [hunit] at hmem
      revert hmem
      decide
    · exact absurd (hunit _ hmem) (by decide)
  rw [text]
  split <;> simp [hwhole, hfraction, hunit]

theorem IsName.brace_not_mem {s : String} (h : IsName s) : '{' ∉ s.toList := by
  intro hmem
  have hbrace := (Lexeme.isName_iff.mp h).2 _ hmem
  rw [Lexeme.isIdentChar_eq (by decide)] at hbrace
  contradiction

theorem brace_not_mem_escape {s : List Char} (h : '{' ∉ s) : '{' ∉ s.flatMap Lexeme.escape := by
  rw [List.mem_flatMap]
  rintro ⟨c, hc, hmem⟩
  rw [Lexeme.escape] at hmem
  have hne : '{' ≠ c := by
    rintro rfl
    exact h hc
  split at hmem <;> simp_all

section

variable (also : Place → Term → Bool)

theorem Place.brace_not_mem_enclose {text : List Char} (h : '{' ∉ text) (place : Place) (t : Term) :
    '{' ∉ place.enclose also t text := by
  rw [enclose]
  split <;> simp [h]

theorem brace_not_mem_moreText {items : List Term} (h : ∀ t ∈ items, '{' ∉ t.text also) :
    '{' ∉ Term.moreText also items := by
  induction items with
  | nil => simp [Term.moreText]
  | cons item items ih =>
    simp only [List.mem_cons, forall_eq_or_imp] at h
    simp [Term.moreText, ih h.2, Place.brace_not_mem_enclose also h.1]

theorem Term.mem_stringsIn {items : List Term} {t : Term} {s : String} (ht : t ∈ items)
    (hs : s ∈ t.strings) : s ∈ Term.stringsIn items := by
  induction items with
  | nil => contradiction
  | cons item items ih =>
    rw [Term.stringsIn, List.mem_append]
    obtain rfl | ht := List.mem_cons.mp ht
    · exact .inl hs
    · exact .inr (ih ht)

/-- A term without a string with an opening brace has none in its text. -/
theorem Term.IsWellFormed.brace_not_mem {t : Term} (h : t.IsWellFormed)
    (hstrings : ∀ s ∈ t.strings, '{' ∉ s.toList) : '{' ∉ t.text also := by
  induction h with
  | number h => exact h.brace_not_mem
  | name h => exact h.brace_not_mem
  | hash htext hdigits =>
    rw [Term.text, htext, List.mem_cons, not_or]
    exact ⟨by decide, fun hmem => absurd (hdigits _ hmem) (by decide)⟩
  | quoted text =>
    have hescape := brace_not_mem_escape (hstrings text (List.mem_singleton_self _))
    simp only [Term.text, List.mem_append, List.mem_cons, List.not_mem_nil, or_false, not_or]
    exact ⟨⟨by decide, hescape⟩, by decide⟩
  | var h =>
    rw [Term.text, List.mem_cons, not_or]
    exact ⟨by decide, h.brace_not_mem⟩
  | @binary operator left right hleft hright ihleft ihright =>
    simp only [Term.strings, List.mem_append, or_imp, forall_and] at hstrings
    have hsymbol : '{' ∉ operator.symbol.toList := by cases operator <;> decide
    simp [Term.text, hsymbol, Place.brace_not_mem_enclose also (ihleft hstrings.1),
      Place.brace_not_mem_enclose also (ihright hstrings.2)]
  | negate h ih =>
    simp [Term.text, Place.brace_not_mem_enclose also (ih hstrings)]
  | @list items hlength h ih =>
    have hitems : ∀ t ∈ items, '{' ∉ t.text also := fun t ht =>
      ih t ht fun s hs => hstrings s (Term.mem_stringsIn ht hs)
    cases items with
    | nil => contradiction
    | cons item items =>
      simp only [List.mem_cons, forall_eq_or_imp] at hitems
      simp [Term.text, Place.brace_not_mem_enclose also hitems.1,
        brace_not_mem_moreText also hitems.2]

end

end Stylesheet
