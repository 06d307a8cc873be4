import Mathlib.Data.List.Infix
import Stylesheet.Proofs.Syntax.Reaching

/-!
# Blanks and comments

Which texts are blanks and comments and nothing else, and which ones end inside a comment. Every
text has the former in front of something solid, or is the latter (`exists_trivia`).
-/

namespace Stylesheet.Lexeme

variable {c : Char} {s t : List Char}

/-! ## Blanks and comments that have an end -/

/-- Blanks and whole comments. The line feed behind a line comment counts as a part of it. -/
inductive IsTrivia : List Char → Prop where
  | nil : IsTrivia []
  | blank {c : Char} {s : List Char} (hc : Text.isBlank c = true) (h : IsTrivia s) :
    IsTrivia (c :: s)
  | lineComment {text s : List Char} (htext : '\n' ∉ text) (h : IsTrivia s) :
    IsTrivia ('/' :: '/' :: (text ++ '\n' :: s))
  | blockComment {text s : List Char} (htext : ¬['*', '/'] <:+: text) (h : IsTrivia s) :
    IsTrivia ('/' :: '*' :: (text ++ '*' :: '/' :: s))

/-- A comment without its end. -/
inductive IsOpenComment : List Char → Prop where
  | line {text : List Char} (htext : '\n' ∉ text) : IsOpenComment ('/' :: '/' :: text)
  | block {text : List Char} (htext : ¬['*', '/'] <:+: text) : IsOpenComment ('/' :: '*' :: text)

/-- Whether a text is blanks and comments, the last of which has no end. -/
def EndsInComment (s : List Char) : Prop :=
  ∃ lead tail, s = lead ++ tail ∧ IsTrivia lead ∧ IsOpenComment tail

/-- Whether a comment starts in front of a text. -/
def OpensComment (s : List Char) : Prop := ['/', '/'] <+: s ∨ ['/', '*'] <+: s

/-! ## What is passed, character by character -/

theorem triviaLength_lineMark (s : List Char) :
    triviaLength .blanks ('/' :: '/' :: s) = 2 + triviaLength .lineComment s := by
  rw [triviaLength.eq_def]
  rfl

theorem triviaLength_blockMark (s : List Char) :
    triviaLength .blanks ('/' :: '*' :: s) = 2 + triviaLength .blockComment s := by
  rw [triviaLength.eq_def]
  rfl

theorem ne_slash_of_isBlank (h : Text.isBlank c = true) : c ≠ '/' := by
  rintro rfl
  contradiction

theorem triviaLength_blank (h : Text.isBlank c = true) (s : List Char) :
    triviaLength .blanks (c :: s) = 1 + triviaLength .blanks s := by
  have hslash := ne_slash_of_isBlank h
  rw [triviaLength.eq_def]
  split <;> simp_all

theorem triviaLength_lineComment_cons (c : Char) (s : List Char) :
    triviaLength .lineComment (c :: s) =
      1 + triviaLength (if c = '\n' then .blanks else .lineComment) s := by
  rw [triviaLength.eq_def]
  split <;> simp_all

theorem triviaLength_blockEnd (s : List Char) :
    triviaLength .blockComment ('*' :: '/' :: s) = 2 + triviaLength .blanks s := by
  rw [triviaLength.eq_def]
  rfl

theorem triviaLength_blockComment_cons (h : ¬['*', '/'] <+: c :: s) :
    triviaLength .blockComment (c :: s) = 1 + triviaLength .blockComment s := by
  rw [triviaLength.eq_def]
  split <;> simp_all

theorem IsSolid.isBlank_eq_false (h : IsSolid (c :: s)) : Text.isBlank c = false := by
  rw [Bool.eq_false_iff]
  intro hblank
  rw [IsSolid, triviaLength_blank hblank] at h
  omega

theorem IsSolid.not_opensComment (h : IsSolid s) : ¬OpensComment s := by
  rintro (⟨t, rfl⟩ | ⟨t, rfl⟩)
  · have hlength := triviaLength_lineMark t
    rw [IsSolid, List.cons_append, List.singleton_append] at h
    omega
  · have hlength := triviaLength_blockMark t
    rw [IsSolid, List.cons_append, List.singleton_append] at h
    omega

theorem isSolid_of_not_opensComment (hblank : Text.isBlank c = false)
    (h : ¬OpensComment (c :: s)) : IsSolid (c :: s) := by
  by_cases hslash : c = '/'
  · subst hslash
    cases s with
    | nil => rfl
    | cons d s =>
      apply isSolid_slash
      · rintro rfl
        exact h (.inl ⟨s, rfl⟩)
      · rintro rfl
        exact h (.inr ⟨s, rfl⟩)
  · exact isSolid_cons hblank hslash

/-- A line comment goes up to its line feed. -/
theorem triviaLength_lineComment_append (h : '\n' ∉ t) (s : List Char) :
    triviaLength .lineComment (t ++ '\n' :: s) = t.length + 1 + triviaLength .blanks s := by
  induction t with
  | nil => rw [List.nil_append, triviaLength_lineComment_cons, if_pos rfl, List.length_nil]
  | cons c t ih =>
    rw [List.mem_cons, not_or] at h
    rw [List.cons_append, triviaLength_lineComment_cons, if_neg (Ne.symm h.1), ih h.2,
      List.length_cons]
    omega

theorem triviaLength_lineComment (h : '\n' ∉ t) : triviaLength .lineComment t = t.length := by
  induction t with
  | nil => rfl
  | cons c t ih =>
    rw [List.mem_cons, not_or] at h
    rw [triviaLength_lineComment_cons, if_neg (Ne.symm h.1), ih h.2, List.length_cons]
    omega

/-- The mark behind a text without one starts behind the text, even if the text ends in a star. -/
theorem not_prefix_append_blockEnd (h : ¬['*', '/'] <:+: c :: t) (s : List Char) :
    ¬['*', '/'] <+: c :: t ++ '*' :: '/' :: s := by
  intro hstart
  obtain ⟨rfl, hrest⟩ := List.cons_prefix_cons.mp hstart
  cases t with
  | nil =>
    have heq := (List.cons_prefix_cons.mp hrest).1
    contradiction
  | cons d t =>
    obtain ⟨rfl, -⟩ := List.cons_prefix_cons.mp hrest
    exact h ⟨[], t, rfl⟩

/-- A block comment goes up to its mark. -/
theorem triviaLength_blockComment_append (h : ¬['*', '/'] <:+: t) (s : List Char) :
    triviaLength .blockComment (t ++ '*' :: '/' :: s) = t.length + 2 + triviaLength .blanks s := by
  induction t with
  | nil => rw [List.nil_append, triviaLength_blockEnd, List.length_nil, Nat.zero_add]
  | cons c t ih =>
    have hstart := not_prefix_append_blockEnd h s
    have htail : ¬['*', '/'] <:+: t := fun hinside =>
      h (hinside.trans (List.suffix_cons c t).isInfix)
    rw [List.cons_append] at hstart ⊢
    rw [triviaLength_blockComment_cons hstart, ih htail, List.length_cons]
    omega

theorem triviaLength_blockComment (h : ¬['*', '/'] <:+: t) :
    triviaLength .blockComment t = t.length := by
  induction t with
  | nil => rfl
  | cons c t ih =>
    have htail : ¬['*', '/'] <:+: t := fun hinside =>
      h (hinside.trans (List.suffix_cons c t).isInfix)
    rw [triviaLength_blockComment_cons fun hstart => h hstart.isInfix, ih htail,
      List.length_cons]
    omega

/-! ## What is passed as a whole -/

/-- Blanks and whole comments are passed, and what follows is read as if they were not there. -/
theorem IsTrivia.triviaLength_append (h : IsTrivia s) (t : List Char) :
    triviaLength .blanks (s ++ t) = s.length + triviaLength .blanks t := by
  induction h with
  | nil => simp
  | blank hc _ ih =>
    rw [List.cons_append, triviaLength_blank hc, ih, List.length_cons]
    omega
  | @lineComment text s htext _ ih =>
    have hparts : '/' :: '/' :: (text ++ '\n' :: s) ++ t =
        '/' :: '/' :: (text ++ '\n' :: (s ++ t)) := by simp
    rw [hparts, triviaLength_lineMark, triviaLength_lineComment_append htext, ih]
    simp
    omega
  | @blockComment text s htext _ ih =>
    have hparts : '/' :: '*' :: (text ++ '*' :: '/' :: s) ++ t =
        '/' :: '*' :: (text ++ '*' :: '/' :: (s ++ t)) := by simp
    rw [hparts, triviaLength_blockMark, triviaLength_blockComment_append htext, ih]
    simp
    omega

theorem IsTrivia.append (hs : IsTrivia s) (ht : IsTrivia t) : IsTrivia (s ++ t) := by
  induction hs with
  | nil => exact ht
  | blank hc _ ih => exact .blank hc ih
  | lineComment htext _ ih =>
    rw [List.cons_append, List.cons_append, List.append_assoc]
    exact .lineComment htext ih
  | blockComment htext _ ih =>
    rw [List.cons_append, List.cons_append, List.append_assoc]
    exact .blockComment htext ih

theorem isTrivia_replicate_blank (n : Nat) : IsTrivia (List.replicate n ' ') := by
  induction n with
  | zero => exact .nil
  | succ n ih => exact .blank (by decide) ih

/-- A text that ends inside a comment is passed up to its end. -/
theorem EndsInComment.triviaLength_eq (h : EndsInComment s) :
    triviaLength .blanks s = s.length := by
  obtain ⟨lead, tail, rfl, hlead, htail⟩ := h
  rw [hlead.triviaLength_append, List.length_append]
  cases htail with
  | line htext =>
    rw [triviaLength_lineMark, triviaLength_lineComment htext]
    simp
    omega
  | block htext =>
    rw [triviaLength_blockMark, triviaLength_blockComment htext]
    simp
    omega

theorem EndsInComment.append (hs : IsTrivia s) (ht : EndsInComment t) : EndsInComment (s ++ t) := by
  obtain ⟨lead, tail, rfl, hlead, htail⟩ := ht
  exact ⟨s ++ lead, tail, by rw [List.append_assoc], hs.append hlead, htail⟩

theorem exists_line (s : List Char) :
    (∃ text rest, s = text ++ '\n' :: rest ∧ '\n' ∉ text) ∨ '\n' ∉ s := by
  by_cases h : '\n' ∈ s
  · obtain ⟨text, rest, hparts, htext⟩ := List.eq_append_cons_of_mem h
    exact .inl ⟨text, rest, hparts, htext⟩
  · exact .inr h

theorem exists_block (s : List Char) :
    (∃ text rest, s = text ++ '*' :: '/' :: rest ∧ ¬['*', '/'] <:+: text) ∨
      ¬['*', '/'] <:+: s := by
  induction s with
  | nil => exact .inr (by simp)
  | cons c s ih =>
    by_cases hstart : ['*', '/'] <+: c :: s
    · obtain ⟨rest, hrest⟩ := hstart
      exact .inl ⟨[], rest, hrest.symm, by simp⟩
    · obtain ⟨text, rest, rfl, htext⟩ | htext := ih
      · refine .inl ⟨c :: text, rest, rfl, fun hinside => ?_⟩
        obtain hfront | htail := List.infix_cons_iff.mp hinside
        · exact hstart (hfront.trans (List.prefix_append (c :: text) _))
        · exact htext htail
      · refine .inr fun hinside => ?_
        obtain hfront | htail := List.infix_cons_iff.mp hinside
        · exact hstart hfront
        · exact htext htail

/-- In front of a text there are blanks and whole comments, and then something solid or a comment
without an end. -/
theorem exists_trivia (s : List Char) :
    (∃ lead rest, s = lead ++ rest ∧ IsTrivia lead ∧ IsSolid rest) ∨ EndsInComment s := by
  induction hn : s.length using Nat.strong_induction_on generalizing s with
  | _ n ih =>
    -- what is in front of a part that is read for itself goes to its front
    have hfront (lead rest : List Char) (hparts : s = lead ++ rest) (hlead : IsTrivia lead)
        (hlt : rest.length < n) : (∃ lead rest, s = lead ++ rest ∧ IsTrivia lead ∧ IsSolid rest) ∨
          EndsInComment s := by
      obtain ⟨more, rest', rfl, hmore, hsolid⟩ | hcomment := ih _ hlt rest rfl
      · exact .inl ⟨lead ++ more, rest', by rw [hparts, List.append_assoc], hlead.append hmore,
          hsolid⟩
      · exact .inr (hparts ▸ EndsInComment.append hlead hcomment)
    match s, hn with
    | [], _ => exact .inl ⟨[], [], rfl, .nil, isSolid_nil⟩
    | c :: s, hn =>
      by_cases hblank : Text.isBlank c = true
      · exact hfront [c] s rfl (.blank hblank .nil) (by simp [← hn])
      by_cases hcomment : OpensComment (c :: s)
      · obtain ⟨t, ht⟩ | ⟨t, ht⟩ := hcomment
        · obtain ⟨text, rest, rfl, htext⟩ | htext := exists_line t
          · refine hfront ('/' :: '/' :: (text ++ ['\n'])) rest ?_
              (.lineComment htext .nil) ?_
            · simp [← ht]
            · simp [← hn, ← ht]
              omega
          · exact .inr ⟨[], c :: s, rfl, .nil, ht ▸ .line htext⟩
        · obtain ⟨text, rest, rfl, htext⟩ | htext := exists_block t
          · refine hfront ('/' :: '*' :: (text ++ ['*', '/'])) rest ?_
              (.blockComment htext .nil) ?_
            · simp [← ht]
            · simp [← hn, ← ht]
              omega
          · exact .inr ⟨[], c :: s, rfl, .nil, ht ▸ .block htext⟩
      · exact .inl ⟨[], c :: s, rfl, .nil,
          isSolid_of_not_opensComment (Bool.eq_false_iff.mpr hblank) hcomment⟩

end Stylesheet.Lexeme
