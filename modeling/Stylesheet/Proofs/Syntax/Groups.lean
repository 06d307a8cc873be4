import Stylesheet.Proofs.Syntax.BlankRuns
import Stylesheet.Proofs.Syntax.Leaves
import Stylesheet.Proofs.Syntax.OwnText

/-!
# Groups

What stands in parentheses in an expression. No other lexeme ends with an opening parenthesis, so
where blanks and comments are passed behind one, it opens a group (`Expr.Traced.hasGroup`).
-/

namespace Stylesheet

/-! ## How lexemes end -/

namespace Lexeme

variable {s : List Char}

theorem not_mem_of_takeWhile {p : Char → Bool} {x : Char} (h : p x = false) :
    x ∉ s.takeWhile p := by
  intro hmem
  rw [List.mem_takeWhile_imp hmem] at h
  contradiction

theorem exists_fraction (s : List Char) :
    ∃ text rest, s = text ++ rest ∧ text.length = fractionLength s ∧ '(' ∉ text := by
  rw [fractionLength]
  split
  · exact ⟨[], s, rfl, rfl, List.not_mem_nil⟩
  · rename_i hsome
    cases s with
    | nil => simp [fractionAt] at hsome
    | cons x s =>
      by_cases hpoint : x = '.'
      · subst hpoint
        refine ⟨'.' :: s.takeWhile Char.isDigit, s.dropWhile Char.isDigit, ?_, ?_, ?_⟩
        · rw [List.cons_append, List.takeWhile_append_dropWhile]
        · rw [List.length_cons, Nat.add_comm, fractionAt]
        · exact List.not_mem_cons_of_ne_of_not_mem (by decide) (not_mem_of_takeWhile (by decide))
      · simp [fractionAt, hpoint] at hsome

theorem exists_unit (s : List Char) : ∃ rest, s = unitAt s ++ rest ∧ '(' ∉ unitAt s := by
  rw [unitAt.eq_def]
  split
  · exact ⟨_, rfl, by decide⟩
  · exact ⟨_, List.takeWhile_append_dropWhile.symm, not_mem_of_takeWhile (by decide)⟩

/-- The text of a number. -/
theorem exists_number (s : List Char) :
    ∃ text rest, s = text ++ rest ∧ text.length = (number s).length ∧ '(' ∉ text := by
  let whole := s.takeWhile Char.isDigit
  have hwhole : '(' ∉ whole := not_mem_of_takeWhile (by decide)
  obtain ⟨fraction, t, ht, hlength, hfraction⟩ := exists_fraction (s.drop whole.length)
  obtain ⟨rest, hrest, hunit⟩ := exists_unit t
  have hdrop : whole ++ s.drop whole.length = s :=
    List.prefix_iff_eq_append.mp (List.takeWhile_prefix _)
  have hbehind : behindFraction (s.drop whole.length) = t := by
    rw [behindFraction_eq, ← hlength, ht, List.drop_left]
  refine ⟨whole ++ fraction ++ unitAt t, rest, ?_, ?_, ?_⟩
  · rw [List.append_assoc, List.append_assoc, ← hrest, ← ht, hdrop]
  · rw [length_number, hbehind, List.length_append, List.length_append, hlength]
  · simp [hwhole, hfraction, hunit]

theorem ident_prefix (s : List Char) : ident s <+: s := by
  rw [ident]
  split
  · exact List.takeWhile_prefix _
  · exact List.nil_prefix

theorem not_mem_ident (s : List Char) : '(' ∉ ident s := by
  rw [ident]
  split
  · refine not_mem_of_takeWhile ?_
    rw [isIdentChar_eq (by decide)]
    decide
  · exact List.not_mem_nil

/-- A string ends with its quote, or with a backslash at the end of the source. -/
theorem exists_last_of_stringRest {quote : Char} {text : List Char} {length : Nat}
    (h : stringRest quote s = .closed text length) :
    ∃ front last rest, s = front ++ last :: rest ∧ length = front.length + 1 ∧
      (last = quote ∨ last = '\\') := by
  fun_induction stringRest quote s generalizing text length with
  | case1 => contradiction
  | case2 s =>
    obtain ⟨-, rfl⟩ := StringRest.closed.inj h
    exact ⟨[], _, s, rfl, rfl, .inl rfl⟩
  | case3 c =>
    obtain ⟨-, rfl⟩ := StringRest.closed.inj h
    exact ⟨[], '\\', [], rfl, rfl, .inr rfl⟩
  | case4 _ d s ih =>
    obtain ⟨_, _, hmore, -, rfl⟩ := StringRest.cons_eq_closed_iff.mp h
    obtain ⟨front, last, rest, rfl, rfl, hlast⟩ := ih hmore
    exact ⟨'\\' :: _ :: front, last, rest, rfl, Nat.add_comm _ _, hlast⟩
  | case5 => contradiction
  | case6 c s hc hbackslash hfeed ih =>
    obtain ⟨_, _, hmore, -, rfl⟩ := StringRest.cons_eq_closed_iff.mp h
    obtain ⟨front, last, rest, rfl, rfl, hlast⟩ := ih hmore
    exact ⟨c :: front, last, rest, rfl, Nat.add_comm _ _, hlast⟩

end Lexeme

namespace Cursor

variable {a b : Cursor}

/-- The character in front of a cursor that has passed some text. -/
theorem previous_skip_succ {front rest : List Char} {last : Char}
    (hrest : a.rest = front ++ last :: rest) :
    (a.skip (front.length + 1)).previous = some last := by
  have hparts : a.rest = (front ++ [last]) ++ rest := by rw [hrest, List.append_assoc]; rfl
  rw [previous_skip, hparts, List.take_left' (by simp), List.getLast?_concat, Option.some_or]

theorem previous_skip_one {x : Char} (h : a.peek? = some x) : (a.skip 1).previous = some x := by
  have hrest : a.rest = [] ++ x :: (a.skip 1).rest := rest_of_peek? h
  exact previous_skip_succ hrest

theorem previous_ne_of_not_mem {text rest : List Char} {x : Char} (hrest : a.rest = text ++ rest)
    (hne : text ≠ []) (hx : x ∉ text) : (a.skip text.length).previous ≠ some x := by
  obtain ⟨front, last, rfl⟩ := (List.eq_nil_or_concat' text).resolve_left hne
  rw [List.length_append, List.length_singleton,
    previous_skip_succ (hrest.trans (List.append_assoc ..))]
  rintro heq
  obtain rfl := Option.some.inj heq
  exact hx (List.mem_append_right _ (List.mem_singleton_self _))

theorem Names.rest_eq {name : String} (h : a.Names name b) : a.rest = name.toList ++ b.rest := by
  obtain ⟨-, rfl, rfl⟩ := h
  rw [String.toList_ofList, rest_skip]
  exact (List.prefix_iff_eq_append.mp (Lexeme.ident_prefix a.rest)).symm

theorem Names.previous_ne {name : String} (h : a.Names name b) : b.previous ≠ some '(' := by
  have hrest := h.rest_eq
  obtain ⟨hne, rfl, rfl⟩ := h
  rw [String.toList_ofList] at hrest
  exact previous_ne_of_not_mem hrest hne (Lexeme.not_mem_ident a.rest)

theorem previous_multiplicative_ne {operator : Operator} (h : a.multiplicative? = some operator) :
    (a.skip 1).previous ≠ some '(' := by
  obtain ⟨x, hpeek⟩ := exists_peek?_of_multiplicative? h
  rw [previous_skip_one hpeek]
  rintro heq
  obtain rfl := Option.some.inj heq
  simp [multiplicative?, hpeek] at h

theorem previous_additive_ne {operator : Operator} (h : a.additive? = some operator) :
    (a.skip 1).previous ≠ some '(' := by
  obtain ⟨x, hpeek⟩ := exists_peek?_of_additive? h
  rw [previous_skip_one hpeek]
  rintro heq
  obtain rfl := Option.some.inj heq
  simp [additive?, hpeek] at h

end Cursor

namespace Expr

theorem IsLeaf.previous_ne {e : Expr} {a b : Cursor} (h : e.IsLeaf a b) :
    b.previous ≠ some '(' := by
  cases h with
  | number hpresent hb =>
    obtain ⟨text, rest, hrest, hlength, htext⟩ := Lexeme.exists_number a.rest
    rw [hb, ← hlength]
    refine Cursor.previous_ne_of_not_mem hrest ?_ htext
    rintro rfl
    exact absurd hlength (Nat.ne_of_lt (Lexeme.Number.length_pos hpresent))
  | @string _ _ quote text length hquote hpeek hstring hb =>
    obtain ⟨front, last, rest, hrest, rfl, hlast⟩ := Lexeme.exists_last_of_stringRest hstring
    have hparts : a.rest = (quote :: front) ++ last :: rest := by
      rw [Cursor.rest_of_peek? hpeek, Cursor.rest_skip, hrest, List.cons_append]
    rw [hb, Nat.add_comm 1, ← List.length_cons, Cursor.previous_skip_succ hparts]
    rintro heq
    obtain rfl := Option.some.inj heq
    obtain rfl | hlast := hlast
    · revert hquote
      decide
    · contradiction
  | var _ hname => exact hname.previous_ne
  | hash hpeek hb =>
    let text := (a.rest.drop 1).takeWhile Char.isAlphanum
    have hparts : a.rest = ('#' :: text) ++ (a.rest.drop 1).dropWhile Char.isAlphanum := by
      rw [List.cons_append, List.takeWhile_append_dropWhile, ← Cursor.rest_skip]
      exact Cursor.rest_of_peek? hpeek
    have hlength : Lexeme.hashLength a.rest = ('#' :: text).length := Nat.add_comm _ _
    rw [hb, hlength]
    refine Cursor.previous_ne_of_not_mem hparts (List.cons_ne_nil _ _) ?_
    exact List.not_mem_cons_of_ne_of_not_mem (by decide) (Lexeme.not_mem_of_takeWhile (by decide))
  | word hname => exact hname.previous_ne

mutual

/-- No expression ends with an opening parenthesis. -/
theorem Stands.previous_ne {level : Level} {e : Expr} {a b : Cursor} :
    e.Stands level a b → b.previous ≠ some '('
  | .leaf h => h.previous_ne
  | .group _ _ hclose => by
    rw [hclose.2, Cursor.previous_skip_one hclose.1]
    decide
  | .primary _ h | .factor h | .product h | .sum h | .negate _ h => h.previous_ne
  | .multiply _ _ hright | .add _ _ hright => hright.previous_ne
  | .list hfirst hmore => hmore.previous_ne hfirst.previous_ne

theorem Items.previous_ne {items : List Expr} {a b : Cursor} (ha : a.previous ≠ some '(') :
    Items items a b → b.previous ≠ some '('
  | .nil => ha
  | .cons _ _ hitem hitems => hitems.previous_ne hitem.previous_ne

end

/-! ## Parentheses that are passed -/

/-- An expression in parentheses, with a gap behind the opening one. -/
structure IsGroup (inner : Expr) (a b gap : Cursor) : Prop where
  opens : a.peek? = some '('
  gap_eq : gap = a.skip 1
  closes : ∃ c, inner.Stands .list gap.skipTrivia c ∧ c.Passes ')' b

/-- Between two cursors there is a group with a gap behind its opening parenthesis. If a variable
stands in it, a leaf covers the parentheses. -/
def HasGroup (leaves : List Expr) (start stop gap : Cursor) : Prop :=
  ∃ (inner : Expr) (a b : Cursor), inner.IsGroup a b gap ∧ start ≤ a ∧ b ≤ stop ∧
    ∀ range name, inner = .var range name → ∃ leaf ∈ leaves, (a.rangeTo b).IsIn leaf.range

theorem HasGroup.mono {leaves leaves' : List Expr} {a b c d gap : Cursor}
    (h : HasGroup leaves c d gap) (hac : a ≤ c) (hdb : d ≤ b) (hleaves : leaves ⊆ leaves') :
    HasGroup leaves' a b gap := by
  obtain ⟨inner, p, q, hgroup, hstart, hstop, hcovers⟩ := h
  refine ⟨inner, p, q, hgroup, le_trans hac hstart, le_trans hstop hdb, ?_⟩
  intro range name hvar
  obtain ⟨leaf, hleaf, hin⟩ := hcovers range name hvar
  exact ⟨leaf, hleaves hleaf, hin⟩

/-- A group inside another one. A leaf in the outer parentheses takes their range. -/
theorem HasGroup.withRange {e : Expr} {a b c d gap : Cursor} (h : HasGroup e.leaves c d gap)
    (hac : a ≤ c) (hdb : d ≤ b) : HasGroup (e.withRange (a.rangeTo b)).leaves a b gap := by
  obtain hleaves | hleaves := leaves_withRange (a.rangeTo b) e
  · rw [hleaves]
    exact h.mono hac hdb (List.Subset.refl _)
  · obtain ⟨inner, p, q, hgroup, hstart, hstop, -⟩ := h
    have hap := le_trans hac hstart
    have hqb := le_trans hstop hdb
    rw [hleaves]
    refine ⟨inner, p, q, hgroup, hap, hqb, ?_⟩
    intro range name hvar
    refine ⟨_, List.mem_singleton_self _, ?_⟩
    rw [range_withRange]
    exact Cursor.isIn_rangeTo hap hqb

theorem previous_sign_ne {a : Cursor} (h : a.isNegation = true) :
    (a.skip 1).previous ≠ some '(' := by
  obtain ⟨d, s, hrest, -⟩ := Cursor.exists_of_isNegation h
  have hpeek : a.peek? = some '-' := by
    rw [Cursor.peek?, hrest]
    rfl
  rw [Cursor.previous_skip_one hpeek]
  decide

mutual

/-- Where an expression passes blanks and comments behind an opening parenthesis, it has a
group. -/
theorem Traced.hasGroup {level : Level} {e : Expr} {a b gap : Cursor} {gaps : List Cursor}
    (hgap : gap ∈ gaps) (hprevious : gap.previous = some '(') :
    e.Traced level a b gaps → HasGroup e.leaves a b gap
  | .leaf _ => absurd hgap List.not_mem_nil
  | .group hopen h hclose => by
    rcases List.mem_cons.mp hgap with rfl | hgap
    · refine ⟨_, a, b, ⟨hopen, rfl, _, h.stands, hclose⟩, le_refl a, le_refl b, ?_⟩
      rintro range name rfl
      exact ⟨_, List.mem_singleton_self _, Nat.le_refl _, Nat.le_refl _⟩
    rcases List.mem_append.mp hgap with hgap | hgap
    · exact (h.hasGroup hgap hprevious).withRange
        (le_trans (a.le_skip 1) (Cursor.le_skipTrivia _)) hclose.le
    · rw [List.mem_singleton.mp hgap] at hprevious
      exact absurd hprevious h.stands.previous_ne
  | .primary _ h | .factor h | .product h | .sum h => h.hasGroup hgap hprevious
  | .negate hsign h => by
    rcases List.mem_cons.mp hgap with rfl | hgap
    · exact absurd hprevious (previous_sign_ne hsign)
    · exact (h.hasGroup hgap hprevious).mono (le_trans (a.le_skip 1) (Cursor.le_skipTrivia _))
        (le_refl b) (List.Subset.refl _)
  | .multiply hleft ho hright => by
    rcases mem_gaps_of_operation hgap with hgap | rfl | rfl | hgap
    · exact (hleft.hasGroup hgap hprevious).mono (le_refl a)
        (le_trans (Cursor.le_behind_operator _) hright.stands.le) (List.subset_append_left _ _)
    · exact absurd hprevious hleft.stands.previous_ne
    · exact absurd hprevious (Cursor.previous_multiplicative_ne ho)
    · exact (hright.hasGroup hgap hprevious).mono
        (le_trans hleft.stands.le (Cursor.le_behind_operator _)) (le_refl b)
        (List.subset_append_right _ _)
  | .add hleft ho hright => by
    rcases mem_gaps_of_operation hgap with hgap | rfl | rfl | hgap
    · exact (hleft.hasGroup hgap hprevious).mono (le_refl a)
        (le_trans (Cursor.le_behind_operator _) hright.stands.le) (List.subset_append_left _ _)
    · exact absurd hprevious hleft.stands.previous_ne
    · exact absurd hprevious (Cursor.previous_additive_ne ho)
    · exact (hright.hasGroup hgap hprevious).mono
        (le_trans hleft.stands.le (Cursor.le_behind_operator _)) (le_refl b)
        (List.subset_append_right _ _)
  | .list hfirst hmore => by
    rcases List.mem_append.mp hgap with hgap | hgap
    · exact (hfirst.hasGroup hgap hprevious).mono (le_refl a) hmore.items.le
        (List.subset_append_left _ _)
    · exact (hmore.hasGroup hgap hprevious hfirst.stands.previous_ne).mono hfirst.stands.le
        (le_refl b) (List.subset_append_right _ _)

theorem TracedItems.hasGroup {items : List Expr} {a b gap : Cursor} {gaps : List Cursor}
    (hgap : gap ∈ gaps) (hprevious : gap.previous = some '(') (ha : a.previous ≠ some '(') :
    TracedItems items a b gaps → HasGroup (leavesIn items) a b gap
  | .nil => absurd hgap List.not_mem_nil
  | .cons _ _ hitem hitems => by
    rcases List.mem_cons.mp hgap with rfl | hgap
    · exact absurd hprevious ha
    rcases List.mem_append.mp hgap with hgap | hgap
    · exact (hitem.hasGroup hgap hprevious).mono (Cursor.le_skipTrivia a) hitems.items.le
        (List.subset_append_left _ _)
    · exact (hitems.hasGroup hgap hprevious hitem.stands.previous_ne).mono
        (le_trans (Cursor.le_skipTrivia a) hitem.stands.le) (le_refl b)
        (List.subset_append_right _ _)

end

end Expr

end Stylesheet
