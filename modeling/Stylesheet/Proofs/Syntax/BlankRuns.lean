import Stylesheet.Proofs.Syntax.Arrival
import Stylesheet.Proofs.Syntax.Gaps

/-!
# Runs of blanks and comments in their place

A run of spaces between two lexemes, and the text with a block comment in its place. Both are
passed, and what is behind them is come to at the same offset. What has been passed last is not the
same: a slash closes the comment, and a minus behind it has no blank in front of it.
-/

namespace Stylesheet

namespace Lexeme

/-- A block comment around a text. -/
def blockComment (text : List Char) : List Char := '/' :: '*' :: (text ++ ['*', '/'])

theorem isTrivia_blockComment {text : List Char} (h : ¬['*', '/'] <:+: text) :
    IsTrivia (blockComment text) :=
  .blockComment h .nil

theorem getLast?_blockComment (text : List Char) : (blockComment text).getLast? = some '/' := by
  have hparts : blockComment text = ('/' :: '*' :: (text ++ ['*'])) ++ ['/'] := by
    simp [blockComment]
  rw [hparts, List.getLast?_concat]

theorem IsTrivia.cons_cases {x : Char} {s : List Char} (h : IsTrivia (x :: s)) :
    Text.isBlank x = true ∨ x = '/' := by
  cases h with
  | blank hx _ => exact .inl hx
  | lineComment | blockComment => exact .inr rfl

end Lexeme

open Lexeme (blockComment)

namespace Cursor

variable {a b : Cursor} {s : List Char}

theorem previous_skip (c : Cursor) (n : Nat) :
    (c.skip n).previous = ((c.rest.take n).getLast?).or c.previous := by
  fun_induction skip c n with
  | case1 => simp
  | case2 c n h => simp [h]
  | case3 c n d s h ih => rw [ih, h, List.take_succ_cons, List.getLast?_cons]; simp

theorem exists_peek?_of_multiplicative? {operator : Operator}
    (h : a.multiplicative? = some operator) : ∃ x, a.peek? = some x := by
  cases hpeek : a.peek? with
  | none => simp [multiplicative?, hpeek] at h
  | some x => exact ⟨x, rfl⟩

theorem exists_peek?_of_additive? {operator : Operator} (h : a.additive? = some operator) :
    ∃ x, a.peek? = some x := by
  cases hpeek : a.peek? with
  | none => simp [additive?, hpeek] at h
  | some x => exact ⟨x, rfl⟩

/-- What a cursor has passed from the start of a text, with the last character of it. -/
theorem exists_passed (h : start s ≤ a) :
    ∃ front, s = front ++ a.rest ∧ a.offset = Text.byteLength front ∧
      a.previous = front.getLast? := by
  obtain ⟨n, rfl⟩ := h
  refine ⟨s.take n, ?_, ?_, ?_⟩
  · rw [rest_skip]
    exact (List.take_append_drop n s).symm
  · rw [offset_skip]
    exact Nat.zero_add _
  · rw [previous_skip]
    exact Option.or_none

end Cursor

open Cursor (Meets Twins)

/-- A run of spaces that is passed as blanks in an accepted text. -/
structure BlankRun (source : String) where
  /-- Where the blanks and comments start that the run is one of. -/
  gap : Cursor
  /-- The blanks and comments in front of the run. -/
  lead : List Char
  length : Nat
  /-- The text in front of the run. -/
  front : List Char
  /-- The text behind the run. -/
  back : List Char
  isGap : gap.IsGap source
  isTrivia : Lexeme.IsTrivia lead
  rest_eq : gap.rest = lead ++ (List.replicate length ' ' ++ back)
  source_eq : source.toList = front ++ (List.replicate length ' ' ++ back)

namespace BlankRun

variable {source : String}

/-- The offset behind a run. -/
def stop (run : BlankRun source) : Nat := Text.byteLength run.front + run.length

/-- The text with a block comment in place of a run. -/
def commented (run : BlankRun source) (text : List Char) : String :=
  String.ofList (run.front ++ (blockComment text ++ run.back))

/-- Whether a block comment can take the place of a run without another meaning for a sign right in
front of it. -/
structure Admits (run : BlankRun source) (text : List Char) : Prop where
  isInside : ¬['*', '/'] <:+: text
  length_eq : Text.byteLength (blockComment text) = run.length
  /-- With a blank in front of it, a minus is an operator only if there is one behind it as well. -/
  minus : run.lead = [] → ∀ x, Text.isBlank x = true → ¬[x, '-'] <:+ run.front
  /-- With the slash of a comment behind it, a slash starts a line comment. -/
  slash : run.lead = [] → ¬['/'] <:+ run.front

/-- The text from a run on. -/
def near (run : BlankRun source) : List Char := List.replicate run.length ' ' ++ run.back

/-- The text from a comment in place of a run on. -/
def overlaid (run : BlankRun source) (text : List Char) : List Char := blockComment text ++ run.back

variable {run : BlankRun source} {text : List Char} {a a' b b' : Cursor} {x : Char}

/-! ## Sizes -/

theorem Admits.length_pos (h : run.Admits text) : 0 < run.length := by
  rw [← h.length_eq, blockComment, Text.byteLength_cons]
  exact Nat.add_pos_left (Char.utf8Size_pos _) _

theorem Admits.head?_near (h : run.Admits text) : run.near.head? = some ' ' := by
  obtain ⟨n, hn⟩ := Nat.exists_eq_succ_of_ne_zero (Nat.ne_of_gt h.length_pos)
  rw [near, hn]
  rfl

theorem size_gap (run : BlankRun source) : run.gap.size = run.lead.length + run.near.length := by
  rw [Cursor.size, run.rest_eq, List.length_append, near]

theorem le_size (h : a ≤ run.gap) : run.near.length ≤ a.size := by
  have hsize := Cursor.size_le h
  have hgap := run.size_gap
  omega

theorem lt_size (h : a < run.gap) : run.near.length < a.size := by
  have hsize := Cursor.size_lt_of_lt h
  have hgap := run.size_gap
  omega

/-- Up to a gap there is more than a run if something else stands there first. -/
theorem Admits.lt_size_of_peek? (hadmits : run.Admits text) (h : a ≤ run.gap)
    (hpeek : a.peek? = some x) (hx : x ≠ ' ') : run.near.length < a.size := by
  refine Nat.lt_of_le_of_ne (le_size h) fun hsize => hx ?_
  obtain ⟨between, hrest, -⟩ := Cursor.exists_between h
  rw [run.rest_eq, ← List.append_assoc] at hrest
  have hlength := congrArg List.length hrest
  rw [List.length_append, ← near] at hlength
  rw [Cursor.size] at hsize
  have hnil : between ++ run.lead = [] := List.length_eq_zero_iff.mp (by omega)
  rw [hnil, List.nil_append] at hrest
  rw [Cursor.peek?, hrest, ← near, hadmits.head?_near] at hpeek
  exact (Option.some.inj hpeek).symm

/-- What stands at a gap is a blank or a comment. -/
theorem Admits.exists_rest_gap (h : run.Admits text) :
    ∃ x t, run.gap.rest = x :: t ∧ (Text.isBlank x = true ∨ x = '/') := by
  have hrest := run.rest_eq
  cases hlead : run.lead with
  | nil =>
    obtain ⟨t, ht⟩ := List.head?_eq_some_iff.mp h.head?_near
    rw [hlead, List.nil_append, ← near, ht] at hrest
    exact ⟨' ', t, hrest, .inl (by decide)⟩
  | cons x t =>
    rw [hlead] at hrest
    exact ⟨x, _, hrest, (hlead ▸ run.isTrivia).cons_cases⟩

/-! ## In front of a run -/

/-- What stands in front of a run, from a cursor in front of it on. -/
theorem exists_front {u : List Char} (hstart : Cursor.start source.toList ≤ a)
    (hrest : a.rest = u ++ run.near) : ∃ front, run.front = front ++ u ∧
      a.offset = Text.byteLength front ∧ a.previous = front.getLast? := by
  obtain ⟨front, hfront, hoffset, hprevious⟩ := Cursor.exists_passed hstart
  have hsource := run.source_eq
  rw [hfront, hrest, ← List.append_assoc] at hsource
  exact ⟨front, (List.append_cancel_right hsource).symm, hoffset, hprevious⟩

theorem twins_start (hadmits : run.Admits text) : Twins run.near (run.overlaid text)
    (Cursor.start source.toList) (Cursor.start (run.commented text).toList) := by
  refine ⟨rfl, rfl, run.front, run.source_eq, ?_, .inr (.inr ⟨?_, '/', rfl, ?_⟩)⟩
  · simp [commented, overlaid, Cursor.start]
  · have hhead := hadmits.head?_near
    intro hnil
    simp [hnil] at hhead
  · exact ⟨by rw [Lexeme.isIdentChar_eq (by decide)]; decide, by decide, by decide, by decide⟩

/-! ## Across a run -/

/-- Behind a run or the comment in its place, the same text is left at the same offset. -/
theorem exists_behind (hadmits : run.Admits text) (hgap : run.gap = a)
    (htwins : Twins run.near (run.overlaid text) a a') :
    ∃ behind behind', a.skipTrivia = behind.skipTrivia ∧ a'.skipTrivia = behind'.skipTrivia ∧
      Meets 0 behind behind' ∧ behind.rest = run.back ∧ behind.offset = run.stop ∧
        behind'.previous = some '/' := by
  subst hgap
  obtain ⟨u, hrest, hrest', -⟩ := htwins.rest
  obtain rfl : run.lead = u := List.append_cancel_right (run.rest_eq.symm.trans hrest)
  rw [near, ← List.append_assoc] at hrest
  rw [overlaid, ← List.append_assoc] at hrest'
  obtain ⟨front, hfront, hoffset, -⟩ := exists_front run.isGap.start_le run.rest_eq
  have hlength : Text.byteLength (List.replicate run.length ' ') = run.length := by
    induction run.length with
    | zero => rfl
    | succ n ih =>
      rw [List.replicate_succ, Text.byteLength_cons, ih, Nat.add_comm]
      rfl
  refine ⟨_, _, Cursor.skipTrivia_of_append hrest
      (run.isTrivia.append (Lexeme.isTrivia_replicate_blank _)),
    Cursor.skipTrivia_of_append hrest'
      (run.isTrivia.append (Lexeme.isTrivia_blockComment hadmits.isInside)), ⟨?_, ?_⟩, ?_, ?_, ?_⟩
  · rw [Cursor.offset_skip, Cursor.offset_skip, hrest, hrest', List.take_left, List.take_left,
      htwins.offset, Text.byteLength_append, Text.byteLength_append, hadmits.length_eq, hlength,
      Nat.add_zero]
  · rw [Cursor.rest_skip, Cursor.rest_skip, hrest, hrest', List.drop_left, List.drop_left]
  · rw [Cursor.rest_skip, hrest, List.drop_left]
  · rw [Cursor.offset_skip, hrest, List.take_left, Text.byteLength_append, hlength, hoffset, stop,
      hfront, Text.byteLength_append, Nat.add_assoc]
  · rw [Cursor.previous_skip, hrest', List.take_left, List.getLast?_append,
      Lexeme.getLast?_blockComment]
    rfl

theorem meets (hadmits : run.Admits text) (hgap : run.gap = a)
    (htwins : Twins run.near (run.overlaid text) a a') : Meets 0 a.skipTrivia a'.skipTrivia := by
  obtain ⟨behind, behind', h, h', hmeets, -⟩ := exists_behind hadmits hgap htwins
  rw [h, h']
  exact hmeets.skipTrivia

/-- If nothing is passed behind a run, a slash is what is passed last in the other text. -/
theorem skipTrivia_cases (hadmits : run.Admits text) (hgap : run.gap = a)
    (htwins : Twins run.near (run.overlaid text) a a') : a'.skipTrivia = a.skipTrivia ∨
      a.skipTrivia.rest = run.back ∧ a.skipTrivia.offset = run.stop ∧
        a'.skipTrivia.previous = some '/' := by
  obtain ⟨behind, behind', h, h', hmeets, hback, hstop, hslash⟩ :=
    exists_behind hadmits hgap htwins
  rw [h, h']
  by_cases hsolid : Lexeme.IsSolid run.back
  · rw [← hback] at hsolid
    rw [Cursor.skipTrivia_eq_self hsolid,
      Cursor.skipTrivia_eq_self (hmeets.rest.symm ▸ hsolid)]
    exact .inr ⟨hback, hstop, hslash⟩
  · refine .inl ?_
    rw [Cursor.skipTrivia, Cursor.skipTrivia, hmeets.rest, hback]
    refine hmeets.skip_eq (Nat.pos_of_ne_zero hsolid) ?_
    rw [hback]
    rintro hnil
    exact hsolid (hnil ▸ Lexeme.isSolid_nil)

/-- An operator behind a run is one behind a comment. -/
theorem additive?_behind {operator : Operator} (hadmits : run.Admits text) (hgap : run.gap = a)
    (htwins : Twins run.near (run.overlaid text) a a')
    (ho : a.skipTrivia.additive? = some operator) :
    a'.skipTrivia.additive? = some operator := by
  have hmeets := meets hadmits hgap htwins
  obtain heq | ⟨-, -, hslash⟩ := skipTrivia_cases hadmits hgap htwins
  · rwa [heq]
  · rw [Cursor.additive?] at ho ⊢
    rw [hmeets.peek?]
    split at ho
    · exact ho
    · rw [if_pos (by rw [Cursor.isBinaryMinus, hslash]; simp [Text.isBlank])]
      split at ho
      · exact ho
      · contradiction
    · contradiction

/-- A minus behind a run that starts an item of a list is an operator behind a comment. Any other
item is one there as well. -/
theorem additive?_behind_eq_none (hadmits : run.Admits text) (hgap : run.gap = a)
    (htwins : Twins run.near (run.overlaid text) a a') (hopens : Opens a.skipTrivia.rest)
    (ho : a.skipTrivia.additive? = none)
    (hminus : run.back.head? = some '-' → a.skipTrivia.offset ≠ run.stop) :
    a'.skipTrivia.additive? = none := by
  have hmeets := meets hadmits hgap htwins
  obtain heq | ⟨hback, hstop, -⟩ := skipTrivia_cases hadmits hgap htwins
  · rwa [heq]
  · rw [Cursor.additive?_eq_none_iff (hmeets.rest.symm ▸ hopens), hmeets.peek?, Cursor.peek?, hback]
    exact fun hpeek => absurd hstop (hminus hpeek)

/-! ## Right in front of a run -/

/-- A sign with a gap right behind it is the same sign if a comment stands there. -/
theorem twins_sign (hadmits : run.Admits text) (hstart : Cursor.start source.toList ≤ b)
    (htwins : Twins run.near (run.overlaid text) b b') (hpeek : b.skipTrivia.peek? = some x)
    (hgap : run.gap = b.skipTrivia.skip 1) :
    Twins run.near (run.overlaid text) b.skipTrivia b'.skipTrivia ∧
      run.near.length < b.skipTrivia.size ∧ (run.near.length + 1 < b.skipTrivia.size ∨
        ∃ front, run.front = front ++ [x] ∧ b.skipTrivia.previous = front.getLast? ∧
          run.lead = []) := by
  have hsize : b.skipTrivia.size = run.gap.size + 1 := by
    rw [Cursor.size, Cursor.rest_of_peek? hpeek, List.length_cons, hgap, Cursor.size]
  rw [run.size_gap] at hsize
  have hbeside : run.near.length + 1 < b.skipTrivia.size ∨
      ∃ front, run.front = front ++ [x] ∧ b.skipTrivia.previous = front.getLast? ∧
        run.lead = [] := by
    by_cases hlead : run.lead = []
    · have hrest := Cursor.rest_of_peek? hpeek
      rw [← hgap, run.rest_eq, hlead, List.nil_append, ← near] at hrest
      obtain ⟨front, hfront, -, hprevious⟩ :=
        exists_front (u := [x]) (le_trans hstart (Cursor.le_skipTrivia _)) hrest
      exact .inr ⟨front, hfront, hprevious, hlead⟩
    · have hpos := List.length_pos_iff.mpr hlead
      exact .inl (by omega)
  refine ⟨htwins.skipTrivia (by omega) fun hslash => ?_, by omega, hbeside⟩
  obtain hlt | ⟨front, hfront, -, hlead⟩ := hbeside
  · exact hlt
  · obtain rfl : x = '/' := Option.some.inj (hpeek.symm.trans hslash)
    exact absurd ⟨front, hfront.symm⟩ (hadmits.slash hlead)

theorem multiplicative?_sign {operator : Operator} (hadmits : run.Admits text)
    (hstart : Cursor.start source.toList ≤ b) (htwins : Twins run.near (run.overlaid text) b b')
    (ho : b.skipTrivia.multiplicative? = some operator) (hgap : run.gap = b.skipTrivia.skip 1) :
    b'.skipTrivia.multiplicative? = some operator := by
  obtain ⟨x, hpeek⟩ := Cursor.exists_peek?_of_multiplicative? ho
  obtain ⟨hsign, hlt, -⟩ := twins_sign hadmits hstart htwins hpeek hgap
  rwa [hsign.multiplicative? hlt]

theorem additive?_sign {operator : Operator} (hadmits : run.Admits text)
    (hstart : Cursor.start source.toList ≤ b) (htwins : Twins run.near (run.overlaid text) b b')
    (ho : b.skipTrivia.additive? = some operator) (hgap : run.gap = b.skipTrivia.skip 1) :
    b'.skipTrivia.additive? = some operator := by
  obtain ⟨x, hpeek⟩ := Cursor.exists_peek?_of_additive? ho
  obtain ⟨hsign, hlt, hlt' | ⟨front, hfront, hprevious, hlead⟩⟩ :=
    twins_sign hadmits hstart htwins hpeek hgap
  · rwa [hsign.additive? hlt']
  · -- the blank behind the minus decides only if there is one in front of it
    rw [Cursor.additive?] at ho ⊢
    rw [hsign.peek? hlt]
    split at ho
    · exact ho
    · rename_i hminus
      obtain rfl : x = '-' := Option.some.inj (hpeek.symm.trans hminus)
      have hblank : b'.skipTrivia.previous.any Text.isBlank = false := by
        rw [hsign.previous, hprevious, Bool.eq_false_iff]
        intro hany
        obtain ⟨y, hy, hblank⟩ := (Option.any_eq_true _ _).mp hany
        obtain ⟨f, rfl⟩ := List.getLast?_eq_some_iff.mp hy
        exact hadmits.minus hlead y hblank ⟨f, by rw [hfront]; simp⟩
      rw [if_pos (by rw [Cursor.isBinaryMinus, hblank]; simp)]
      split at ho
      · exact ho
      · contradiction
    · contradiction

end BlankRun

end Stylesheet
