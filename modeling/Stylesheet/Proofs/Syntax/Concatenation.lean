import Stylesheet.Proofs.Syntax.Gaps
import Stylesheet.Proofs.Syntax.OwnText
import Stylesheet.Proofs.Syntax.StatementLocality
import Stylesheet.Proofs.Syntax.StatementShifting

/-!
# A stylesheet behind another

Text that is appended to an accepted text changes nothing of how this was read, and is read as it
would be by itself (`parse_append`). The text in front has to be read to its end, so it must not end
inside a comment, which would go on into the text behind it.
-/

namespace Stylesheet

namespace Lexeme

/-- A text without a slash does not end inside a comment. -/
theorem EndsInComment.slash_mem {s : List Char} (h : EndsInComment s) : '/' ∈ s := by
  obtain ⟨lead, tail, rfl, -, htail⟩ := h
  cases htail <;> simp

end Lexeme

namespace Cursor

variable {a b c d : Cursor} {x : Char}

/-- The same place of a text with more behind it. -/
def extend (more : List Char) (a : Cursor) : Cursor := { a with rest := a.rest ++ more }

theorem start_extend (s more : List Char) : (start s).extend more = start (s ++ more) := rfl

/-- The character that is passed last stands right in front of the next cursor. -/
theorem Passes.exists_last (hle : a ≤ c) (h : c.Passes x d) : ∃ u, a.rest = u ++ x :: d.rest := by
  obtain ⟨hpeek, rfl⟩ := h
  obtain ⟨text, hrest, -⟩ := exists_between (le_trans hle c.le_skipTrivia)
  exact ⟨text, by rw [hrest, rest_of_peek? hpeek]⟩

/-- Behind a semicolon or a closing brace, more text can follow. -/
theorem twins_extend {u : List Char} (hrest : a.rest = u ++ x :: b.rest) (hx : x = ';' ∨ x = '\x7d')
    (more : List Char) : Twins b.rest (b.rest ++ more) a (a.extend more) := by
  refine ⟨rfl, rfl, u ++ [x], ?_, ?_, .inr (.inl ⟨x, by simp, hx⟩)⟩
  · simp [hrest]
  · simp [extend, hrest]

/-- At the place itself nothing is left in front of the rest of the text. -/
theorem Twins.eq_extend {more : List Char} (h : Twins b.rest (b.rest ++ more) b c) :
    c = b.extend more := by
  obtain ⟨u, hu, hu', -⟩ := h.rest
  obtain rfl : u = [] := List.self_eq_append_left.mp hu
  obtain ⟨offset, previous, rest⟩ := c
  obtain rfl : offset = b.offset := h.offset
  obtain rfl : previous = b.previous := h.previous
  obtain rfl : rest = b.rest ++ more := hu'
  rfl

end Cursor

namespace Statement

open Cursor (Twins)

/-- A statement outside of blocks ends with a semicolon or a closing brace. -/
theorem Stands.exists_last {s : Statement} {a b : Cursor} (h : s.Stands false a b) :
    ∃ u x, a.rest = u ++ x :: b.rest ∧ (x = ';' ∨ x = '\x7d') := by
  have of_semicolon {c : Cursor} (hle : a ≤ c) (hend : c.Passes ';' b) :
      ∃ u x, a.rest = u ++ x :: b.rest ∧ (x = ';' ∨ x = '\x7d') :=
    (hend.exists_last hle).imp fun _ hu => ⟨_, hu, .inl rfl⟩
  have of_brace {c : Cursor} (hle : a ≤ c) (hend : c.Passes '\x7d' b) :
      ∃ u x, a.rest = u ++ x :: b.rest ∧ (x = ';' ∨ x = '\x7d') :=
    (hend.exists_last hle).imp fun _ hu => ⟨_, hu, .inr rfl⟩
  cases h with
  | assign _ hname hcolon hvalue hend =>
    exact of_semicolon (le_trans (le_trans (a.le_skip 1) hname.le)
      (le_trans hcolon.le (le_trans (Cursor.le_skipTrivia _) hvalue.le))) hend
  | warn hat hvalue hend | debug hat hvalue hend =>
    exact of_semicolon (le_trans hat.le (le_trans (Cursor.le_skipTrivia _) hvalue.le)) hend
  | defineMixin hat hname hopen hbody hclose =>
    exact of_brace (le_trans (le_trans hat.le (Cursor.le_skipTrivia _))
      (le_trans hname.le (le_trans hopen.le hbody.le))) hclose
  | includeMixin hat hname hend =>
    exact of_semicolon (le_trans hat.le (le_trans (Cursor.le_skipTrivia _) hname.le)) hend
  | rule _ _ _ hopen hbody hclose => exact of_brace (le_trans hopen.le hbody.le) hclose

/-- A statement outside of blocks stands where it does whatever follows it. -/
theorem Stands.extend {s : Statement} {a b : Cursor} (h : s.Stands false a.skipTrivia b)
    (more : List Char) : s.Stands false (a.extend more).skipTrivia (b.extend more) ∧
      (a.extend more).skipTrivia.peek? = a.skipTrivia.peek? := by
  have hsize := h.size_lt
  obtain ⟨u, x, hrest, hx⟩ := h.exists_last
  obtain ⟨lead, hlead, -⟩ := Cursor.exists_between a.le_skipTrivia
  rw [hrest, ← List.append_assoc] at hlead
  have htwins := (Cursor.twins_extend hlead hx more).skipTrivia (Nat.lt_of_succ_lt hsize)
    fun _ => hsize
  obtain ⟨b', h', hb⟩ := h.twins htwins (le_refl _) (by simp)
  exact ⟨hb.eq_extend ▸ h', htwins.peek? (Nat.lt_of_succ_lt hsize)⟩

end Statement

namespace Cursor

/-- Behind the blanks and comments at the end of a text, the text that follows it is read from its
own start. -/
theorem meets_behind {a : Cursor} (hnil : a.skipTrivia.rest = [])
    (hend : ¬Lexeme.EndsInComment a.rest) (more : List Char) :
    Meets a.skipTrivia.offset (start more).skipTrivia (a.extend more).skipTrivia := by
  obtain ⟨lead, rest, hrest, hlead, hsolid⟩ := (Lexeme.exists_trivia a.rest).resolve_right hend
  have hskip := skipTrivia_of_isTrivia hrest hlead hsolid
  rw [hskip, rest_skip, hrest, List.drop_left] at hnil
  subst hnil
  rw [List.append_nil] at hrest
  have hextend : (a.extend more).rest = lead ++ more := by rw [extend, hrest]
  rw [hskip, skipTrivia_of_append hextend hlead]
  refine Meets.skipTrivia ⟨?_, ?_⟩
  · rw [offset_skip, offset_skip, hextend, hrest, List.take_left, List.take_length]
    simp [start, extend]
  · rw [rest_skip, hextend, List.drop_left]
    rfl

/-- Statements up to the end of a text, with more text behind them. -/
theorem shiftsBehind_of_traced {statements : List Statement} {a b : Cursor} {gaps : List Cursor}
    (h : Statement.TracedAll false statements a b gaps) (hnil : b.rest = [])
    (hend : ∀ gap ∈ gaps, ¬Lexeme.EndsInComment gap.rest) (more : List Char) :
    ShiftsBehind b.offset statements ((start more).statements false)
      ((a.extend more).statements false) := by
  induction statements generalizing a gaps with
  | nil =>
    cases h with
    | nil _ => exact statements_meets false (meets_behind hnil (hend a (by simp)) more)
  | cons first rest ih =>
    cases h with
    | cons hmore hfirst hrest =>
      obtain ⟨hextend, hpeek⟩ := hfirst.stands.extend more
      cases hx : a.skipTrivia.peek? with
      | none => exact absurd hx hfirst.stands.peek?_ne_none
      | some x =>
        have hbehind := ih hrest fun gap hgap => hend gap (by simp [hgap])
        exact ShiftsBehind.cons (hpeek.trans hx) (fun h => hmore (h ▸ hx)) hextend.reaches hbehind

end Cursor

/-- What is made of two texts, the first of which is accepted, from what is made of the second. -/
theorem parse_append_eq {s₁ s₂ : String} {front : List Statement} (h : parse s₁ = .ok front)
    (hend : ∀ gap, Cursor.IsGap s₁ gap → ¬Lexeme.EndsInComment gap.rest) :
    parse (s₁ ++ s₂) = match parse s₂ with
      | .ok statements =>
        .ok (front ++ Statement.mapRanges (Range.shift (Text.byteLength s₁.toList)) statements)
      | .error error => .error (error.shift (Text.byteLength s₁.toList)) := by
  obtain ⟨last, hstands, hnil⟩ := parse_eq_ok_iff.mp h
  obtain ⟨gaps, htraced⟩ := hstands.exists_traced
  obtain ⟨text, htext, hoffset⟩ := Cursor.exists_front hstands.le
  rw [hnil, List.append_nil] at htext
  have hbehind := Cursor.shiftsBehind_of_traced htraced hnil
    (fun gap hgap => hend gap ⟨front, last, gaps, htraced, hnil, hgap⟩) s₂.toList
  rw [hoffset, ← htext, Cursor.start_extend, ← String.toList_append] at hbehind
  rw [parse.eq_def s₂, parse.eq_def (s₁ ++ s₂)]
  revert hbehind
  generalize (Cursor.start s₂.toList).statements false = p
  generalize (Cursor.start (s₁ ++ s₂).toList).statements false = p'
  intro hbehind
  match p, p', hbehind with
  | .error error, .error error', hbehind =>
    obtain rfl := hbehind
    rfl
  | .ok parsed, .ok parsed', ⟨hvalue, hmeets⟩ =>
    have htrivia := hmeets.skipTrivia
    simp only [bind, Except.bind, htrivia.peek?, htrivia.error, hvalue]
    cases parsed.next.skipTrivia.peek? with
    | none => rfl
    | some _ => rfl

/-- Parsing goes part by part. If a text is accepted that does not end inside a comment, then a
text behind it is read as it is by itself: its statements follow those of the text in front, and its
error is reported, with all ranges shifted by the length of the text in front. -/
theorem parse_append {s₁ s₂ : String} {front : List Statement} (h : parse s₁ = .ok front)
    (hend : ∀ gap, Cursor.IsGap s₁ gap → ¬Lexeme.EndsInComment gap.rest) :
    (∀ statements, parse s₂ = .ok statements → parse (s₁ ++ s₂) =
      .ok (front ++ Statement.mapRanges (Range.shift (Text.byteLength s₁.toList)) statements)) ∧
    ∀ error, parse s₂ = .error error →
      parse (s₁ ++ s₂) = .error (error.shift (Text.byteLength s₁.toList)) := by
  rw [parse_append_eq h hend]
  refine ⟨fun statements hstatements => ?_, fun error herror => ?_⟩
  · rw [hstatements]
  · rw [herror]

/-- A message behind itself. -/
theorem parse_append_message :
    let source := "@debug a    -b;"
    let message (n : Nat) := Statement.debug ⟨n, n + 14⟩ (.list ⟨n + 7, n + 14⟩
      [.text ⟨n + 7, n + 8⟩ "a" false, .text ⟨n + 12, n + 14⟩ "-b" false])
    parse source = .ok [message 0] ∧
      (∀ gap, Cursor.IsGap source gap → ¬Lexeme.EndsInComment gap.rest) ∧
      parse (source ++ source) = .ok [message 0, message 15] := by
  intro source message
  have hend : ∀ gap, Cursor.IsGap source gap → ¬Lexeme.EndsInComment gap.rest := by
    intro gap hgap hcomment
    obtain ⟨front, hfront, -⟩ := Cursor.exists_front hgap.start_le
    have hslash : '/' ∈ source.toList := hfront ▸ List.mem_append_right front hcomment.slash_mem
    revert hslash
    decide
  exact ⟨parse_debug_spaced, hend, (parse_append parse_debug_spaced hend).1 _ parse_debug_spaced⟩

end Stylesheet
