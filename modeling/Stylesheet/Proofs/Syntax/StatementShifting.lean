import Stylesheet.Proofs.Syntax.ExpressionShifting

/-!
# The same stylesheet elsewhere

What the parser makes of statements does not depend on where they stand (`statements_shifts`), nor
on the characters in front of them (`statements_meets`).
-/

namespace Stylesheet

namespace Cursor

variable {n : Nat} {c c' : Cursor} {isBlock : Bool}

/-! ## Statements without a body -/

theorem assignment_shifts (h : Meets n c c') :
    Shifts n (Statement.mapRange (Range.shift n)) c.assignment c'.assignment := by
  rw [assignment, assignment]
  refine (ident_shifts (h.skip 1) _).bind fun name afterName _ _ => ?_
  refine (expect_shifts (meets_shift n afterName) ':').bind fun _ afterColon _ _ => ?_
  refine (expr_shifts (meets_shift n afterColon)).bind fun value afterValue _ _ => ?_
  refine (expect_shifts (meets_shift n afterValue) ';').bind fun _ next _ _ => ⟨?_, rfl⟩
  simp only [h.offset, Expr.range_mapRange]
  rfl

theorem message_shifts (n start : Nat) (c : Cursor) :
    Shifts n (fun message => (message.1.shift n, message.2.mapRange (Range.shift n)))
      (c.message start) ((c.shift n).message (start + n)) := by
  rw [message, message]
  refine (expr_shifts (meets_shift n c)).bind fun value afterValue _ _ => ?_
  refine (expect_shifts (meets_shift n afterValue) ';').bind fun _ next _ _ => ⟨?_, rfl⟩
  simp only [Expr.range_mapRange]
  rfl

theorem mixinName_shifts (n : Nat) (c : Cursor) :
    Shifts n (fun name => (name.1, name.2 + n)) c.mixinName (c.shift n).mixinName := by
  rw [mixinName, mixinName]
  exact (ident_shifts (meets_shift n c).skipTrivia _).bind fun name next _ _ => ⟨rfl, rfl⟩

theorem inclusion_shifts (n start : Nat) (c : Cursor) :
    Shifts n (Statement.mapRange (Range.shift n)) (c.inclusion start)
      ((c.shift n).inclusion (start + n)) := by
  rw [inclusion, inclusion]
  refine (mixinName_shifts n c).bind fun name afterName _ _ => ?_
  exact (expect_shifts (meets_shift n afterName) ';').bind fun _ next _ _ => ⟨rfl, rfl⟩

theorem declarationEnd_shifts (n : Nat) (c : Cursor) :
    Shifts n id c.declarationEnd (c.shift n).declarationEnd := by
  have hmeets := (meets_shift n c).skipTrivia
  rw [declarationEnd, declarationEnd, hmeets.peek?]
  split
  · exact ⟨rfl, skipTrivia_shift n c⟩
  · exact (expect_shifts hmeets ';').bind fun _ next _ _ => ⟨rfl, rfl⟩

theorem declaration_shifts (h : Meets n c c') :
    Shifts n (Statement.mapRange (Range.shift n)) c.declaration c'.declaration := by
  rw [declaration, declaration]
  refine (ident_shifts h _).bind fun name afterName _ _ => ?_
  refine (expect_shifts (meets_shift n afterName) ':').bind fun _ afterColon _ _ => ?_
  refine (expr_shifts (meets_shift n afterColon)).bind fun value afterValue _ _ => ?_
  refine (declarationEnd_shifts n afterValue).bind fun _ next _ _ => ⟨?_, rfl⟩
  simp only [h.offset, Expr.range_mapRange]
  rfl

/-! ## Heads of statements with a body -/

theorem mixinHead_shifts (n : Nat) (c : Cursor) :
    Shifts n id c.mixinHead (c.shift n).mixinHead := by
  rw [mixinHead, mixinHead]
  refine (mixinName_shifts n c).bind fun name afterName _ _ => ?_
  exact (expect_shifts (meets_shift n afterName) '{').bind fun _ next _ _ => ⟨rfl, rfl⟩

theorem ruleHead_shifts (h : Meets n c c') : Shifts n id c.ruleHead c'.ruleHead := by
  obtain ⟨previous, rfl⟩ := h.exists_eq
  have hbrace := h.skip (Lexeme.head c.rest).length
  rw [ruleHead, ruleHead]
  dsimp only
  by_cases hpeek : (c.skip (Lexeme.head c.rest).length).peek? = some '{'
  · rw [dif_pos hpeek, dif_pos (hbrace.peek?.trans hpeek)]
    split
    · exact h.error _
    · exact ⟨rfl, hbrace.skip_of_pos Nat.one_pos (rest_ne_nil_of_peek? hpeek)⟩
  · rw [dif_neg hpeek, dif_neg (hbrace.peek? ▸ hpeek)]
    exact hbrace.error _

/-! ## Statements and blocks -/

theorem statements_of_end (h : ¬∃ x, c.skipTrivia.peek? = some x ∧ x ≠ '\x7d') :
    c.statements isBlock = .ok ⟨[], c.skipTrivia, c.size_skipTrivia_lt⟩ := by
  rw [statements]
  split
  · rfl
  · rfl
  · rename_i x hx hpeek
    exact absurd ⟨x, hpeek, fun heq => hx (by rw [heq])⟩ h

theorem statements_shifts_of_more {x : Char} (hpeek : c.skipTrivia.peek? = some x)
    (hx : x ≠ '\x7d') (h : Meets n c.skipTrivia c'.skipTrivia)
    (hfirst : Shifts n (Statement.mapRange (Range.shift n)) (c.skipTrivia.statement isBlock)
      (c'.skipTrivia.statement isBlock))
    (hmore : ∀ next : Cursor, next.size < c.skipTrivia.size →
      Shifts n (Statement.mapRanges (Range.shift n)) (next.statements isBlock)
        ((next.shift n).statements isBlock)) :
    Shifts n (Statement.mapRanges (Range.shift n)) (c.statements isBlock)
      (c'.statements isBlock) := by
  rw [statements.eq_def isBlock c, statements.eq_def isBlock c']
  simp only [hpeek, h.peek?]
  refine hfirst.bind fun first next hlt _ => ?_
  exact (hmore next hlt).bind fun more last _ _ => ⟨rfl, rfl⟩

mutual

theorem statements_shifts (n : Nat) (isBlock : Bool) (c : Cursor) :
    Shifts n (Statement.mapRanges (Range.shift n)) (c.statements isBlock)
      ((c.shift n).statements isBlock) := by
  have hsize := c.size_skipTrivia_le
  have hmeets := (meets_shift n c).skipTrivia
  by_cases hmore : ∃ x, c.skipTrivia.peek? = some x ∧ x ≠ '\x7d'
  · obtain ⟨x, hpeek, hx⟩ := hmore
    exact statements_shifts_of_more hpeek hx hmeets (statement_shifts isBlock hmeets)
      fun next hlt => statements_shifts n isBlock next
  · rw [statements_of_end hmore, statements_of_end (hmeets.peek? ▸ hmore)]
    exact ⟨rfl, skipTrivia_shift n c⟩
termination_by (c.size, 2)
decreasing_by
  · exact Prod.Lex.right' _ hsize (by omega)
  · exact Prod.Lex.left _ _ (by omega)

theorem block_shifts (n : Nat) (c : Cursor) :
    Shifts n (Statement.mapRanges (Range.shift n)) c.block (c.shift n).block := by
  rw [block.eq_def c, block.eq_def (c.shift n)]
  refine (statements_shifts n true c).bind fun body last _ _ => ?_
  exact (expect_shifts (meets_shift n last) '\x7d').bind fun _ next _ _ => ⟨rfl, rfl⟩
termination_by (c.size, 3)

theorem statement_shifts {n : Nat} {c c' : Cursor} (isBlock : Bool) (h : Meets n c c') :
    Shifts n (Statement.mapRange (Range.shift n)) (c.statement isBlock) (c'.statement isBlock) := by
  rw [statement.eq_def isBlock c, statement.eq_def isBlock c', h.peek?]
  split
  · exact h.error _
  · exact assignment_shifts h
  · refine (ident_shifts (h.skip 1) _).bind fun keyword next hlt _ => ?_
    have hsize := c.size_skip_le 1
    simp only [id_eq, h.offset]
    split
    · exact (message_shifts n c.offset next).bind fun message last _ _ => ⟨rfl, rfl⟩
    · exact (message_shifts n c.offset next).bind fun message last _ _ => ⟨rfl, rfl⟩
    · refine (mixinHead_shifts n next).bind fun name afterHead hlt' _ => ?_
      exact (block_shifts n afterHead).bind fun body last _ _ => ⟨rfl, rfl⟩
    · exact (inclusion_shifts n c.offset next).bind fun statement last _ _ => ⟨rfl, rfl⟩
    · exact rfl
  · rw [h.rest]
    split
    · exact declaration_shifts h
    · refine (ruleHead_shifts h).bind fun selector afterHead hlt _ => ?_
      refine (block_shifts n afterHead).bind fun body last _ _ => ⟨?_, rfl⟩
      simp only [h.offset]
      rfl
termination_by (c.size, 1)

end

/-! ## What stands in front of statements -/

/-- Statements with others in front of them, elsewhere: one parser fails where another does, or they
succeed and end in front of the same text. -/
def ShiftsBehind (n : Nat) (front : List Statement) {k k' : Nat} (p : Parse (List Statement) k)
    (p' : Parse (List Statement) k') : Prop :=
  match p, p' with
  | .ok parsed, .ok parsed' =>
    parsed'.value = front ++ Statement.mapRanges (Range.shift n) parsed.value ∧
      Meets n parsed.next parsed'.next
  | .error error, .error error' => error' = error.shift n
  | _, _ => False

/-- Two cursors that come to the same text behind blanks and comments find the same statements,
whatever they have passed. -/
theorem statements_meets (isBlock : Bool) (h : Meets n c.skipTrivia c'.skipTrivia) :
    ShiftsBehind n [] (c.statements isBlock) (c'.statements isBlock) := by
  by_cases hmore : ∃ x, c.skipTrivia.peek? = some x ∧ x ≠ '\x7d'
  · obtain ⟨x, hpeek, hx⟩ := hmore
    have hshifts := statements_shifts_of_more hpeek hx h (statement_shifts isBlock h)
      fun next _ => statements_shifts n isBlock next
    revert hshifts
    generalize c.statements isBlock = p, c'.statements isBlock = p'
    intro hshifts
    match p, p', hshifts with
    | .ok parsed, .ok parsed', hshifts => exact ⟨hshifts.1, hshifts.2 ▸ meets_shift n _⟩
    | .error error, .error error', hshifts => exact hshifts
  · rw [statements_of_end hmore, statements_of_end (h.peek? ▸ hmore)]
    exact ⟨rfl, h⟩

/-- A statement in front of statements. -/
theorem ShiftsBehind.cons {m : Nat} {first : Statement} {front : List Statement} {x : Char}
    {next : Cursor} {p : Parse (List Statement) m} (hpeek : c.skipTrivia.peek? = some x)
    (hx : x ≠ '\x7d')
    (hfirst : ∃ nearer, c.skipTrivia.statement isBlock = .ok ⟨first, next, nearer⟩)
    (h : ShiftsBehind n front p (next.statements isBlock)) :
    ShiftsBehind n (first :: front) p (c.statements isBlock) := by
  obtain ⟨nearer, hfirst⟩ := hfirst
  rw [statements.eq_def isBlock c]
  simp only [hpeek, hfirst, bind, Except.bind]
  revert h
  generalize next.statements isBlock = p'
  intro h
  cases p with
  | ok parsed =>
    cases p' with
    | ok parsed' => exact ⟨congrArg (first :: ·) h.1, h.2⟩
    | error error' => exact h
  | error error =>
    cases p' with
    | ok parsed' => exact h
    | error error' => exact h

end Cursor

end Stylesheet
