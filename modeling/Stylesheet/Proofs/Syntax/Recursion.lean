import Stylesheet.Proofs.Syntax.Progress

/-!
# The recursion of the parsers

The parsers solve a system of equations, each of which gives one of them by those it calls. An
equation looks at other parsers at the places that `Calls` names and nowhere else
(`Parsers.next_congr`), and no chain of calls goes on for ever. So the equations leave no choice:
whatever solves them are the parsers (`Parsers.eq_own_of_next`).
-/

namespace Stylesheet

namespace Parsed

variable {α β : Type} {bound : Nat}

theorem size_lt_of_step (first : Parsed α bound) (last : Parsed β first.next.size) :
    last.next.size < bound :=
  Nat.lt_trans last.nearer first.nearer

theorem size_lt_of_rest (first : Parsed α bound) (more : Parsed β (first.next.size + 1)) :
    more.next.size < bound :=
  Nat.lt_of_le_of_lt (Nat.le_of_lt_succ more.nearer) first.nearer

end Parsed

namespace Cursor

/-! ## Equations -/

/-- What a parser yields at a cursor. What follows the left operand of a sum or a product depends on
the operand, and what follows the keyword of a statement on where the statement starts. -/
@[reducible] def Routine.Result : Routine → Cursor → Type
  | .statements _, c => Parse (List Statement) (c.size + 1)
  | .block, c => Parse (List Statement) c.size
  | .statement _, c | .declaration, c | .rule, c => Parse Statement c.size
  | .atRule _, c => Nat → Parse Statement c.size
  | .items, c => Parse (List Expr) (c.size + 1)
  | .expr, c | .sum, c | .product, c | .factor, c | .primary, c => Parse Expr c.size
  | .sumFrom, c | .productFrom, c => Expr → Parse Expr (c.size + 1)

/-- A choice of all parsers. -/
abbrev Parsers : Type := (routine : Routine) → (c : Cursor) → routine.Result c

namespace Parsers

def own : Parsers
  | .statements isBlock, c => c.statements isBlock
  | .block, c => c.block
  | .statement isBlock, c => c.statement isBlock
  | .atRule keyword, c => fun start => c.atRule start keyword
  | .declaration, c => c.declaration
  | .rule, c => c.rule
  | .expr, c => c.expr
  | .items, c => c.items
  | .sum, c => c.sum
  | .sumFrom, c => fun left => sumFrom left c
  | .product, c => c.product
  | .productFrom, c => fun left => productFrom left c
  | .factor, c => c.factor
  | .primary, c => c.primary

/-- The expression of a `@warn` or `@debug` statement, with some parser for expressions. -/
def message (p : Parsers) (c : Cursor) (start : Nat) : Parse (Range × Expr) c.size := do
  let message ← p .expr c
  let mark ← message.next.expect ';'
  return ⟨(⟨start, message.value.range.stop⟩, message.value), mark.next,
    message.size_lt_of_step mark⟩

/-- The parsers that the equations give, with some parsers for those that are called. -/
def next (p : Parsers) : Parsers
  | .statements isBlock, c =>
    match c.skipTrivia.peek? with
    | none | some '}' => .ok ⟨[], c.skipTrivia, c.size_skipTrivia_lt⟩
    | some _ => do
      let first ← p (.statement isBlock) c.skipTrivia
      let more ← p (.statements isBlock) first.next
      have h := first.size_lt_of_rest more
      return ⟨first.value :: more.value, more.next, Nat.lt_trans h c.size_skipTrivia_lt⟩
  | .block, c => do
    let body ← p (.statements true) c
    let brace ← body.next.closeBlock
    return ⟨body.value, brace.next,
      Nat.lt_of_lt_of_le brace.nearer (Nat.le_of_lt_succ body.nearer)⟩
  | .statement isBlock, c =>
    match c.peek? with
    | none => .error (c.error (.expected .statement))
    | some '$' => do
      let name ← (c.skip 1).ident .variableName
      let colon ← name.next.expect ':'
      let value ← p .expr colon.next
      let mark ← value.next.expect ';'
      have h := Nat.lt_trans (value.size_lt_of_step mark) (name.size_lt_of_step colon)
      return ⟨.assign ⟨c.offset, value.value.range.stop⟩ name.value value.value, mark.next,
        Nat.lt_of_lt_of_le h (c.size_skip_le 1)⟩
    | some '@' => do
      let keyword ← (c.skip 1).ident .atRuleName
      let statement ← p (.atRule keyword.value) keyword.next c.offset
      have h := keyword.size_lt_of_step statement
      return ⟨statement.value, statement.next, Nat.lt_of_lt_of_le h (c.size_skip_le 1)⟩
    | some _ =>
      if isBlock && Lexeme.looksLikeDeclaration c.rest then p .declaration c else p .rule c
  | .atRule keyword, c => fun start =>
    if keyword = "warn" then do
      let ⟨(range, value), last, h⟩ ← p.message c start
      return ⟨.warn range value, last, h⟩
    else if keyword = "debug" then do
      let ⟨(range, value), last, h⟩ ← p.message c start
      return ⟨.debug range value, last, h⟩
    else if keyword = "mixin" then do
      let head ← c.mixinHead
      let body ← p .block head.next
      return ⟨.defineMixin ⟨start, body.next.offset⟩ head.value body.value, body.next,
        head.size_lt_of_step body⟩
    else if keyword = "include" then c.inclusion start
    else .error ⟨.unknownAtRule keyword, start, c.offset⟩
  | .declaration, c => do
    let property ← c.ident .propertyName
    let colon ← property.next.expect ':'
    let value ← p .expr colon.next
    let mark ← value.next.declarationEnd
    return ⟨.declaration ⟨c.offset, value.value.range.stop⟩ property.value value.value, mark.next,
      Nat.lt_trans (value.size_lt_of_rest mark) (property.size_lt_of_step colon)⟩
  | .rule, c => do
    let head ← c.ruleHead
    let body ← p .block head.next
    return ⟨.rule ⟨c.offset, body.next.offset⟩ head.value body.value, body.next,
      head.size_lt_of_step body⟩
  | .expr, c => do
    let first ← p .sum c
    let more ← p .items first.next
    match more.value.getLast? with
    | none => return ⟨first.value, more.next, first.size_lt_of_rest more⟩
    | some final =>
      return ⟨.list (first.value.range.cover final.range) (first.value :: more.value), more.next,
        first.size_lt_of_rest more⟩
  | .items, c =>
    if c.skipTrivia.peek?.any Lexeme.startsItem then do
      let item ← p .sum c.skipTrivia
      let more ← p .items item.next
      have h := item.size_lt_of_rest more
      return ⟨item.value :: more.value, more.next, Nat.lt_trans h c.size_skipTrivia_lt⟩
    else .ok ⟨[], c.skipTrivia, c.size_skipTrivia_lt⟩
  | .sum, c => do
    let left ← p .product c
    let sum ← p .sumFrom left.next left.value
    return ⟨sum.value, sum.next, left.size_lt_of_rest sum⟩
  | .sumFrom, c => fun left =>
    match hoperator : c.skipTrivia.additive? with
    | none => .ok ⟨left, c.skipTrivia, c.size_skipTrivia_lt⟩
    | some operator => do
      let right ← p .product (c.skipTrivia.skip 1)
      let sum ← p .sumFrom right.next (left.join operator right.value)
      have h := Nat.lt_trans (right.size_lt_of_rest sum)
        (size_skipTrivia_skip_lt (rest_ne_nil_of_additive? hoperator))
      return ⟨sum.value, sum.next, Nat.lt_succ_of_lt h⟩
  | .product, c => do
    let left ← p .factor c
    let product ← p .productFrom left.next left.value
    return ⟨product.value, product.next, left.size_lt_of_rest product⟩
  | .productFrom, c => fun left =>
    match hoperator : c.skipTrivia.multiplicative? with
    | none => .ok ⟨left, c.skipTrivia, c.size_skipTrivia_lt⟩
    | some operator => do
      let right ← p .factor (c.skipTrivia.skip 1)
      let product ← p .productFrom right.next (left.join operator right.value)
      have h := Nat.lt_trans (right.size_lt_of_rest product)
        (size_skipTrivia_skip_lt (rest_ne_nil_of_multiplicative? hoperator))
      return ⟨product.value, product.next, Nat.lt_succ_of_lt h⟩
  | .factor, c =>
    if hnegation : c.skipTrivia.isNegation then do
      let operand ← p .factor (c.skipTrivia.skip 1)
      return ⟨.negate ⟨c.skipTrivia.offset, operand.value.range.stop⟩ operand.value, operand.next,
        Nat.lt_trans operand.nearer (size_skipTrivia_skip_lt (rest_ne_nil_of_isNegation hnegation))⟩
    else do
      let value ← p .primary c.skipTrivia
      return ⟨value.value, value.next, Nat.lt_of_lt_of_le value.nearer c.size_skipTrivia_le⟩
  | .primary, c =>
    match c.number? with
    | some parsed => .ok parsed
    | none =>
      have hne := @rest_ne_nil_of_peek? c
      match hpeek : c.peek? with
      | some '"' => c.string '"' (hne hpeek)
      | some '\'' => c.string '\'' (hne hpeek)
      | some '$' => c.reference
      | some '#' => .ok (c.hash (hne hpeek))
      | some '(' => do
        let inner ← p .expr (c.skip 1)
        let mark ← inner.next.expect ')'
        have h := inner.size_lt_of_step mark
        return ⟨inner.value.withRange ⟨c.offset, mark.next.offset⟩, mark.next,
          Nat.lt_trans h (size_skip_lt Nat.one_pos (hne hpeek))⟩
      | _ => c.word

/-! ## The parsers as a solution -/

/-- What follows a result has to be the same only for that result. -/
theorem bind_congr_of_ok {ε α β : Type} {x x' : Except ε α} {f f' : α → Except ε β} (hx : x = x')
    (hf : ∀ a, x' = .ok a → f a = f' a) : (x >>= f) = (x' >>= f') := by
  subst hx
  cases x with
  | error error => rfl
  | ok a => exact hf a rfl

variable {p : Parsers} {c : Cursor}

/-- A statement is told by its first character, in the parser as in its equation. -/
theorem next_own_statement (isBlock : Bool) :
    own.next (.statement isBlock) c = c.statement isBlock := by
  cases hpeek : c.peek? with
  | none => rw [next, Cursor.statement, hpeek]
  | some x =>
    by_cases hsign : x = '$'
    · subst hsign
      rw [next, Cursor.statement, hpeek]
      rfl
    by_cases hat : x = '@'
    · subst hat
      rw [next, statement_of_at hpeek, hpeek]
      rfl
    rw [next, statement_of_plain hpeek hsign hat, hpeek]
    simp only
    rfl

/-- The parsers solve their equations. -/
theorem next_own (routine : Routine) (c : Cursor) : own.next routine c = own routine c := by
  cases routine with
  | statements isBlock =>
    change _ = c.statements isBlock
    rw [Cursor.statements]
    rfl
  | block =>
    change _ = c.block
    rw [Cursor.block]
    rfl
  | statement isBlock => exact next_own_statement isBlock
  | atRule keyword => rfl
  | declaration => rfl
  | rule => rfl
  | expr =>
    change _ = c.expr
    rw [Cursor.expr]
    rfl
  | items =>
    change _ = c.items
    rw [Cursor.items]
    rfl
  | sum =>
    change _ = c.sum
    rw [Cursor.sum]
    rfl
  | sumFrom =>
    funext left
    change _ = sumFrom left c
    rw [Cursor.sumFrom]
    rfl
  | product =>
    change _ = c.product
    rw [Cursor.product]
    rfl
  | productFrom =>
    funext left
    change _ = productFrom left c
    rw [Cursor.productFrom]
    rfl
  | factor =>
    change _ = c.factor
    rw [Cursor.factor]
    rfl
  | primary =>
    change _ = c.primary
    rw [Cursor.primary]
    rfl

/-! ## What the equations look at -/

/-- Parsers that are the right ones wherever one at a cursor calls. -/
def RightBelow (p : Parsers) (routine : Routine) (c : Cursor) : Prop :=
  ∀ routine' d, Calls routine c routine' d → p routine' d = own routine' d

theorem next_statements {isBlock : Bool} (h : p.RightBelow (.statements isBlock) c) :
    p.next (.statements isBlock) c = own.next (.statements isBlock) c := by
  rw [next, next]
  cases hpeek : c.skipTrivia.peek? with
  | none => rfl
  | some x =>
    by_cases hbrace : x = '}'
    · subst hbrace
      rfl
    · simp only
      refine bind_congr_of_ok (h _ _ (.statement hpeek hbrace)) fun first hfirst => ?_
      exact bind_congr_of_ok (h _ _ (.statements hfirst)) fun _ _ => rfl

theorem next_statement {isBlock : Bool} (h : p.RightBelow (.statement isBlock) c) :
    p.next (.statement isBlock) c = own.next (.statement isBlock) c := by
  rw [next, next]
  split
  · rfl
  · rename_i hsign
    refine bind_congr_of_ok rfl fun name hname => ?_
    refine bind_congr_of_ok rfl fun colon hcolon => ?_
    exact bind_congr_of_ok (h _ _ (.assigned hsign hname hcolon)) fun _ _ => rfl
  · rename_i hat
    refine bind_congr_of_ok rfl fun keyword hkeyword => ?_
    exact bind_congr_of_ok (congrFun (h _ _ (.atRule hat hkeyword)) c.offset) fun _ _ => rfl
  · rename_i x hsign hat hpeek
    cases hlook : isBlock && Lexeme.looksLikeDeclaration c.rest with
    | true => exact h _ _ (.declaration hpeek hsign hat hlook)
    | false => exact h _ _ (.rule hpeek hsign hat hlook)

theorem next_atRule {keyword : String} (h : p.RightBelow (.atRule keyword) c) :
    p.next (.atRule keyword) c = own.next (.atRule keyword) c := by
  funext start
  rw [next, next]
  split_ifs with hwarn hdebug hmixin
  · have hvalue := h _ _ (.message (.inl hwarn))
    exact bind_congr_of_ok (bind_congr_of_ok hvalue fun _ _ => rfl) fun _ _ => rfl
  · have hvalue := h _ _ (.message (.inr hdebug))
    exact bind_congr_of_ok (bind_congr_of_ok hvalue fun _ _ => rfl) fun _ _ => rfl
  · subst hmixin
    refine bind_congr_of_ok rfl fun head hhead => ?_
    exact bind_congr_of_ok (h _ _ (.mixinBody hhead)) fun _ _ => rfl
  · rfl
  · rfl

theorem next_sumFrom (h : p.RightBelow .sumFrom c) :
    p.next .sumFrom c = own.next .sumFrom c := by
  funext left
  rw [next, next]
  dsimp only
  split
  · rfl
  · rename_i operator hoperator
    refine bind_congr_of_ok (h _ _ (.nextSummand hoperator)) fun right hright => ?_
    exact bind_congr_of_ok (congrFun (h _ _ (.nextSum hoperator hright)) _) fun _ _ => rfl

theorem next_productFrom (h : p.RightBelow .productFrom c) :
    p.next .productFrom c = own.next .productFrom c := by
  funext left
  rw [next, next]
  dsimp only
  split
  · rfl
  · rename_i operator hoperator
    refine bind_congr_of_ok (h _ _ (.nextFactor hoperator)) fun right hright => ?_
    exact bind_congr_of_ok (congrFun (h _ _ (.nextProduct hoperator hright)) _) fun _ _ => rfl

theorem next_primary (h : p.RightBelow .primary c) :
    p.next .primary c = own.next .primary c := by
  rw [next, next]
  cases c.number? with
  | some parsed => rfl
  | none =>
    dsimp only
    split
    · rfl
    · rfl
    · rfl
    · rfl
    · rename_i hopen
      exact bind_congr_of_ok (h _ _ (.group hopen)) fun _ _ => rfl
    · rfl

/-- What an equation makes of parsers depends on them only where the parser calls. -/
theorem next_congr {routine : Routine} (h : p.RightBelow routine c) :
    p.next routine c = own routine c := by
  rw [← next_own]
  cases routine with
  | statements isBlock => exact next_statements h
  | block => exact bind_congr_of_ok (h _ _ .body) fun _ _ => rfl
  | statement isBlock => exact next_statement h
  | atRule keyword => exact next_atRule h
  | declaration =>
    refine bind_congr_of_ok rfl fun name hname => ?_
    refine bind_congr_of_ok rfl fun colon hcolon => ?_
    exact bind_congr_of_ok (h _ _ (.declared hname hcolon)) fun _ _ => rfl
  | rule =>
    refine bind_congr_of_ok rfl fun head hhead => ?_
    exact bind_congr_of_ok (h _ _ (.ruleBody hhead)) fun _ _ => rfl
  | expr =>
    refine bind_congr_of_ok (h _ _ .first) fun first hfirst => ?_
    exact bind_congr_of_ok (h _ _ (.further hfirst)) fun _ _ => rfl
  | items =>
    rw [next, next]
    split_ifs with hstarts
    · refine bind_congr_of_ok (h _ _ (.item hstarts)) fun item hitem => ?_
      exact bind_congr_of_ok (h _ _ (.items hitem)) fun _ _ => rfl
    · rfl
  | sum =>
    refine bind_congr_of_ok (h _ _ .summand) fun left hleft => ?_
    exact bind_congr_of_ok (congrFun (h _ _ (.sumFrom hleft)) _) fun _ _ => rfl
  | sumFrom => exact next_sumFrom h
  | product =>
    refine bind_congr_of_ok (h _ _ .factor) fun left hleft => ?_
    exact bind_congr_of_ok (congrFun (h _ _ (.productFrom hleft)) _) fun _ _ => rfl
  | productFrom => exact next_productFrom h
  | factor =>
    rw [next, next]
    split_ifs with hnegation
    · exact bind_congr_of_ok (h _ _ (.negated hnegation)) fun _ _ => rfl
    · have hpositive := Bool.eq_false_iff.mpr hnegation
      exact bind_congr_of_ok (h _ _ (.primary hpositive)) fun _ _ => rfl
  | primary => exact next_primary h

/-- Whatever solves the equations of the parsers are the parsers, since calls come to an end. -/
theorem eq_own_of_next (hp : ∀ routine c, p.next routine c = p routine c) : p = own := by
  have hbelow (bound : Nat) : ∀ routine c, budget routine c < bound →
      p routine c = own routine c := by
    induction bound with
    | zero => exact fun _ _ hbudget => absurd hbudget (Nat.not_lt_zero _)
    | succ bound ih =>
      intro routine c hbudget
      rw [← hp]
      refine next_congr fun routine' d hcall => ih routine' d ?_
      exact Nat.lt_of_lt_of_le hcall.budget_lt (Nat.le_of_lt_succ hbudget)
  funext routine c
  exact hbelow _ routine c (Nat.lt_succ_self _)

end Parsers

end Cursor

end Stylesheet
