import Stylesheet.Proofs.Source.Conversion
import Stylesheet.Proofs.Source.Wire
import Stylesheet.Proofs.Syntax.References

/-!
# Progress

Each parser that succeeds has come strictly nearer to the end of the text, and every place that it
comes to is a boundary between characters. So a parser that calls others, again and again or inside
one another, does so no more often than the length of the text allows
(`isOn_and_length_calls_le`), and parsing ends on every text (`parser_advances`).
-/

namespace Stylesheet

namespace Cursor

variable {source : String} {c d : Cursor}

/-! ## Boundaries -/

/-- A cursor on a boundary between characters of a text, with as many bytes passed as stand in
front of it. -/
def IsOn (source : String) (c : Cursor) : Prop :=
  ∃ front, source.toList = front ++ c.rest ∧ c.offset = Text.byteLength front ∧
    c.previous = front.getLast?

/-- The boundaries of a text are the places that a cursor comes to from its front. -/
theorem isOn_iff : c.IsOn source ↔ start source.toList ≤ c := by
  constructor
  · rintro ⟨front, hsource, hoffset, hprevious⟩
    refine ⟨front.length, ?_⟩
    have hoffset' : ((start source.toList).skip front.length).offset = c.offset := by
      simp [offset_skip, start, hsource, hoffset]
    have hprevious' : ((start source.toList).skip front.length).previous = c.previous := by
      simp [previous_skip, start, hsource, hprevious]
    have hrest' : ((start source.toList).skip front.length).rest = c.rest := by
      simp [start, hsource]
    generalize (start source.toList).skip front.length = d at hoffset' hprevious' hrest' ⊢
    cases c
    cases d
    simp_all
  · exact exists_passed

theorem IsOn.of_le (h : c.IsOn source) (hle : c ≤ d) : d.IsOn source :=
  isOn_iff.mpr (le_trans (isOn_iff.mp h) hle)

theorem IsOn.offset_le (h : c.IsOn source) : c.offset ≤ source.utf8ByteSize := by
  obtain ⟨front, hsource, hoffset, -⟩ := h
  rw [hoffset, ← Text.byteLength_toList, hsource, Text.byteLength_append]
  exact Nat.le_add_right _ _

/-- From a boundary of a text to one that is strictly further and not past the end. -/
structure AdvancesTo (source : String) (c d : Cursor) : Prop where
  isOn : d.IsOn source
  offset_lt : c.offset < d.offset
  offset_le : d.offset ≤ source.utf8ByteSize

theorem IsOn.advances {α : Type} {parsed : Parsed α c.size} (h : c.IsOn source)
    (hle : c ≤ parsed.next) : c.AdvancesTo source parsed.next := by
  have hd := h.of_le hle
  have hlt : c < parsed.next := ⟨hle, fun hback => Nat.not_le.mpr parsed.nearer (size_le hback)⟩
  exact ⟨hd, offset_lt hlt, hd.offset_le⟩

/-! ## Where parsers come to -/

variable {isBlock : Bool}

theorem Yields.le {α : Type} {n : Nat} {p : Parse α n} {good : α → Cursor → Prop}
    {parsed : Parsed α n} (h : c.Yields p good) (hp : p = .ok parsed)
    (hgood : ∀ a d, good a d → c ≤ d) : c ≤ parsed.next := by
  subst hp
  exact hgood _ _ h

theorem le_of_ident {expected : Expected} {parsed : Parsed String c.size}
    (h : c.ident expected = .ok parsed) : c ≤ parsed.next :=
  (ident_yields c expected).le h fun _ _ hname => hname.le

theorem le_of_expect {x : Char} {parsed : Parsed Unit c.size} (h : c.expect x = .ok parsed) :
    c ≤ parsed.next :=
  (expect_yields c x).le h fun _ _ hpasses => hpasses.le

theorem le_of_number? {parsed : Parsed Expr c.size} (h : c.number? = some parsed) :
    c ≤ parsed.next :=
  (number?_isLeaf h).le

theorem le_of_string {quote : Char} {hne : c.rest ≠ []} {parsed : Parsed Expr c.size}
    (h : c.string quote hne = .ok parsed) : c ≤ parsed.next := by
  unfold string at h
  split at h
  · obtain rfl := Except.ok.inj h
    exact c.le_skip _
  · contradiction

theorem le_of_primary {parsed : Parsed Expr c.size} (h : c.primary = .ok parsed) :
    c ≤ parsed.next :=
  (primary_yields c).le h fun _ _ hstands => hstands.le

theorem le_of_factor {parsed : Parsed Expr c.size} (h : c.factor = .ok parsed) :
    c ≤ parsed.next :=
  (factor_yields c).le h fun _ _ hstands => le_trans c.le_skipTrivia hstands.le

theorem le_of_product {parsed : Parsed Expr c.size} (h : c.product = .ok parsed) :
    c ≤ parsed.next := by
  refine (product_yields c).le h fun e d hread => ?_
  obtain ⟨b, hstands, rfl⟩ := hread
  exact le_trans c.le_skipTrivia (le_trans hstands.le b.le_skipTrivia)

theorem le_of_sum {parsed : Parsed Expr c.size} (h : c.sum = .ok parsed) : c ≤ parsed.next := by
  refine (sum_yields c).le h fun e d hread => ?_
  obtain ⟨b, hstands, rfl, -⟩ := hread
  exact le_trans c.le_skipTrivia (le_trans hstands.le b.le_skipTrivia)

theorem le_of_expr {parsed : Parsed Expr c.size} (h : c.expr = .ok parsed) : c ≤ parsed.next := by
  refine (expr_yields c).le h fun e d hread => ?_
  obtain ⟨b, hstands, rfl⟩ := hread
  exact le_trans c.le_skipTrivia (le_trans hstands.le b.le_skipTrivia)

theorem le_of_block {parsed : Parsed (List Statement) c.size} (h : c.block = .ok parsed) :
    c ≤ parsed.next := by
  refine (block_yields c).le h fun body e hread => ?_
  obtain ⟨d, hbody, hclose⟩ := hread
  exact le_trans hbody.le hclose.le

theorem le_of_mixinHead {parsed : Parsed String c.size} (h : c.mixinHead = .ok parsed) :
    c ≤ parsed.next := by
  refine (mixinHead_yields c).le h fun name d hread => ?_
  obtain ⟨b, hname, hopen⟩ := hread
  exact le_trans c.le_skipTrivia (le_trans hname.le hopen.le)

theorem le_of_ruleHead {parsed : Parsed String c.size} (h : c.ruleHead = .ok parsed) :
    c ≤ parsed.next :=
  (ruleHead_yields c).le h fun _ _ hopen => hopen.le

/-! ## Statements by their kind -/

/-- What follows the keyword of a statement that starts at an offset with an at sign. -/
def atRule (c : Cursor) (start : Nat) (keyword : String) : Parse Statement c.size :=
  if keyword = "warn" then do
    let message ← c.message start
    return ⟨.warn message.value.1 message.value.2, message.next, message.nearer⟩
  else if keyword = "debug" then do
    let message ← c.message start
    return ⟨.debug message.value.1 message.value.2, message.next, message.nearer⟩
  else if keyword = "mixin" then do
    let head ← c.mixinHead
    let body ← head.next.block
    return ⟨.defineMixin ⟨start, body.next.offset⟩ head.value body.value, body.next,
      lt_trans body.nearer head.nearer⟩
  else if keyword = "include" then c.inclusion start
  else .error ⟨.unknownAtRule keyword, start, c.offset⟩

/-- A rule, whose selector stands here. -/
def rule (c : Cursor) : Parse Statement c.size := do
  let head ← c.ruleHead
  let body ← head.next.block
  return ⟨.rule ⟨c.offset, body.next.offset⟩ head.value body.value, body.next,
    lt_trans body.nearer head.nearer⟩

/-- Behind an at sign stand a keyword and what follows it. -/
theorem statement_of_at (h : c.peek? = some '@') :
    c.statement isBlock = do
      let keyword ← (c.skip 1).ident .atRuleName
      let s ← keyword.next.atRule c.offset keyword.value
      return ⟨s.value, s.next,
        lt_trans s.nearer (lt_of_lt_of_le keyword.nearer (c.size_skip_le 1))⟩ := by
  rw [statement]
  split
  · simp_all
  · simp_all
  · cases (c.skip 1).ident .atRuleName with
    | error error => rfl
    | ok named =>
      obtain ⟨keyword, next, hnext⟩ := named
      simp only [bind, Except.bind]
      unfold atRule
      split
      · cases next.message c.offset <;> rfl
      · cases next.message c.offset <;> rfl
      · cases next.mixinHead with
        | error error => rfl
        | ok head => cases hbody : head.next.block <;> simp [hbody, bind, Except.bind]; rfl
      · cases next.inclusion c.offset <;> rfl
      · simp_all
  · simp_all

/-- Without a sign in front, a statement is a declaration or a rule. -/
theorem statement_of_plain {x : Char} (h : c.peek? = some x) (hsign : x ≠ '$') (hat : x ≠ '@') :
    c.statement isBlock =
      if isBlock && Lexeme.looksLikeDeclaration c.rest then c.declaration else c.rule := by
  rw [statement]
  split
  · simp_all
  · rename_i hpeek
    rw [hpeek] at h
    exact absurd (Option.some.inj h).symm hsign
  · rename_i hpeek
    rw [hpeek] at h
    exact absurd (Option.some.inj h).symm hat
  · rfl

theorem le_of_message {start : Nat} {parsed : Parsed (Range × Expr) c.size}
    (h : c.message start = .ok parsed) : c ≤ parsed.next := by
  obtain ⟨value, hvalue, h⟩ := Except.bind_eq_ok_iff.mp h
  obtain ⟨last, hlast, h⟩ := Except.bind_eq_ok_iff.mp h
  obtain rfl := Except.ok.inj h
  exact le_trans (le_of_expr hvalue) (le_of_expect hlast)

theorem le_of_inclusion {start : Nat} {parsed : Parsed Statement c.size}
    (h : c.inclusion start = .ok parsed) : c ≤ parsed.next := by
  obtain ⟨⟨⟨name, stop⟩, afterName, hname⟩, hmixin, h⟩ := Except.bind_eq_ok_iff.mp h
  obtain ⟨last, hlast, h⟩ := Except.bind_eq_ok_iff.mp h
  obtain rfl := Except.ok.inj h
  have hle : c ≤ afterName :=
    (mixinName_yields c).le hmixin fun _ _ hread => le_trans c.le_skipTrivia hread.1.le
  exact le_trans hle (le_of_expect hlast)

theorem le_of_declaration {parsed : Parsed Statement c.size} (h : c.declaration = .ok parsed) :
    c ≤ parsed.next := by
  obtain ⟨property, hproperty, h⟩ := Except.bind_eq_ok_iff.mp h
  obtain ⟨colon, hcolon, h⟩ := Except.bind_eq_ok_iff.mp h
  obtain ⟨value, hvalue, h⟩ := Except.bind_eq_ok_iff.mp h
  obtain ⟨last, hlast, h⟩ := Except.bind_eq_ok_iff.mp h
  obtain rfl := Except.ok.inj h
  have hend := (declarationEnd_yields _).le hlast fun _ _ hends => hends.le
  exact le_trans (le_trans (le_of_ident hproperty) (le_of_expect hcolon))
    (le_trans (le_of_expr hvalue) hend)

theorem le_of_rule {parsed : Parsed Statement c.size} (h : c.rule = .ok parsed) :
    c ≤ parsed.next := by
  obtain ⟨head, hhead, h⟩ := Except.bind_eq_ok_iff.mp h
  obtain ⟨body, hbody, h⟩ := Except.bind_eq_ok_iff.mp h
  obtain rfl := Except.ok.inj h
  exact le_trans (le_of_ruleHead hhead) (le_of_block hbody)

theorem le_of_atRule {start : Nat} {keyword : String} {parsed : Parsed Statement c.size}
    (h : c.atRule start keyword = .ok parsed) : c ≤ parsed.next := by
  unfold atRule at h
  split_ifs at h
  · obtain ⟨message, hmessage, h⟩ := Except.bind_eq_ok_iff.mp h
    obtain rfl := Except.ok.inj h
    exact le_of_message hmessage
  · obtain ⟨message, hmessage, h⟩ := Except.bind_eq_ok_iff.mp h
    obtain rfl := Except.ok.inj h
    exact le_of_message hmessage
  · obtain ⟨head, hhead, h⟩ := Except.bind_eq_ok_iff.mp h
    obtain ⟨body, hbody, h⟩ := Except.bind_eq_ok_iff.mp h
    obtain rfl := Except.ok.inj h
    exact le_trans (le_of_mixinHead hhead) (le_of_block hbody)
  · exact le_of_inclusion h

theorem le_of_assignment {parsed : Parsed Statement c.size} (h : c.assignment = .ok parsed) :
    c ≤ parsed.next := by
  obtain ⟨name, hname, h⟩ := Except.bind_eq_ok_iff.mp h
  obtain ⟨colon, hcolon, h⟩ := Except.bind_eq_ok_iff.mp h
  obtain ⟨value, hvalue, h⟩ := Except.bind_eq_ok_iff.mp h
  obtain ⟨last, hlast, h⟩ := Except.bind_eq_ok_iff.mp h
  obtain rfl := Except.ok.inj h
  exact le_trans (le_trans (c.le_skip 1) (le_trans (le_of_ident hname) (le_of_expect hcolon)))
    (le_trans (le_of_expr hvalue) (le_of_expect hlast))

theorem le_of_statement {parsed : Parsed Statement c.size}
    (h : c.statement isBlock = .ok parsed) : c ≤ parsed.next := by
  cases hpeek : c.peek? with
  | none =>
    rw [statement, hpeek] at h
    contradiction
  | some x =>
    by_cases hsign : x = '$'
    · subst hsign
      rw [statement, hpeek] at h
      exact le_of_assignment h
    by_cases hat : x = '@'
    · subst hat
      rw [statement_of_at hpeek] at h
      obtain ⟨keyword, hkeyword, h⟩ := Except.bind_eq_ok_iff.mp h
      obtain ⟨last, hlast, h⟩ := Except.bind_eq_ok_iff.mp h
      obtain rfl := Except.ok.inj h
      exact le_trans (le_trans (c.le_skip 1) (le_of_ident hkeyword)) (le_of_atRule hlast)
    rw [statement_of_plain hpeek hsign hat] at h
    split at h
    · exact le_of_declaration h
    · exact le_of_rule h

/-! ## Calls -/

/-- The parsers that call one another. -/
inductive Routine where
  | statements (isBlock : Bool)
  | block
  | statement (isBlock : Bool)
  | atRule (keyword : String)
  | declaration
  | rule
  | expr
  | items
  | sum
  | sumFrom
  | product
  | productFrom
  | factor
  | primary

/-- A parser at one cursor calls a parser at another one: for a part, or for what follows a part
that has been read. Nothing else that a parser yields depends on other parsers
(`Parsers.next_congr`). -/
inductive Calls : Routine → Cursor → Routine → Cursor → Prop where
  | statement {isBlock : Bool} {c : Cursor} {x : Char} (hpeek : c.skipTrivia.peek? = some x)
      (hbrace : x ≠ '}') : Calls (.statements isBlock) c (.statement isBlock) c.skipTrivia
  | statements {isBlock : Bool} {c : Cursor} {parsed : Parsed Statement c.skipTrivia.size}
      (h : c.skipTrivia.statement isBlock = .ok parsed) :
      Calls (.statements isBlock) c (.statements isBlock) parsed.next
  | body {c : Cursor} : Calls .block c (.statements true) c
  | assigned {isBlock : Bool} {c : Cursor} {name : Parsed String (c.skip 1).size}
      {colon : Parsed Unit name.next.size} (hpeek : c.peek? = some '$')
      (hname : (c.skip 1).ident .variableName = .ok name)
      (hcolon : name.next.expect ':' = .ok colon) :
      Calls (.statement isBlock) c .expr colon.next
  | atRule {isBlock : Bool} {c : Cursor} {keyword : Parsed String (c.skip 1).size}
      (hpeek : c.peek? = some '@') (hkeyword : (c.skip 1).ident .atRuleName = .ok keyword) :
      Calls (.statement isBlock) c (.atRule keyword.value) keyword.next
  | declaration {isBlock : Bool} {c : Cursor} {x : Char} (hpeek : c.peek? = some x)
      (hsign : x ≠ '$') (hat : x ≠ '@')
      (hlook : (isBlock && Lexeme.looksLikeDeclaration c.rest) = true) :
      Calls (.statement isBlock) c .declaration c
  | rule {isBlock : Bool} {c : Cursor} {x : Char} (hpeek : c.peek? = some x)
      (hsign : x ≠ '$') (hat : x ≠ '@')
      (hlook : (isBlock && Lexeme.looksLikeDeclaration c.rest) = false) :
      Calls (.statement isBlock) c .rule c
  | message {keyword : String} {c : Cursor} (hkeyword : keyword = "warn" ∨ keyword = "debug") :
      Calls (.atRule keyword) c .expr c
  | mixinBody {c : Cursor} {head : Parsed String c.size} (hhead : c.mixinHead = .ok head) :
      Calls (.atRule "mixin") c .block head.next
  | declared {c : Cursor} {name : Parsed String c.size} {colon : Parsed Unit name.next.size}
      (hname : c.ident .propertyName = .ok name) (hcolon : name.next.expect ':' = .ok colon) :
      Calls .declaration c .expr colon.next
  | ruleBody {c : Cursor} {head : Parsed String c.size} (hhead : c.ruleHead = .ok head) :
      Calls .rule c .block head.next
  | first {c : Cursor} : Calls .expr c .sum c
  | further {c : Cursor} {first : Parsed Expr c.size} (h : c.sum = .ok first) :
      Calls .expr c .items first.next
  | item {c : Cursor} (h : c.skipTrivia.peek?.any Lexeme.startsItem = true) :
      Calls .items c .sum c.skipTrivia
  | items {c : Cursor} {item : Parsed Expr c.skipTrivia.size} (h : c.skipTrivia.sum = .ok item) :
      Calls .items c .items item.next
  | summand {c : Cursor} : Calls .sum c .product c
  | sumFrom {c : Cursor} {left : Parsed Expr c.size} (h : c.product = .ok left) :
      Calls .sum c .sumFrom left.next
  | nextSummand {c : Cursor} {operator : Operator} (h : c.skipTrivia.additive? = some operator) :
      Calls .sumFrom c .product (c.skipTrivia.skip 1)
  | nextSum {c : Cursor} {operator : Operator}
      {right : Parsed Expr (c.skipTrivia.skip 1).size}
      (hoperator : c.skipTrivia.additive? = some operator)
      (h : (c.skipTrivia.skip 1).product = .ok right) : Calls .sumFrom c .sumFrom right.next
  | factor {c : Cursor} : Calls .product c .factor c
  | productFrom {c : Cursor} {left : Parsed Expr c.size} (h : c.factor = .ok left) :
      Calls .product c .productFrom left.next
  | nextFactor {c : Cursor} {operator : Operator}
      (h : c.skipTrivia.multiplicative? = some operator) :
      Calls .productFrom c .factor (c.skipTrivia.skip 1)
  | nextProduct {c : Cursor} {operator : Operator}
      {right : Parsed Expr (c.skipTrivia.skip 1).size}
      (hoperator : c.skipTrivia.multiplicative? = some operator)
      (h : (c.skipTrivia.skip 1).factor = .ok right) :
      Calls .productFrom c .productFrom right.next
  | negated {c : Cursor} (h : c.skipTrivia.isNegation = true) :
      Calls .factor c .factor (c.skipTrivia.skip 1)
  | primary {c : Cursor} (h : c.skipTrivia.isNegation = false) :
      Calls .factor c .primary c.skipTrivia
  | group {c : Cursor} (hpeek : c.peek? = some '(') : Calls .primary c .expr (c.skip 1)

/-- How many calls a parser is away from the next one that has to be nearer to the end. -/
def Routine.height : Routine → Nat
  | primary | sumFrom | productFrom | declaration | rule => 0
  | factor | statement _ => 1
  | product | statements _ => 2
  | sum | block => 3
  | expr | items => 4
  | atRule _ => 5

/-- How many calls can be inside one another, from a parser at a cursor on. -/
def budget (routine : Routine) (c : Cursor) : Nat := 6 * c.size + routine.height

theorem Calls.le {routine routine' : Routine} (h : Calls routine c routine' d) : c ≤ d := by
  cases h with
  | statement _ _ | item _ | primary _ => exact c.le_skipTrivia
  | statements h => exact le_trans c.le_skipTrivia (le_of_statement h)
  | body | declaration _ _ _ _ | rule _ _ _ _ | message _ | first | summand | factor =>
    exact le_refl c
  | assigned _ hname hcolon =>
    exact le_trans (c.le_skip 1) (le_trans (le_of_ident hname) (le_of_expect hcolon))
  | atRule _ hkeyword => exact le_trans (c.le_skip 1) (le_of_ident hkeyword)
  | mixinBody hhead => exact le_of_mixinHead hhead
  | declared hname hcolon => exact le_trans (le_of_ident hname) (le_of_expect hcolon)
  | ruleBody hhead => exact le_of_ruleHead hhead
  | further h => exact le_of_sum h
  | items h => exact le_trans c.le_skipTrivia (le_of_sum h)
  | sumFrom h => exact le_of_product h
  | nextSummand _ | nextFactor _ | negated _ =>
    exact le_trans c.le_skipTrivia (c.skipTrivia.le_skip 1)
  | nextSum _ h =>
    exact le_trans (le_trans c.le_skipTrivia (c.skipTrivia.le_skip 1)) (le_of_product h)
  | productFrom h => exact le_of_factor h
  | nextProduct _ h =>
    exact le_trans (le_trans c.le_skipTrivia (c.skipTrivia.le_skip 1)) (le_of_factor h)
  | group _ => exact c.le_skip 1

/-- A call for a lower part may stay where it is; every other call is nearer to the end. -/
theorem Calls.budget_lt {routine routine' : Routine} (h : Calls routine c routine' d) :
    budget routine' d < budget routine c := by
  have htrivia := c.size_skipTrivia_le
  have hskip := c.size_skip_le 1
  have hskip' := c.skipTrivia.size_skip_le 1
  cases h with
  | statement _ _ | item _ | primary _ | body | declaration _ _ _ _ | rule _ _ _ _ | first
  | summand | factor =>
    simp only [budget, Routine.height]
    omega
  | message hkeyword =>
    simp only [budget, Routine.height]
    omega
  | @statements _ _ parsed _ | @items _ parsed _ | @further _ parsed _ | @mixinBody _ parsed _
  | @ruleBody _ parsed _ | @sumFrom _ parsed _ | @productFrom _ parsed _ | @nextSum _ _ parsed _ _
  | @nextProduct _ _ parsed _ _ | @atRule _ _ parsed _ _ =>
    have hnearer := parsed.nearer
    simp only [budget, Routine.height]
    omega
  | @assigned _ _ name colon _ _ _ | @declared _ name colon _ _ =>
    have hname := name.nearer
    have hcolon := colon.nearer
    simp only [budget, Routine.height]
    omega
  | nextSummand h =>
    have hnearer := size_skipTrivia_skip_lt (rest_ne_nil_of_additive? h)
    simp only [budget, Routine.height]
    omega
  | nextFactor h =>
    have hnearer := size_skipTrivia_skip_lt (rest_ne_nil_of_multiplicative? h)
    simp only [budget, Routine.height]
    omega
  | negated h =>
    have hnearer := size_skipTrivia_skip_lt (rest_ne_nil_of_isNegation h)
    simp only [budget, Routine.height]
    omega
  | group hpeek =>
    have hnearer := size_skip_lt Nat.one_pos (rest_ne_nil_of_peek? hpeek)
    simp only [budget, Routine.height]
    omega

/-- Parsers that each call the next one come to boundaries only, and there are no more of them than
the first one may have inside one another. -/
theorem isOn_and_length_calls_le {calls : List (Routine × Cursor)} {routine : Routine}
    (hcalls : List.IsChain (fun x y => Calls x.1 x.2 y.1 y.2) ((routine, c) :: calls))
    (hc : c.IsOn source) :
    (∀ call ∈ calls, call.2.IsOn source) ∧ calls.length ≤ budget routine c := by
  induction calls generalizing routine c with
  | nil => simp
  | cons call calls ih =>
    obtain ⟨hcall, hrest⟩ := List.isChain_cons_cons.mp hcalls
    have hon := hc.of_le hcall.le
    have hlt : budget call.1 call.2 < budget routine c := hcall.budget_lt
    obtain ⟨hcalls, hlength⟩ := ih hrest hon
    refine ⟨List.forall_mem_cons.mpr ⟨hon, hcalls⟩, ?_⟩
    rw [List.length_cons]
    omega

end Cursor

open Cursor

/-- The parsers make progress. From every boundary of every text each of them that succeeds comes to
a boundary strictly further; blanks and comments are passed up to where no more of them starts.
However parsers call one another, they stay on boundaries and come to an end, and so does the
parsing of every text, an error of which lies between boundaries. -/
theorem parser_advances (source : String) :
    (∀ c : Cursor, c.IsOn source →
      (∀ isBlock parsed, c.statement isBlock = .ok parsed → c.AdvancesTo source parsed.next) ∧
      (∀ start keyword parsed, c.atRule start keyword = .ok parsed →
        c.AdvancesTo source parsed.next) ∧
      (∀ parsed, c.declaration = .ok parsed → c.AdvancesTo source parsed.next) ∧
      (∀ parsed, c.rule = .ok parsed → c.AdvancesTo source parsed.next) ∧
      (∀ parsed, c.expr = .ok parsed → c.AdvancesTo source parsed.next) ∧
      (∀ parsed, c.sum = .ok parsed → c.AdvancesTo source parsed.next) ∧
      (∀ parsed, c.product = .ok parsed → c.AdvancesTo source parsed.next) ∧
      (∀ parsed, c.factor = .ok parsed → c.AdvancesTo source parsed.next) ∧
      (∀ parsed, c.primary = .ok parsed → c.AdvancesTo source parsed.next) ∧
      (∀ parsed, c.number? = some parsed → c.AdvancesTo source parsed.next) ∧
      (∀ quote hne parsed, c.string quote hne = .ok parsed → c.AdvancesTo source parsed.next) ∧
      (∀ expected parsed, c.ident expected = .ok parsed → c.AdvancesTo source parsed.next) ∧
      (c.skipTrivia.IsOn source ∧ c.offset ≤ c.skipTrivia.offset ∧
        c.skipTrivia.offset ≤ source.utf8ByteSize ∧
        (∀ x ∈ c.skipTrivia.peek?, Text.isBlank x = false) ∧
        ¬Lexeme.OpensComment c.skipTrivia.rest) ∧
      ∀ routine calls, List.IsChain (fun x y => Calls x.1 x.2 y.1 y.2) ((routine, c) :: calls) →
        (∀ call ∈ calls, call.2.IsOn source) ∧ calls.length ≤ 6 * c.size + 5) ∧
    (∀ byte, (⟨byte⟩ : String.Pos.Raw).IsValid source →
      ∃ c : Cursor, c.IsOn source ∧ c.offset = byte) ∧
    ((∃ statements, parse source = .ok statements) ∨
      ∃ error, parse source = .error error ∧ error.range.start ≤ error.range.stop ∧
        (⟨error.range.start⟩ : String.Pos.Raw).IsValid source ∧
        (⟨error.range.stop⟩ : String.Pos.Raw).IsValid source) := by
  refine ⟨fun c hc => ?_, fun byte hbyte => ?_, ?_⟩
  · have hon := hc.of_le c.le_skipTrivia
    have hblank : ∀ x ∈ c.skipTrivia.peek?, Text.isBlank x = false := by
      intro x hx
      have hsolid := c.isSolid_skipTrivia
      rw [rest_of_peek? hx] at hsolid
      exact hsolid.isBlank_eq_false
    refine ⟨fun _ _ h => hc.advances (le_of_statement h),
      fun _ _ _ h => hc.advances (le_of_atRule h), fun _ h => hc.advances (le_of_declaration h),
      fun _ h => hc.advances (le_of_rule h), fun _ h => hc.advances (le_of_expr h),
      fun _ h => hc.advances (le_of_sum h), fun _ h => hc.advances (le_of_product h),
      fun _ h => hc.advances (le_of_factor h), fun _ h => hc.advances (le_of_primary h),
      fun _ h => hc.advances (le_of_number? h), fun _ _ _ h => hc.advances (le_of_string h),
      fun _ _ h => hc.advances (le_of_ident h),
      ⟨hon, offset_le c.le_skipTrivia, hon.offset_le, hblank,
        c.isSolid_skipTrivia.not_opensComment⟩, ?_⟩
    intro routine calls hcalls
    obtain ⟨hboundaries, hlength⟩ := isOn_and_length_calls_le hcalls hc
    refine ⟨hboundaries, le_trans hlength ?_⟩
    have hheight : routine.height ≤ 5 := by cases routine <;> simp [Routine.height]
    rw [budget]
    omega
  · obtain ⟨front, rest, hsource, hbyte⟩ := Text.isValid_iff.mp hbyte
    exact ⟨⟨byte, front.getLast?, rest⟩, ⟨front, hsource, hbyte.symm, rfl⟩, rfl⟩
  · cases hparse : parse source with
    | ok statements => exact .inl ⟨statements, rfl⟩
    | error error =>
      obtain ⟨front, text, rest, hparts, hstart, hstop⟩ := exists_cut_of_parse_eq_error hparse
      refine .inr ⟨error, rfl, ?_, ?_, ?_⟩
      · rw [hstart, hstop, Text.byteLength_append]
        exact Nat.le_add_right _ _
      · exact Text.isValid_iff.mpr ⟨front, text ++ rest, by rw [hparts, List.append_assoc],
          hstart.symm⟩
      · exact Text.isValid_iff.mpr ⟨front ++ text, rest, hparts, hstop.symm⟩

end Stylesheet
