import Stylesheet.Proofs.Syntax.LeafRoundTrip

/-!
# The same text elsewhere

What a parser makes of a text does not depend on where the text stands: with some bytes more in
front, trees and errors have their ranges shifted and are the same otherwise. The characters that
have been passed do not matter when an expression or a statement starts, only between the operands
of a sum.
-/

namespace Stylesheet

/-! ## Trees elsewhere -/

/-- A range some bytes further on. -/
def Range.shift (n : Nat) (range : Range) : Range := ⟨range.start + n, range.stop + n⟩

def ParseError.shift (n : Nat) (error : ParseError) : ParseError :=
  { error with range := error.range.shift n }

mutual

/-- An expression with other ranges. -/
def Expr.mapRange (f : Range → Range) : Expr → Expr
  | .number range value unit => .number (f range) value unit
  | .text range s quoted => .text (f range) s quoted
  | .var range name => .var (f range) name
  | .binary range operator left right =>
    .binary (f range) operator (left.mapRange f) (right.mapRange f)
  | .negate range operand => .negate (f range) (operand.mapRange f)
  | .list range items => .list (f range) (Expr.mapRanges f items)

def Expr.mapRanges (f : Range → Range) : List Expr → List Expr
  | [] => []
  | item :: items => item.mapRange f :: Expr.mapRanges f items

end

mutual

/-- A statement with other ranges. -/
def Statement.mapRange (f : Range → Range) : Statement → Statement
  | .assign range name value => .assign (f range) name (value.mapRange f)
  | .warn range value => .warn (f range) (value.mapRange f)
  | .debug range value => .debug (f range) (value.mapRange f)
  | .defineMixin range name body => .defineMixin (f range) name (Statement.mapRanges f body)
  | .includeMixin range name => .includeMixin (f range) name
  | .rule range selector body => .rule (f range) selector (Statement.mapRanges f body)
  | .declaration range property value => .declaration (f range) property (value.mapRange f)

def Statement.mapRanges (f : Range → Range) : List Statement → List Statement
  | [] => []
  | statement :: statements => statement.mapRange f :: Statement.mapRanges f statements

end

namespace Expr

variable {f g : Range → Range}

@[simp] theorem range_mapRange (f : Range → Range) (e : Expr) :
    (e.mapRange f).range = f e.range := by
  cases e <;> rfl

theorem mapRange_withRange (f : Range → Range) (range : Range) (e : Expr) :
    (e.withRange range).mapRange f = (e.mapRange f).withRange (f range) := by
  cases e <;> rfl

theorem mapRanges_eq_map (f : Range → Range) (items : List Expr) :
    mapRanges f items = items.map (mapRange f) := by
  induction items with
  | nil => rfl
  | cons item items ih => rw [mapRanges, ih, List.map_cons]

/-- The operation on shifted operands has the shifted range. -/
theorem join_shift (n : Nat) (left : Expr) (operator : Operator) (right : Expr) :
    (left.join operator right).mapRange (Range.shift n) =
      (left.mapRange (Range.shift n)).join operator (right.mapRange (Range.shift n)) := by
  simp [join, mapRange, Range.cover, Range.shift, Nat.add_min_add_right, Nat.add_max_add_right]

end Expr

namespace Cursor

/-! ## Cursors elsewhere -/

/-- The cursor in front of the same text that has passed some bytes more. -/
def shift (n : Nat) (c : Cursor) : Cursor := { c with offset := c.offset + n }

/-- Another cursor stands in front of the same text, some bytes further on. The characters they have
passed may differ. -/
structure Meets (n : Nat) (c c' : Cursor) : Prop where
  offset : c'.offset = c.offset + n
  rest : c'.rest = c.rest

variable {n : Nat} {c c' : Cursor}

theorem meets_shift (n : Nat) (c : Cursor) : Meets n c (c.shift n) := ⟨rfl, rfl⟩

theorem skip_shift (n k : Nat) (c : Cursor) : (c.shift n).skip k = (c.skip k).shift n := by
  induction k generalizing c with
  | zero => rw [skip, skip]
  | succ k ih =>
    obtain ⟨offset, previous, rest⟩ := c
    cases rest with
    | nil => rfl
    | cons x s =>
      have h := ih ⟨offset + x.utf8Size, some x, s⟩
      simpa [shift, skip, Nat.add_right_comm] using h

theorem skipTrivia_shift (n : Nat) (c : Cursor) :
    (c.shift n).skipTrivia = c.skipTrivia.shift n :=
  skip_shift n _ c

namespace Meets

theorem exists_eq (h : Meets n c c') : ∃ previous, c' = ⟨c.offset + n, previous, c.rest⟩ := by
  obtain ⟨offset, previous, rest⟩ := c'
  obtain ⟨rfl, rfl⟩ : offset = c.offset + n ∧ rest = c.rest := ⟨h.offset, h.rest⟩
  exact ⟨previous, rfl⟩

theorem skip (h : Meets n c c') (k : Nat) : Meets n (c.skip k) (c'.skip k) := by
  refine ⟨?_, by rw [rest_skip, rest_skip, h.rest]⟩
  rw [offset_skip, offset_skip, h.rest, h.offset, Nat.add_right_comm]

theorem skipTrivia (h : Meets n c c') : Meets n c.skipTrivia c'.skipTrivia := by
  rw [Cursor.skipTrivia, Cursor.skipTrivia, h.rest]
  exact h.skip _

/-- Behind a character, what has been passed is the same as well. -/
theorem skip_of_pos (h : Meets n c c') {k : Nat} (hk : 0 < k) (hne : c.rest ≠ []) :
    c'.skip k = (c.skip k).shift n := by
  obtain ⟨offset, previous, rest⟩ := c
  obtain ⟨offset', previous', rest'⟩ := c'
  obtain ⟨rfl, rfl⟩ : offset' = offset + n ∧ rest' = rest := ⟨h.offset, h.rest⟩
  obtain ⟨x, s, rfl⟩ := List.exists_cons_of_ne_nil hne
  cases k with
  | zero => contradiction
  | succ k =>
    have hskip := skip_shift n k ⟨offset + x.utf8Size, some x, s⟩
    simpa [shift, Cursor.skip, Nat.add_right_comm] using hskip

theorem peek? (h : Meets n c c') : c'.peek? = c.peek? := by
  rw [Cursor.peek?, Cursor.peek?, h.rest]

theorem isNegation (h : Meets n c c') : c'.isNegation = c.isNegation := by
  rw [Cursor.isNegation, Cursor.isNegation, h.peek?, peekSecond?, peekSecond?, h.rest]

theorem error (h : Meets n c c') (fault : ParseFault) :
    c'.error fault = (c.error fault).shift n := by
  rw [Cursor.error, Cursor.error, h.peek?, h.offset]
  simp only [ParseError.shift, Range.shift, Nat.add_right_comm]

end Meets

/-! ## Parsers elsewhere -/

section

variable {α β : Type} {k k' m m' : Nat} {f : α → α} {g : β → β}

/-- One parser fails where another does, with the shifted error, or both succeed, with the changed
value and the shifted cursor. -/
def Shifts (n : Nat) (f : α → α) (p : Parse α k) (p' : Parse α k') : Prop :=
  match p, p' with
  | .ok parsed, .ok parsed' =>
    parsed'.value = f parsed.value ∧ parsed'.next = parsed.next.shift n
  | .error error, .error error' => error' = error.shift n
  | _, _ => False

theorem Shifts.bind {p : Parse α k} {p' : Parse α k'} {q : Parsed α k → Parse β m}
    {q' : Parsed α k' → Parse β m'} (hp : Shifts n f p p')
    (hq : ∀ a next nearer nearer',
      Shifts n g (q ⟨a, next, nearer⟩) (q' ⟨f a, next.shift n, nearer'⟩)) :
    Shifts n g (p >>= q) (p' >>= q') := by
  cases p with
  | error error =>
    cases p' with
    | error error' => exact hp
    | ok parsed' => exact hp.elim
  | ok parsed =>
    cases p' with
    | error error' => exact hp.elim
    | ok parsed' =>
      obtain ⟨a', next', nearer'⟩ := parsed'
      obtain ⟨rfl, rfl⟩ : a' = f parsed.value ∧ next' = parsed.next.shift n := hp
      exact hq parsed.value parsed.next parsed.nearer nearer'

variable {a : α} {next : Cursor} {p : Parse α k} {p' : Parse α k'}

theorem Shifts.reaches (h : Shifts n f p p') (hp : Reaches p a next) :
    Reaches p' (f a) (next.shift n) := by
  obtain ⟨nearer, rfl⟩ := hp
  match p', h with
  | .ok ⟨_, _, nearer'⟩, ⟨rfl, rfl⟩ => exact ⟨nearer', rfl⟩

/-- What is reached elsewhere is reached here. -/
theorem Shifts.exists_reaches (h : Shifts n f p p') (hp : Reaches p' a next) :
    ∃ a₀ next₀, Reaches p a₀ next₀ ∧ a = f a₀ ∧ next = next₀.shift n := by
  obtain ⟨nearer, rfl⟩ := hp
  match p, h with
  | .ok ⟨a₀, next₀, nearer₀⟩, ⟨hvalue, hnext⟩ => exact ⟨a₀, next₀, ⟨nearer₀, rfl⟩, hvalue, hnext⟩

end

/-! ## Lexemes -/

theorem expect_shifts (h : Meets n c c') (x : Char) :
    Shifts n id (c.expect x) (c'.expect x) := by
  have hpeek := h.skipTrivia.peek?
  unfold expect
  by_cases hx : c.skipTrivia.peek? = some x
  · rw [hx] at hpeek
    simp only [hx, hpeek, dite_true]
    exact ⟨rfl, h.skipTrivia.skip_of_pos Nat.one_pos (rest_ne_nil_of_peek? hx)⟩
  · rw [← hpeek] at hx
    simp only [hx, hpeek ▸ hx, dite_false]
    exact h.skipTrivia.error _

theorem ident_shifts (h : Meets n c c') (expected : Expected) :
    Shifts n id (c.ident expected) (c'.ident expected) := by
  obtain ⟨previous, rfl⟩ := h.exists_eq
  unfold ident ident?
  by_cases hname : Lexeme.ident c.rest = []
  · simp only [hname, dite_true]
    exact h.error _
  · simp only [hname, dite_false]
    refine ⟨rfl, h.skip_of_pos (List.length_pos_iff.mpr hname) fun hnil => hname ?_⟩
    rw [hnil]
    rfl

/-! ## Leaves -/

theorem number?_shifts (h : Meets n c c') :
    (c.number? = none ∧ c'.number? = none) ∨ ∃ parsed parsed', c.number? = some parsed ∧
      c'.number? = some parsed' ∧
      Shifts n (Expr.mapRange (Range.shift n)) (.ok parsed : Parse Expr c.size)
        (.ok parsed' : Parse Expr c'.size) := by
  obtain ⟨previous, rfl⟩ := h.exists_eq
  unfold number?
  by_cases hnumber : 0 < (Lexeme.number c.rest).length ∧ (Lexeme.number c.rest).isPresent
  · simp only [hnumber, and_self, dite_true]
    have hne : c.rest ≠ [] := by
      intro hnil
      rw [hnil] at hnumber
      simp [Lexeme.number, Lexeme.Number.length] at hnumber
    have hskip := h.skip_of_pos hnumber.1 hne
    refine .inr ⟨_, _, rfl, rfl, ?_, hskip⟩
    simp only [hskip]
    rfl
  · simp only [hnumber, dite_false]
    exact .inl ⟨trivial, trivial⟩

theorem string_shifts (h : Meets n c c') (quote : Char) (hne : c.rest ≠ []) (hne' : c'.rest ≠ []) :
    Shifts n (Expr.mapRange (Range.shift n)) (c.string quote hne) (c'.string quote hne') := by
  obtain ⟨previous, rfl⟩ := h.exists_eq
  unfold string
  cases Lexeme.stringRest quote (c.rest.drop 1) with
  | closed text length =>
    have hskip := h.skip_of_pos (Nat.add_pos_left Nat.one_pos length) hne
    refine ⟨?_, hskip⟩
    simp only [hskip]
    rfl
  | unterminated length =>
    have hskip := h.skip_of_pos (Nat.add_pos_left Nat.one_pos length) hne
    simp only [hskip]
    rfl

theorem reference_shifts (h : Meets n c c') :
    Shifts n (Expr.mapRange (Range.shift n)) c.reference c'.reference := by
  unfold reference
  refine (ident_shifts (h.skip 1) _).bind fun name next _ _ => ⟨?_, rfl⟩
  simp only [h.offset]
  rfl

theorem hash_shifts (h : Meets n c c') (hne : c.rest ≠ []) (hne' : c'.rest ≠ []) :
    Shifts n (Expr.mapRange (Range.shift n)) (.ok (c.hash hne) : Parse Expr c.size)
      (.ok (c'.hash hne') : Parse Expr c'.size) := by
  obtain ⟨previous, rfl⟩ := h.exists_eq
  have hskip := h.skip_of_pos (k := Lexeme.hashLength c.rest)
    (Nat.add_pos_left Nat.one_pos _) hne
  refine ⟨?_, hskip⟩
  simp only [hash, hskip]
  rfl

theorem word_shifts (h : Meets n c c') :
    Shifts n (Expr.mapRange (Range.shift n)) c.word c'.word := by
  unfold word
  refine (ident_shifts h _).bind fun name next _ _ => ⟨?_, rfl⟩
  simp only [h.offset]
  rfl

/-! ## Levels -/

theorem additive?_shift (n : Nat) (c : Cursor) : (c.shift n).additive? = c.additive? := rfl

theorem multiplicative?_shift (n : Nat) (c : Cursor) :
    (c.shift n).multiplicative? = c.multiplicative? := rfl

/-- A list over shifted items has the shifted range. -/
theorem list_shift (n : Nat) (first final : Expr) (items : List Expr) :
    (Expr.list (first.range.cover final.range) items).mapRange (Range.shift n) =
      .list ((first.mapRange (Range.shift n)).range.cover (final.mapRange (Range.shift n)).range)
        (items.map (Expr.mapRange (Range.shift n))) := by
  simp [Expr.mapRange, Expr.mapRanges_eq_map, Range.cover, Range.shift, Nat.add_min_add_right,
    Nat.add_max_add_right]

theorem primary_of_nil (hnumber : c.number? = none) (hrest : c.rest = []) :
    c.primary = c.word := by
  obtain ⟨offset, previous, _⟩ := c
  obtain rfl := hrest
  rw [primary]
  simp only [hnumber]
  rfl

theorem primary_parenthesis_shifts {s : List Char} (h : Meets n c c') (hnumber : c.number? = none)
    (hnumber' : c'.number? = none) (hrest : c.rest = '(' :: s)
    (hinner : Shifts n (Expr.mapRange (Range.shift n)) (c.skip 1).expr (c'.skip 1).expr) :
    Shifts n (Expr.mapRange (Range.shift n)) c.primary c'.primary := by
  obtain ⟨previous', rfl⟩ := h.exists_eq
  obtain ⟨offset, previous, _⟩ := c
  obtain rfl := hrest
  rw [primary.eq_def ⟨offset, previous, '(' :: s⟩, primary.eq_def ⟨offset + n, previous', '(' :: s⟩]
  simp only [hnumber, hnumber']
  refine hinner.bind fun inner next _ _ => ?_
  refine (expect_shifts (meets_shift n next) ')').bind fun _ last _ _ => ⟨?_, rfl⟩
  exact (Expr.mapRange_withRange (Range.shift n) ⟨offset, last.offset⟩ inner).symm

mutual

theorem expr_shifts {n : Nat} {c c' : Cursor} (h : Meets n c c') :
    Shifts n (Expr.mapRange (Range.shift n)) c.expr c'.expr := by
  rw [expr.eq_def c, expr.eq_def c']
  refine (sum_shifts h).bind fun first next hlt _ => ?_
  refine (items_shifts n next).bind fun more last _ _ => ?_
  simp only [Expr.mapRanges_eq_map, List.getLast?_map]
  cases more.getLast? with
  | none => exact ⟨rfl, rfl⟩
  | some final => exact ⟨(list_shift n first final (first :: more)).symm, rfl⟩
termination_by (c.size, 5)

theorem items_shifts (n : Nat) (c : Cursor) :
    Shifts n (Expr.mapRanges (Range.shift n)) c.items (c.shift n).items := by
  have hsize := c.size_skipTrivia_le
  have hmeets := (meets_shift n c).skipTrivia
  rw [items.eq_def c, items.eq_def (c.shift n)]
  dsimp only
  rw [hmeets.peek?]
  by_cases hstart : c.skipTrivia.peek?.any Lexeme.startsItem = true
  · rw [if_pos hstart, if_pos hstart]
    refine (sum_shifts hmeets).bind fun item next hlt _ => ?_
    exact (items_shifts n next).bind fun more last _ _ => ⟨rfl, rfl⟩
  · rw [if_neg hstart, if_neg hstart]
    exact ⟨rfl, skipTrivia_shift n c⟩
termination_by (c.size, 5)
decreasing_by
  · exact Prod.Lex.right' _ hsize (by omega)
  · exact Prod.Lex.left _ _ (by omega)

theorem sum_shifts {n : Nat} {c c' : Cursor} (h : Meets n c c') :
    Shifts n (Expr.mapRange (Range.shift n)) c.sum c'.sum := by
  rw [sum.eq_def c, sum.eq_def c']
  refine (product_shifts h).bind fun left next hlt _ => ?_
  exact (sumFrom_shifts n left next).bind fun value last _ _ => ⟨rfl, rfl⟩
termination_by (c.size, 4)

theorem sumFrom_shifts (n : Nat) (left : Expr) (c : Cursor) :
    Shifts n (Expr.mapRange (Range.shift n)) (c.sumFrom left)
      ((c.shift n).sumFrom (left.mapRange (Range.shift n))) := by
  have ho : (c.shift n).skipTrivia.additive? = c.skipTrivia.additive? := by
    rw [skipTrivia_shift, additive?_shift]
  rw [sumFrom.eq_def left c, sumFrom.eq_def _ (c.shift n)]
  split
  · split
    · exact ⟨rfl, skipTrivia_shift n c⟩
    · simp_all
  · rename_i operator hoperator
    split
    · simp_all
    · rename_i operator' hoperator'
      obtain rfl : operator = operator' := Option.some.inj (by rw [← hoperator, ← ho, hoperator'])
      have hsize := size_skipTrivia_skip_lt (rest_ne_nil_of_additive? hoperator)
      refine (product_shifts ((meets_shift n c).skipTrivia.skip 1)).bind fun right next hlt _ => ?_
      have hmore := sumFrom_shifts n (left.join operator right) next
      rw [Expr.join_shift] at hmore
      exact hmore.bind fun value last _ _ => ⟨rfl, rfl⟩
termination_by (c.size, 4)

theorem product_shifts {n : Nat} {c c' : Cursor} (h : Meets n c c') :
    Shifts n (Expr.mapRange (Range.shift n)) c.product c'.product := by
  rw [product.eq_def c, product.eq_def c']
  refine (factor_shifts h).bind fun left next hlt _ => ?_
  exact (productFrom_shifts n left next).bind fun value last _ _ => ⟨rfl, rfl⟩
termination_by (c.size, 3)

theorem productFrom_shifts (n : Nat) (left : Expr) (c : Cursor) :
    Shifts n (Expr.mapRange (Range.shift n)) (c.productFrom left)
      ((c.shift n).productFrom (left.mapRange (Range.shift n))) := by
  have ho : (c.shift n).skipTrivia.multiplicative? = c.skipTrivia.multiplicative? := by
    rw [skipTrivia_shift, multiplicative?_shift]
  rw [productFrom.eq_def left c, productFrom.eq_def _ (c.shift n)]
  split
  · split
    · exact ⟨rfl, skipTrivia_shift n c⟩
    · simp_all
  · rename_i operator hoperator
    split
    · simp_all
    · rename_i operator' hoperator'
      obtain rfl : operator = operator' := Option.some.inj (by rw [← hoperator, ← ho, hoperator'])
      have hsize := size_skipTrivia_skip_lt (rest_ne_nil_of_multiplicative? hoperator)
      refine (factor_shifts ((meets_shift n c).skipTrivia.skip 1)).bind fun right next hlt _ => ?_
      have hmore := productFrom_shifts n (left.join operator right) next
      rw [Expr.join_shift] at hmore
      exact hmore.bind fun value last _ _ => ⟨rfl, rfl⟩
termination_by (c.size, 3)

theorem factor_shifts {n : Nat} {c c' : Cursor} (h : Meets n c c') :
    Shifts n (Expr.mapRange (Range.shift n)) c.factor c'.factor := by
  have hc := c.size_skipTrivia_le
  have hsign := h.skipTrivia.isNegation
  rw [factor.eq_def c, factor.eq_def c']
  by_cases hnegation : c.skipTrivia.isNegation = true
  · have hsize := size_skipTrivia_skip_lt (rest_ne_nil_of_isNegation hnegation)
    rw [dif_pos hnegation, dif_pos (hsign.trans hnegation)]
    refine (factor_shifts (h.skipTrivia.skip 1)).bind fun operand next hlt _ => ⟨?_, rfl⟩
    simp only [h.skipTrivia.offset, Expr.range_mapRange]
    rfl
  · rw [dif_neg hnegation, dif_neg (hsign ▸ hnegation)]
    exact (primary_shifts h.skipTrivia).bind fun value next _ _ => ⟨rfl, rfl⟩
termination_by (c.size, 2)
decreasing_by
  · exact Prod.Lex.left _ _ hsize
  · exact Prod.Lex.right' _ hc (by omega)

theorem primary_shifts {n : Nat} {c c' : Cursor} (h : Meets n c c') :
    Shifts n (Expr.mapRange (Range.shift n)) c.primary c'.primary := by
  obtain ⟨hnumber, hnumber'⟩ | ⟨parsed, parsed', hnumber, hnumber', hshifts⟩ := number?_shifts h
  · cases hrest : c.rest with
    | nil =>
      rw [primary_of_nil hnumber hrest, primary_of_nil hnumber' (h.rest.trans hrest)]
      exact word_shifts h
    | cons x s =>
      have hrest' := h.rest.trans hrest
      have hne : c.rest ≠ [] := by simp [hrest]
      have hne' : c'.rest ≠ [] := by simp [hrest']
      by_cases hx : x ∈ ['"', '\'', '$', '#', '(']
      · simp only [List.mem_cons, List.not_mem_nil, or_false] at hx
        obtain rfl | rfl | rfl | rfl | rfl := hx
        · rw [primary_of_quote hnumber hrest hne, primary_of_quote hnumber' hrest' hne']
          exact string_shifts h _ hne hne'
        · rw [primary_of_apostrophe hnumber hrest hne, primary_of_apostrophe hnumber' hrest' hne']
          exact string_shifts h _ hne hne'
        · rw [primary_of_dollar hnumber hrest, primary_of_dollar hnumber' hrest']
          exact reference_shifts h
        · rw [primary_of_hash hnumber hrest hne, primary_of_hash hnumber' hrest' hne']
          exact hash_shifts h hne hne'
        · have hsize : (c.skip 1).size < c.size := size_skip_lt Nat.one_pos hne
          exact primary_parenthesis_shifts h hnumber hnumber' hrest (expr_shifts (h.skip 1))
      · rw [primary_of_word hnumber hrest hx, primary_of_word hnumber' hrest' hx]
        exact word_shifts h
  · rw [primary.eq_def c, primary.eq_def c']
    simp only [hnumber, hnumber']
    exact hshifts
termination_by (c.size, 1)

end

end Cursor

end Stylesheet
