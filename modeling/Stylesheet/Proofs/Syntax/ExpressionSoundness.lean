import Stylesheet.Proofs.Syntax.ExpressionGrammar

/-!
# Parsed expressions

What the parser yields for an expression has a derivation, level by level, and an error of the
parser lies at or behind the cursor from which it set out.
-/

namespace Stylesheet

/-- The range of an error starts at a cursor or behind it. -/
def ParseError.Behind (c : Cursor) (error : ParseError) : Prop :=
  ∃ a b, error.range = a.rangeTo b ∧ c ≤ a ∧ a ≤ b

theorem ParseError.Behind.mono {c d : Cursor} {error : ParseError} (h : error.Behind d)
    (hle : c ≤ d) : error.Behind c := by
  obtain ⟨a, b, hrange, hda, hab⟩ := h
  exact ⟨a, b, hrange, le_trans hle hda, hab⟩

namespace Cursor

/-! ## What a parser yields -/

/-- A parser that sets out from a cursor succeeds with a value and a cursor as described, or fails
at a place that is not in front of it. -/
def Yields {α : Type} {bound : Nat} (c : Cursor) (p : Parse α bound) (good : α → Cursor → Prop) :
    Prop :=
  match p with
  | .ok parsed => good parsed.value parsed.next
  | .error error => error.Behind c

variable {α β : Type} {m n : Nat} {c d : Cursor} {good : α → Cursor → Prop}

theorem Yields.mono {p : Parse α m} {good' : α → Cursor → Prop} (h : d.Yields p good)
    (hle : c ≤ d) (himp : ∀ a e, good a e → good' a e) : c.Yields p good' := by
  cases p with
  | ok parsed => exact himp _ _ h
  | error error => exact ParseError.Behind.mono h hle

theorem Yields.bind {p : Parse α m} {f : Parsed α m → Parse β n} {good' : β → Cursor → Prop}
    (hp : c.Yields p good) (hf : ∀ a next nearer, good a next →
      c.Yields (f ⟨a, next, nearer⟩) good') : c.Yields (p >>= f) good' := by
  cases p with
  | ok parsed => exact hf parsed.value parsed.next parsed.nearer hp
  | error error => exact hp

theorem error_behind (h : c ≤ d) (fault : ParseFault) : (d.error fault).Behind c := by
  refine ⟨d, d.skip 1, ?_, h, d.le_skip 1⟩
  have hoffset : (d.skip 1).offset = d.offset + (d.peek?.map Char.utf8Size).getD 0 := by
    rw [offset_skip, peek?]
    cases d.rest <;> simp
  rw [error, rangeTo, hoffset]

theorem expect_yields (c : Cursor) (x : Char) :
    c.Yields (c.expect x) fun _ d => c.Passes x d := by
  unfold expect
  dsimp only
  split
  · rename_i h
    exact ⟨h, rfl⟩
  · exact error_behind c.le_skipTrivia _

theorem ident_yields (c : Cursor) (expected : Expected) :
    c.Yields (c.ident expected) fun name d => c.Names name d := by
  unfold ident ident?
  by_cases h : Lexeme.ident c.rest = []
  · simp only [h, dite_true]
    exact error_behind (le_refl c) _
  · simp only [h, dite_false]
    exact ⟨h, rfl, rfl⟩

theorem passes_of_skipTrivia_eq {a b d : Cursor} {x : Char} (h : a.Passes x d)
    (heq : a.skipTrivia = b.skipTrivia) : b.Passes x d := by
  rw [Passes, ← heq]
  exact h

/-! ## Leaves -/

theorem number?_isLeaf {parsed : Parsed Expr c.size} (h : c.number? = some parsed) :
    parsed.value.IsLeaf c parsed.next := by
  unfold number? at h
  dsimp only at h
  split at h
  · rename_i hpresent
    obtain rfl := Option.some.inj h
    exact .number hpresent.2 rfl
  · contradiction

theorem string_yields {quote : Char} (hquote : quote = '"' ∨ quote = '\'')
    (hpeek : c.peek? = some quote) (hne : c.rest ≠ []) :
    c.Yields (c.string quote hne) fun e d => e.IsLeaf c d := by
  unfold string
  split
  · rename_i hrest
    exact .string hquote hpeek hrest rfl
  · exact ⟨c, _, rfl, le_refl c, c.le_skip _⟩

theorem reference_yields (hpeek : c.peek? = some '$') :
    c.Yields c.reference fun e d => e.IsLeaf c d := by
  unfold reference
  refine Yields.bind ((ident_yields (c.skip 1) _).mono (c.le_skip 1) fun _ _ h => h) ?_
  intro name next hlt hname
  exact .var hpeek hname

theorem word_yields (c : Cursor) : c.Yields c.word fun e d => e.IsLeaf c d := by
  unfold word
  refine Yields.bind (ident_yields c _) ?_
  intro name next hlt hname
  exact .word hname

/-! ## Operations -/

theorem join_eq {left right : Expr} {operator : Operator} {a b c d : Cursor}
    (hleft : left.range = a.rangeTo b) (hright : right.range = c.rangeTo d) (hac : a ≤ c)
    (hbd : b ≤ d) : left.join operator right = .binary (a.rangeTo d) operator left right := by
  rw [Expr.join, hleft, hright, cover_rangeTo hac hbd]

theorem Items.exists_getLast? {item : Expr} {items : List Expr} {a b : Cursor}
    (h : Expr.Items (item :: items) a b) :
    ∃ last c, (item :: items).getLast? = some last ∧ last.range = c.rangeTo b ∧ a ≤ c := by
  induction items generalizing item a with
  | nil =>
    cases h with
    | cons _ _ hitem hitems =>
      cases hitems
      exact ⟨item, _, rfl, hitem.range_eq, a.le_skipTrivia⟩
  | cons second items ih =>
    cases h with
    | cons _ _ hitem hitems =>
      obtain ⟨last, c, hlast, hrange, hle⟩ := ih hitems
      refine ⟨last, c, ?_, hrange, le_trans (le_trans a.le_skipTrivia hitem.le) hle⟩
      rw [List.getLast?_cons_cons, hlast]

/-! ## Levels -/

mutual

theorem expr_yields (c : Cursor) :
    c.Yields c.expr fun e d => ∃ b, e.Stands .list c.skipTrivia b ∧ d = b.skipTrivia := by
  rw [expr]
  refine Yields.bind (sum_yields c) ?_
  intro first next hlt hread
  obtain ⟨b, hfirst, hnext, hoperator⟩ := hread
  have hle : c ≤ next := by
    rw [hnext]
    exact le_trans c.le_skipTrivia (le_trans hfirst.le b.le_skipTrivia)
  refine Yields.bind ((items_yields next b hnext hoperator).mono hle fun _ _ h => h) ?_
  intro more last hlt' hread
  obtain ⟨d, hmore, hlast⟩ := hread
  cases more with
  | nil =>
    cases hmore
    exact ⟨b, .sum hfirst, hlast⟩
  | cons second more =>
    obtain ⟨final, e, hfinal, hrange, hbe⟩ := Items.exists_getLast? hmore
    have hcover : first.range.cover final.range = c.skipTrivia.rangeTo d := by
      rw [hfirst.range_eq, hrange, cover_rangeTo (le_trans hfirst.le hbe) hmore.le]
    simp only [hfinal, hcover]
    exact ⟨d, .list hfirst hmore, hlast⟩
termination_by (c.size, 5)

theorem items_yields (c a : Cursor) (hc : c = a.skipTrivia) (hoperator : c.additive? = none) :
    c.Yields c.items fun es d => ∃ b, Expr.Items es a b ∧ d = b.skipTrivia := by
  have hskip : c.skipTrivia = a.skipTrivia := by rw [hc, skipTrivia_skipTrivia]
  have hsize := c.size_skipTrivia_le
  rw [items]
  by_cases hstart : c.skipTrivia.peek?.any Lexeme.startsItem = true
  · simp only [hstart, if_true]
    refine Yields.bind ((sum_yields c.skipTrivia).mono c.le_skipTrivia fun _ _ h => h) ?_
    intro item next hlt hread
    obtain ⟨b, hitem, hnext, hoperator'⟩ := hread
    rw [skipTrivia_skipTrivia] at hitem
    have hle : c ≤ next := by
      rw [hnext]
      exact le_trans c.le_skipTrivia (le_trans hitem.le b.le_skipTrivia)
    refine Yields.bind ((items_yields next b hnext hoperator').mono hle fun _ _ h => h) ?_
    intro more last hlt' hread
    obtain ⟨d, hmore, hlast⟩ := hread
    rw [hskip] at hstart hitem
    exact ⟨d, .cons (hc ▸ hoperator) hstart hitem hmore, hlast⟩
  · simp only [hstart]
    exact ⟨a, .nil, hskip⟩
termination_by (c.size, 5)
decreasing_by
  · exact Prod.Lex.right' _ hsize (by omega)
  · exact Prod.Lex.left _ _ (by omega)

theorem sum_yields (c : Cursor) :
    c.Yields c.sum fun e d =>
      ∃ b, e.Stands .sum c.skipTrivia b ∧ d = b.skipTrivia ∧ d.additive? = none := by
  rw [sum]
  refine Yields.bind (product_yields c) ?_
  intro left next hlt hread
  obtain ⟨b, hleft, hnext⟩ := hread
  have hle : c ≤ next := by
    rw [hnext]
    exact le_trans c.le_skipTrivia (le_trans hleft.le b.le_skipTrivia)
  have hskip : next.skipTrivia = b.skipTrivia := by
    rw [hnext, skipTrivia_skipTrivia]
  refine Yields.bind ((sumFrom_yields left next c.skipTrivia b (.product hleft) hskip).mono hle
    fun _ _ h => h) ?_
  intro value last hlt' h
  exact h
termination_by (c.size, 4)

theorem sumFrom_yields (left : Expr) (c a b : Cursor) (hleft : left.Stands .sum a b)
    (hc : c.skipTrivia = b.skipTrivia) :
    c.Yields (c.sumFrom left) fun e d =>
      ∃ b, e.Stands .sum a b ∧ d = b.skipTrivia ∧ d.additive? = none := by
  rw [sumFrom]
  split
  · rename_i hoperator
    exact ⟨b, hleft, hc, hoperator⟩
  · rename_i operator hoperator
    have hstart : c ≤ c.skipTrivia.skip 1 := le_trans c.le_skipTrivia (le_skip _ 1)
    have hsize := size_skipTrivia_skip_lt (rest_ne_nil_of_additive? hoperator)
    refine Yields.bind ((product_yields (c.skipTrivia.skip 1)).mono hstart fun _ _ h => h) ?_
    intro right next hlt hread
    obtain ⟨d, hright, hnext⟩ := hread
    have hle : c ≤ next := by
      rw [hnext]
      exact le_trans (le_trans hstart (le_skipTrivia _)) (le_trans hright.le d.le_skipTrivia)
    have hskip : next.skipTrivia = d.skipTrivia := by
      rw [hnext, skipTrivia_skipTrivia]
    rw [hc] at hoperator hright
    have hjoin : (left.join operator right).Stands .sum a d := by
      rw [join_eq hleft.range_eq hright.range_eq (le_trans hleft.le (le_behind_operator b))
        (le_trans (le_behind_operator b) hright.le)]
      exact .add hleft hoperator hright
    refine Yields.bind ((sumFrom_yields _ next a d hjoin hskip).mono hle fun _ _ h => h) ?_
    intro value last hlt' h
    exact h
termination_by (c.size, 4)

theorem product_yields (c : Cursor) :
    c.Yields c.product fun e d => ∃ b, e.Stands .product c.skipTrivia b ∧ d = b.skipTrivia := by
  rw [product]
  refine Yields.bind (factor_yields c) ?_
  intro left next hlt hleft
  have hle : c ≤ next := le_trans c.le_skipTrivia hleft.le
  refine Yields.bind ((productFrom_yields left next c.skipTrivia next (.factor hleft) rfl).mono hle
    fun _ _ h => h) ?_
  intro value last hlt' h
  exact h
termination_by (c.size, 3)

theorem productFrom_yields (left : Expr) (c a b : Cursor) (hleft : left.Stands .product a b)
    (hc : c.skipTrivia = b.skipTrivia) :
    c.Yields (c.productFrom left) fun e d =>
      ∃ b, e.Stands .product a b ∧ d = b.skipTrivia := by
  rw [productFrom]
  split
  · exact ⟨b, hleft, hc⟩
  · rename_i operator hoperator
    have hstart : c ≤ c.skipTrivia.skip 1 := le_trans c.le_skipTrivia (le_skip _ 1)
    have hsize := size_skipTrivia_skip_lt (rest_ne_nil_of_multiplicative? hoperator)
    refine Yields.bind ((factor_yields (c.skipTrivia.skip 1)).mono hstart fun _ _ h => h) ?_
    intro right next hlt hright
    have hle : c ≤ next := le_trans (le_trans hstart (le_skipTrivia _)) hright.le
    rw [hc] at hoperator hright
    have hjoin : (left.join operator right).Stands .product a next := by
      rw [join_eq hleft.range_eq hright.range_eq (le_trans hleft.le (le_behind_operator b))
        (le_trans (le_behind_operator b) hright.le)]
      exact .multiply hleft hoperator hright
    refine Yields.bind ((productFrom_yields _ next a next hjoin rfl).mono hle fun _ _ h => h) ?_
    intro value last hlt' h
    exact h
termination_by (c.size, 3)

theorem factor_yields (c : Cursor) :
    c.Yields c.factor fun e d => e.Stands .factor c.skipTrivia d := by
  have hc := c.size_skipTrivia_le
  rw [factor]
  split
  · rename_i hsign
    have hsize := size_skipTrivia_skip_lt (rest_ne_nil_of_isNegation hsign)
    refine Yields.bind ((factor_yields (c.skipTrivia.skip 1)).mono
      (le_trans c.le_skipTrivia (le_skip _ 1)) fun _ _ h => h) ?_
    intro operand next hlt hoperand
    have hrange : (⟨c.skipTrivia.offset, operand.range.stop⟩ : Range) =
        c.skipTrivia.rangeTo next := by
      rw [hoperand.range_eq]
      rfl
    simp only [hrange]
    exact .negate hsign hoperand
  · rename_i hsign
    refine Yields.bind ((primary_yields c.skipTrivia).mono c.le_skipTrivia fun _ _ h => h) ?_
    intro value next hlt hvalue
    exact .primary (Bool.eq_false_iff.mpr hsign) hvalue
termination_by (c.size, 2)
decreasing_by
  · exact Prod.Lex.right' _ hc (by omega)
  · exact Prod.Lex.left _ _ hsize

theorem primary_yields (c : Cursor) :
    c.Yields c.primary fun e d => e.Stands .primary c d := by
  rw [primary]
  split
  · rename_i parsed hnumber
    exact .leaf (number?_isLeaf hnumber)
  · split
    · rename_i hpeek
      exact (string_yields (.inl rfl) hpeek _).mono (le_refl c) fun _ _ h => .leaf h
    · rename_i hpeek
      exact (string_yields (.inr rfl) hpeek _).mono (le_refl c) fun _ _ h => .leaf h
    · rename_i hpeek
      exact (reference_yields hpeek).mono (le_refl c) fun _ _ h => .leaf h
    · rename_i hpeek
      exact .leaf (.hash hpeek rfl)
    · rename_i hpeek
      have hsize : (c.skip 1).size < c.size := size_skip_lt Nat.one_pos (rest_ne_nil_of_peek? hpeek)
      refine Yields.bind ((expr_yields (c.skip 1)).mono (c.le_skip 1) fun _ _ h => h) ?_
      intro inner next hlt hread
      obtain ⟨b, hinner, hnext⟩ := hread
      have hle : c ≤ next := by
        rw [hnext]
        exact le_trans (le_trans (c.le_skip 1) (le_skipTrivia _))
          (le_trans hinner.le b.le_skipTrivia)
      refine Yields.bind ((expect_yields next ')').mono hle fun _ _ h => h) ?_
      intro _ last hlt' hclose
      refine .group hpeek hinner (passes_of_skipTrivia_eq hclose ?_)
      rw [hnext, skipTrivia_skipTrivia]
    · exact (word_yields c).mono (le_refl c) fun _ _ h => .leaf h
termination_by (c.size, 1)

end

end Cursor

end Stylesheet
