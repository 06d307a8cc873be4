import Stylesheet.Proofs.Syntax.Completeness

/-!
# Where blanks and comments are passed

The derivations of the grammar with the cursors at which they pass blanks and comments, from front
to back. A derivation has such a trace (`Statement.StandAll.exists_traced`), and without it is one
of the grammar (`Statement.TracedAll.standAll`).
-/

namespace Stylesheet

namespace Cursor

variable {a b : Cursor} {x : Char} {keyword name selector : String}

/-! ## Being further on -/

theorem lt_of_size_lt (hle : a ≤ b) (hlt : b.size < a.size) : a < b :=
  lt_of_le_not_ge hle fun hge => Nat.not_lt_of_le (size_le hge) hlt

theorem size_lt_of_lt (h : a < b) : b.size < a.size := by
  obtain ⟨⟨n, rfl⟩, hge⟩ := lt_iff_le_not_ge.mp h
  have hn : 0 < n := Nat.pos_of_ne_zero fun hn => hge (by rw [hn, skip])
  refine size_skip_lt hn fun hnil => hge ?_
  cases n with
  | zero => exact le_refl a
  | succ n => rw [skip, hnil]

theorem lt_skip_one (h : a.peek? = some x) : a < a.skip 1 :=
  lt_of_size_lt (a.le_skip 1) (size_skip_one_lt h)

theorem Names.lt (h : a.Names name b) : a < b := lt_of_size_lt h.le h.size_lt

theorem AtRule.lt (h : a.AtRule keyword b) : a < b := lt_of_le_of_lt (a.le_skip 1) h.2.lt

theorem OpensRule.lt (h : a.OpensRule selector b) : a < b := by
  obtain ⟨hpeek, -, -, rfl⟩ := h
  exact lt_of_le_of_lt (a.le_skip _) (lt_skip_one hpeek)

end Cursor

/-! ## Expressions -/

namespace Expr

theorem Stands.lt {level : Level} {e : Expr} {a b : Cursor} (h : e.Stands level a b) : a < b :=
  Cursor.lt_of_size_lt h.le h.size_lt

mutual

/-- An expression of a level, with the gaps in it. -/
inductive Traced : Level → Expr → Cursor → Cursor → List Cursor → Prop where
  | leaf {e : Expr} {a b : Cursor} (h : e.IsLeaf a b) : Traced .primary e a b []
  | group {e : Expr} {a b c : Cursor} {gaps : List Cursor} (hopen : a.peek? = some '(')
      (h : Traced .list e (a.skip 1).skipTrivia b gaps) (hclose : b.Passes ')' c) :
      Traced .primary (e.withRange (a.rangeTo c)) a c (a.skip 1 :: (gaps ++ [b]))
  | primary {e : Expr} {a b : Cursor} {gaps : List Cursor} (hsign : a.isNegation = false)
      (h : Traced .primary e a b gaps) : Traced .factor e a b gaps
  | negate {e : Expr} {a b : Cursor} {gaps : List Cursor} (hsign : a.isNegation = true)
      (h : Traced .factor e (a.skip 1).skipTrivia b gaps) :
      Traced .factor (.negate (a.rangeTo b) e) a b (a.skip 1 :: gaps)
  | factor {e : Expr} {a b : Cursor} {gaps : List Cursor} (h : Traced .factor e a b gaps) :
      Traced .product e a b gaps
  | multiply {left right : Expr} {a b c : Cursor} {operator : Operator}
      {gaps gaps' : List Cursor} (hleft : Traced .product left a b gaps)
      (ho : b.skipTrivia.multiplicative? = some operator)
      (hright : Traced .factor right (b.skipTrivia.skip 1).skipTrivia c gaps') :
      Traced .product (.binary (a.rangeTo c) operator left right) a c
        (gaps ++ b :: b.skipTrivia.skip 1 :: gaps')
  | product {e : Expr} {a b : Cursor} {gaps : List Cursor} (h : Traced .product e a b gaps) :
      Traced .sum e a b gaps
  | add {left right : Expr} {a b c : Cursor} {operator : Operator} {gaps gaps' : List Cursor}
      (hleft : Traced .sum left a b gaps) (ho : b.skipTrivia.additive? = some operator)
      (hright : Traced .product right (b.skipTrivia.skip 1).skipTrivia c gaps') :
      Traced .sum (.binary (a.rangeTo c) operator left right) a c
        (gaps ++ b :: b.skipTrivia.skip 1 :: gaps')
  | sum {e : Expr} {a b : Cursor} {gaps : List Cursor} (h : Traced .sum e a b gaps) :
      Traced .list e a b gaps
  | list {first second : Expr} {more : List Expr} {a b c : Cursor} {gaps gaps' : List Cursor}
      (hfirst : Traced .sum first a b gaps) (hmore : TracedItems (second :: more) b c gaps') :
      Traced .list (.list (a.rangeTo c) (first :: second :: more)) a c (gaps ++ gaps')

/-- Further items of a list, with the gaps in front of them and in them. -/
inductive TracedItems : List Expr → Cursor → Cursor → List Cursor → Prop where
  | nil {a : Cursor} : TracedItems [] a a []
  | cons {item : Expr} {items : List Expr} {a b c : Cursor} {gaps gaps' : List Cursor}
      (hoperator : a.skipTrivia.additive? = none)
      (hstart : a.skipTrivia.peek?.any Lexeme.startsItem = true)
      (hitem : Traced .sum item a.skipTrivia b gaps) (hitems : TracedItems items b c gaps') :
      TracedItems (item :: items) a c (a :: (gaps ++ gaps'))

end

mutual

theorem Traced.stands {level : Level} {e : Expr} {a b : Cursor} {gaps : List Cursor} :
    e.Traced level a b gaps → e.Stands level a b
  | .leaf h => .leaf h
  | .group hopen h hclose => .group hopen h.stands hclose
  | .primary hsign h => .primary hsign h.stands
  | .negate hsign h => .negate hsign h.stands
  | .factor h => .factor h.stands
  | .multiply hleft ho hright => .multiply hleft.stands ho hright.stands
  | .product h => .product h.stands
  | .add hleft ho hright => .add hleft.stands ho hright.stands
  | .sum h => .sum h.stands
  | .list hfirst hmore => .list hfirst.stands hmore.items

theorem TracedItems.items {items : List Expr} {a b : Cursor} {gaps : List Cursor} :
    TracedItems items a b gaps → Items items a b
  | .nil => .nil
  | .cons hoperator hstart hitem hitems => .cons hoperator hstart hitem.stands hitems.items

end

mutual

theorem Stands.exists_traced {level : Level} {e : Expr} {a b : Cursor} :
    e.Stands level a b → ∃ gaps, e.Traced level a b gaps
  | .leaf h => ⟨_, .leaf h⟩
  | .group hopen h hclose => h.exists_traced.imp' _ fun _ h => .group hopen h hclose
  | .primary hsign h => h.exists_traced.imp fun _ h => .primary hsign h
  | .negate hsign h => h.exists_traced.imp' _ fun _ h => .negate hsign h
  | .factor h => h.exists_traced.imp fun _ h => .factor h
  | .product h => h.exists_traced.imp fun _ h => .product h
  | .sum h => h.exists_traced.imp fun _ h => .sum h
  | .multiply hleft ho hright => by
    obtain ⟨gaps, hleft⟩ := hleft.exists_traced
    exact hright.exists_traced.imp' _ fun _ hright => .multiply hleft ho hright
  | .add hleft ho hright => by
    obtain ⟨gaps, hleft⟩ := hleft.exists_traced
    exact hright.exists_traced.imp' _ fun _ hright => .add hleft ho hright
  | .list hfirst hmore => by
    obtain ⟨gaps, hfirst⟩ := hfirst.exists_traced
    exact hmore.exists_traced.imp' _ fun _ hmore => .list hfirst hmore

theorem Items.exists_traced {items : List Expr} {a b : Cursor} :
    Items items a b → ∃ gaps, TracedItems items a b gaps
  | .nil => ⟨_, .nil⟩
  | .cons hoperator hstart hitem hitems => by
    obtain ⟨gaps, hitem⟩ := hitem.exists_traced
    exact hitems.exists_traced.imp' _ fun _ hitems => .cons hoperator hstart hitem hitems

end

theorem mem_gaps_of_operation {gap b c : Cursor} {gaps gaps' : List Cursor}
    (h : gap ∈ gaps ++ b :: c :: gaps') : gap ∈ gaps ∨ gap = b ∨ gap = c ∨ gap ∈ gaps' := by
  simpa using h

mutual

/-- The gaps of an expression lie behind its start. -/
theorem Traced.lt_of_mem {level : Level} {e : Expr} {a b gap : Cursor} {gaps : List Cursor}
    (hgap : gap ∈ gaps) : e.Traced level a b gaps → a < gap
  | .leaf _ => absurd hgap List.not_mem_nil
  | .group hopen h _ => by
    have hstart := lt_of_lt_of_le (Cursor.lt_skip_one hopen) (Cursor.le_skipTrivia _)
    rcases List.mem_cons.mp hgap with rfl | hgap
    · exact Cursor.lt_skip_one hopen
    rcases List.mem_append.mp hgap with hgap | hgap
    · exact lt_trans hstart (h.lt_of_mem hgap)
    · exact lt_of_lt_of_le hstart (List.mem_singleton.mp hgap ▸ h.stands.le)
  | .primary _ h | .factor h | .product h | .sum h => h.lt_of_mem hgap
  | .negate hsign h => by
    obtain ⟨_, _, hrest, -⟩ := Cursor.exists_of_isNegation hsign
    have hsign : a < a.skip 1 := Cursor.lt_skip_one (x := '-') (by rw [Cursor.peek?, hrest]; rfl)
    rcases List.mem_cons.mp hgap with rfl | hgap
    · exact hsign
    · exact lt_trans (lt_of_lt_of_le hsign (Cursor.le_skipTrivia _)) (h.lt_of_mem hgap)
  | .multiply hleft _ hright | .add hleft _ hright => by
    have hb := hleft.stands.lt
    have hoperator := lt_of_lt_of_le hb (le_trans (Cursor.le_skipTrivia _) (Cursor.le_skip _ 1))
    rcases mem_gaps_of_operation hgap with hgap | rfl | rfl | hgap
    · exact hleft.lt_of_mem hgap
    · exact hb
    · exact hoperator
    · exact lt_trans (lt_of_lt_of_le hoperator (Cursor.le_skipTrivia _)) (hright.lt_of_mem hgap)
  | .list hfirst hmore => by
    rcases List.mem_append.mp hgap with hgap | hgap
    · exact hfirst.lt_of_mem hgap
    · exact lt_of_lt_of_le hfirst.stands.lt (hmore.le_of_mem hgap)

theorem TracedItems.le_of_mem {items : List Expr} {a b gap : Cursor} {gaps : List Cursor}
    (hgap : gap ∈ gaps) : TracedItems items a b gaps → a ≤ gap
  | .nil => absurd hgap List.not_mem_nil
  | .cons _ _ hitem hitems => by
    have hstart := Cursor.le_skipTrivia a
    rcases List.mem_cons.mp hgap with rfl | hgap
    · exact le_refl _
    rcases List.mem_append.mp hgap with hgap | hgap
    · exact le_trans hstart (le_of_lt (hitem.lt_of_mem hgap))
    · exact le_trans (le_trans hstart hitem.stands.le) (hitems.le_of_mem hgap)

end

end Expr

/-! ## Statements -/

namespace Statement

mutual

/-- A statement, with the gaps in it. -/
inductive Traced : Bool → Statement → Cursor → Cursor → List Cursor → Prop where
  | assign {isBlock : Bool} {name : String} {value : Expr} {a b c d e : Cursor}
      {gaps : List Cursor} (hpeek : a.peek? = some '$') (hname : (a.skip 1).Names name b)
      (hcolon : b.Passes ':' c) (hvalue : value.Traced .list c.skipTrivia d gaps)
      (hend : d.Passes ';' e) :
      Traced isBlock (.assign (a.rangeTo d) name value) a e (b :: c :: (gaps ++ [d]))
  | warn {isBlock : Bool} {value : Expr} {a b c d : Cursor} {gaps : List Cursor}
      (hat : a.AtRule "warn" b) (hvalue : value.Traced .list b.skipTrivia c gaps)
      (hend : c.Passes ';' d) :
      Traced isBlock (.warn (a.rangeTo c) value) a d (b :: (gaps ++ [c]))
  | debug {isBlock : Bool} {value : Expr} {a b c d : Cursor} {gaps : List Cursor}
      (hat : a.AtRule "debug" b) (hvalue : value.Traced .list b.skipTrivia c gaps)
      (hend : c.Passes ';' d) :
      Traced isBlock (.debug (a.rangeTo c) value) a d (b :: (gaps ++ [c]))
  | defineMixin {isBlock : Bool} {name : String} {body : List Statement} {a b c d e f : Cursor}
      {gaps : List Cursor} (hat : a.AtRule "mixin" b) (hname : b.skipTrivia.Names name c)
      (hopen : c.Passes '{' d) (hbody : TracedAll true body d e gaps) (hclose : e.Passes '}' f) :
      Traced isBlock (.defineMixin (a.rangeTo f) name body) a f (b :: c :: gaps)
  | includeMixin {isBlock : Bool} {name : String} {a b c d : Cursor} (hat : a.AtRule "include" b)
      (hname : b.skipTrivia.Names name c) (hend : c.Passes ';' d) :
      Traced isBlock (.includeMixin (a.rangeTo c) name) a d [b, c]
  | declaration {property : String} {value : Expr} {a b c d e : Cursor} {gaps : List Cursor}
      (hlook : Lexeme.looksLikeDeclaration a.rest = true) (hname : a.Names property b)
      (hcolon : b.Passes ':' c) (hvalue : value.Traced .list c.skipTrivia d gaps)
      (hend : d.EndsDeclaration e) :
      Traced true (.declaration (a.rangeTo d) property value) a e (b :: c :: (gaps ++ [d]))
  | rule {isBlock : Bool} {selector : String} {body : List Statement} {a b c d : Cursor}
      {gaps : List Cursor} (hsign : a.peek? ≠ some '$') (hat : a.peek? ≠ some '@')
      (hlook : (isBlock && Lexeme.looksLikeDeclaration a.rest) = false)
      (hopen : a.OpensRule selector b) (hbody : TracedAll true body b c gaps)
      (hclose : c.Passes '}' d) :
      Traced isBlock (.rule (a.rangeTo d) selector body) a d gaps

/-- Statements up to a closing brace or the end of the text, with the gaps in front of them, in
them and behind them. -/
inductive TracedAll : Bool → List Statement → Cursor → Cursor → List Cursor → Prop where
  | nil {isBlock : Bool} {a : Cursor}
      (hend : a.skipTrivia.peek? = none ∨ a.skipTrivia.peek? = some '}') :
      TracedAll isBlock [] a a.skipTrivia [a]
  | cons {isBlock : Bool} {statement : Statement} {statements : List Statement} {a b c : Cursor}
      {gaps gaps' : List Cursor} (hmore : a.skipTrivia.peek? ≠ some '}')
      (hfirst : Traced isBlock statement a.skipTrivia b gaps)
      (hrest : TracedAll isBlock statements b c gaps') :
      TracedAll isBlock (statement :: statements) a c (a :: (gaps ++ gaps'))

end

mutual

theorem Traced.stands {isBlock : Bool} {s : Statement} {a b : Cursor} {gaps : List Cursor} :
    s.Traced isBlock a b gaps → s.Stands isBlock a b
  | .assign hpeek hname hcolon hvalue hend => .assign hpeek hname hcolon hvalue.stands hend
  | .warn hat hvalue hend => .warn hat hvalue.stands hend
  | .debug hat hvalue hend => .debug hat hvalue.stands hend
  | .defineMixin hat hname hopen hbody hclose => .defineMixin hat hname hopen hbody.standAll hclose
  | .includeMixin hat hname hend => .includeMixin hat hname hend
  | .declaration hlook hname hcolon hvalue hend =>
    .declaration hlook hname hcolon hvalue.stands hend
  | .rule hsign hat hlook hopen hbody hclose => .rule hsign hat hlook hopen hbody.standAll hclose

theorem TracedAll.standAll {isBlock : Bool} {statements : List Statement} {a b : Cursor}
    {gaps : List Cursor} : TracedAll isBlock statements a b gaps → StandAll isBlock statements a b
  | .nil hend => .nil hend
  | .cons hmore hfirst hrest => .cons hmore hfirst.stands hrest.standAll

end

mutual

theorem Stands.exists_traced {isBlock : Bool} {s : Statement} {a b : Cursor} :
    s.Stands isBlock a b → ∃ gaps, s.Traced isBlock a b gaps
  | .assign hpeek hname hcolon hvalue hend =>
    hvalue.exists_traced.imp' _ fun _ hvalue => .assign hpeek hname hcolon hvalue hend
  | .warn hat hvalue hend =>
    hvalue.exists_traced.imp' _ fun _ hvalue => .warn hat hvalue hend
  | .debug hat hvalue hend =>
    hvalue.exists_traced.imp' _ fun _ hvalue => .debug hat hvalue hend
  | .defineMixin hat hname hopen hbody hclose =>
    hbody.exists_traced.imp' _ fun _ hbody => .defineMixin hat hname hopen hbody hclose
  | .includeMixin hat hname hend => ⟨_, .includeMixin hat hname hend⟩
  | .declaration hlook hname hcolon hvalue hend =>
    hvalue.exists_traced.imp' _ fun _ hvalue => .declaration hlook hname hcolon hvalue hend
  | .rule hsign hat hlook hopen hbody hclose =>
    hbody.exists_traced.imp fun _ hbody => .rule hsign hat hlook hopen hbody hclose

theorem StandAll.exists_traced {isBlock : Bool} {statements : List Statement} {a b : Cursor} :
    StandAll isBlock statements a b → ∃ gaps, TracedAll isBlock statements a b gaps
  | .nil hend => ⟨_, .nil hend⟩
  | .cons hmore hfirst hrest => by
    obtain ⟨gaps, hfirst⟩ := hfirst.exists_traced
    exact hrest.exists_traced.imp' _ fun _ hrest => .cons hmore hfirst hrest

end

/-- The gaps around and in a value. -/
theorem le_of_mem_value {value : Expr} {c d gap : Cursor} {gaps : List Cursor}
    (hvalue : value.Traced .list c.skipTrivia d gaps) (hgap : gap ∈ c :: (gaps ++ [d])) :
    c ≤ gap := by
  have hstart := Cursor.le_skipTrivia c
  rcases List.mem_cons.mp hgap with rfl | hgap
  · exact le_refl _
  rcases List.mem_append.mp hgap with hgap | hgap
  · exact le_trans hstart (le_of_lt (hvalue.lt_of_mem hgap))
  · exact le_trans hstart (List.mem_singleton.mp hgap ▸ hvalue.stands.le)

theorem lt_of_mem_value {value : Expr} {a b c d gap : Cursor} {gaps : List Cursor} (hb : a < b)
    (hc : a < c) (hvalue : value.Traced .list c.skipTrivia d gaps)
    (hgap : gap ∈ b :: c :: (gaps ++ [d])) : a < gap := by
  rcases List.mem_cons.mp hgap with rfl | hgap
  · exact hb
  · exact lt_of_lt_of_le hc (le_of_mem_value hvalue hgap)

mutual

/-- The gaps of a statement lie behind its start. -/
theorem Traced.lt_of_mem {isBlock : Bool} {s : Statement} {a b gap : Cursor} {gaps : List Cursor}
    (hgap : gap ∈ gaps) : s.Traced isBlock a b gaps → a < gap
  | .assign _ hname hcolon hvalue _ => by
    have hb := lt_of_le_of_lt (a.le_skip 1) hname.lt
    have hc := lt_of_lt_of_le hb hcolon.le
    exact lt_of_mem_value hb hc hvalue hgap
  | .declaration _ hname hcolon hvalue _ =>
    lt_of_mem_value hname.lt (lt_of_lt_of_le hname.lt hcolon.le) hvalue hgap
  | .warn hat hvalue _ | .debug hat hvalue _ => by
    exact lt_of_lt_of_le hat.lt (le_of_mem_value hvalue hgap)
  | .defineMixin hat hname hopen hbody _ => by
    have hc := lt_of_lt_of_le hat.lt (le_trans (Cursor.le_skipTrivia _) hname.le)
    rcases List.mem_cons.mp hgap with rfl | hgap
    · exact hat.lt
    rcases List.mem_cons.mp hgap with rfl | hgap
    · exact hc
    · exact lt_of_lt_of_le hc (le_trans hopen.le (hbody.le_of_mem hgap))
  | .includeMixin hat hname _ => by
    rcases List.mem_cons.mp hgap with rfl | hgap
    · exact hat.lt
    · rw [List.mem_singleton.mp hgap]
      exact lt_of_lt_of_le hat.lt (le_trans (Cursor.le_skipTrivia _) hname.le)
  | .rule _ _ _ hopen hbody _ => lt_of_lt_of_le hopen.lt (hbody.le_of_mem hgap)

theorem TracedAll.le_of_mem {isBlock : Bool} {statements : List Statement} {a b gap : Cursor}
    {gaps : List Cursor} (hgap : gap ∈ gaps) : TracedAll isBlock statements a b gaps → a ≤ gap
  | .nil _ => le_of_eq (List.mem_singleton.mp hgap).symm
  | .cons _ hfirst hrest => by
    have hstart := Cursor.le_skipTrivia a
    rcases List.mem_cons.mp hgap with rfl | hgap
    · exact le_refl _
    rcases List.mem_append.mp hgap with hgap | hgap
    · exact le_trans hstart (le_of_lt (hfirst.lt_of_mem hgap))
    · exact le_trans (le_trans hstart hfirst.stands.le) (hrest.le_of_mem hgap)

end

end Statement

/-! ## Whole texts -/

/-- Whether a cursor is one at which blanks and comments are passed in an accepted text. -/
def Cursor.IsGap (source : String) (gap : Cursor) : Prop :=
  ∃ statements last gaps,
    Statement.TracedAll false statements (start source.toList) last gaps ∧ last.rest = [] ∧
      gap ∈ gaps

theorem Cursor.IsGap.start_le {source : String} {gap : Cursor} (h : IsGap source gap) :
    start source.toList ≤ gap := by
  obtain ⟨_, _, _, htraced, _, hgap⟩ := h
  exact htraced.le_of_mem hgap

/-- A text of one message whose expression stands up to the semicolon, with its gaps from the
keyword on. -/
theorem parse_debug_of_traced {source : String} {rest : List Char} {value : Expr} {last : Cursor}
    {gaps : List Cursor} (hsource : source.toList = '@' :: ("debug".toList ++ ' ' :: rest))
    (hvalue : value.Traced .list (Cursor.mk 6 (some 'g') (' ' :: rest)).skipTrivia last gaps)
    (hend : last.skipTrivia.rest = [';']) :
    parse source = .ok [.debug ⟨0, value.range.stop⟩ value] ∧
      ∀ gap ∈ ⟨6, some 'g', ' ' :: rest⟩ :: (gaps ++ [last]), gap.IsGap source := by
  have hstart : (Cursor.start source.toList).skipTrivia = Cursor.start source.toList := by
    refine Cursor.skipTrivia_eq_self ?_
    rw [hsource]
    exact Lexeme.isSolid_cons (by decide) (by decide)
  have hat : (Cursor.start source.toList).AtRule "debug" ⟨6, some 'g', ' ' :: rest⟩ := by
    rw [hsource]
    exact ⟨rfl, Cursor.names_of_ident (c := ⟨1, some '@', "debug".toList ++ ' ' :: rest⟩)
      (Lexeme.ident_of_isName isName_keyword.2.1 (by decide)) (by decide)⟩
  have hclose : last.Passes ';' (last.skipTrivia.skip 1) := by
    refine ⟨?_, rfl⟩
    rw [Cursor.peek?, hend]
    rfl
  have hnil : (last.skipTrivia.skip 1).skipTrivia.rest = [] := by
    rw [Cursor.skipTrivia, Cursor.rest_skip, Cursor.rest_skip, hend]
    rfl
  have hfirst : Statement.Traced false (.debug ((Cursor.start source.toList).rangeTo last) value)
      (Cursor.start source.toList).skipTrivia (last.skipTrivia.skip 1)
      (⟨6, some 'g', ' ' :: rest⟩ :: (gaps ++ [last])) := by
    rw [hstart]
    exact .debug hat hvalue hclose
  have htraced := Statement.TracedAll.cons (by rw [hstart, hat.1]; decide) hfirst
    (.nil (.inl (List.head?_eq_none_iff.mpr hnil)))
  have hrange : (Cursor.start source.toList).rangeTo last = ⟨0, value.range.stop⟩ := by
    rw [hvalue.stands.range_eq]
    rfl
  refine ⟨?_, fun gap hgap => ⟨_, _, _, htraced, hnil, ?_⟩⟩
  · rw [← hrange]
    exact parse_eq_ok_iff.mpr ⟨_, htraced.standAll, hnil⟩
  · exact List.mem_cons_of_mem _ (List.mem_append_left _ hgap)

end Stylesheet
