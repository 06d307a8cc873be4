import Stylesheet.Proofs.Syntax.StatementRoundTrip

/-!
# Accepted texts

What the parser makes of a text that is one message, down to the ranges, and of the lines of a
style sheet.
-/

namespace Stylesheet

open Cursor (Reaches)

/-- A leaf in front of a semicolon is an expression by itself. -/
theorem Cursor.reaches_expr_of_primary {c next : Cursor} {value : Expr} {rest : List Char}
    (hnegation : c.skipTrivia.isNegation = false)
    (hprimary : Reaches c.skipTrivia.primary value next) (hend : next.rest = ';' :: rest) :
    Reaches c.expr value next := by
  have hclose : Closes (';' :: rest) := ⟨';', rest, rfl, .inr rfl⟩
  have hfaces : next.Faces (';' :: rest) := faces_of_rest_eq hend
  have hstays : next.skipTrivia = next := by
    have hsolid : Lexeme.triviaLength .blanks next.rest = 0 := by
      rw [hend]
      exact hclose.isSolid
    rw [skipTrivia, hsolid, skip]
  have hproduct : Reaches c.product value next := by
    have hmore := reaches_productFrom_of_follows hfaces (.closing hclose) value
    rw [hstays] at hmore
    exact reaches_product (reaches_factor_of_primary hnegation hprimary) hmore
  have hsum : Reaches c.sum value next := by
    have hmore := reaches_sumFrom_of_follows hfaces (.closing hclose) value
    rw [hstays] at hmore
    exact reaches_sum hproduct hmore
  have hitems := reaches_items_of_closes hclose hfaces
  rw [hstays] at hitems
  rw [expr]
  exact hsum.bind fun _ => hitems.bind fun _ => ⟨_, rfl⟩

/-- A text of one statement. -/
theorem parse_of_statement {source : String} {x : Char} {s : List Char} {first : Statement}
    {next : Cursor} (hsource : source.toList = x :: s) (hx : x ≠ '\x7d')
    (hsolid : Lexeme.IsSolid (x :: s))
    (hfirst : Reaches ((Cursor.start source.toList).statement false) first next)
    (hnext : next.Faces []) : parse source = .ok [first] := by
  have hpeek : (Cursor.start (x :: s)).skipTrivia.peek? = some x :=
    Cursor.Faces.peek?_skipTrivia ⟨_, rfl, rfl⟩ hsolid
  have hstays : (Cursor.start (x :: s)).skipTrivia = Cursor.start (x :: s) := by
    have hlength : Lexeme.triviaLength .blanks (Cursor.start (x :: s)).rest = 0 := hsolid
    rw [Cursor.skipTrivia, hlength, Cursor.skip]
  have hmore : Reaches (next.statements false) [] next.skipTrivia :=
    Cursor.reaches_statements_of_end hnext (.inl rfl)
  apply parse_of_reaches _ hnext.skipTrivia
  rw [hsource] at hfirst ⊢
  rw [← hstays] at hfirst
  exact Cursor.reaches_statements_of_first hpeek hx hfirst hmore

/-- A text of one `@debug` statement, whose expression comes to the end but for the semicolon. -/
theorem parse_debug {source : String} {rest : List Char} {value : Expr} {last : Cursor}
    (hsource : source.toList = '@' :: ("debug".toList ++ ' ' :: rest))
    (hexpr : Reaches (Cursor.mk 6 (some 'g') (' ' :: rest)).expr value last)
    (hend : last.rest = [';']) :
    parse source = .ok [.debug ⟨0, value.range.stop⟩ value] := by
  let first : Cursor := ⟨0, none, '@' :: ("debug".toList ++ ' ' :: rest)⟩
  have hkeyword : Reaches ((first.skip 1).ident .atRuleName) "debug" ⟨6, some 'g', ' ' :: rest⟩ :=
    Cursor.reaches_ident_skip isName_keyword.2.1 (by decide) rfl .atRuleName
  obtain ⟨next, hclose, hnext⟩ := Cursor.reaches_expect hend (by decide) (by decide)
  have hmessage : Reaches ((Cursor.mk 6 (some 'g') (' ' :: rest)).message first.offset)
      (⟨0, value.range.stop⟩, value) next := by
    rw [Cursor.message]
    exact hexpr.bind fun _ => hclose.bind fun _ => ⟨_, rfl⟩
  have hfirst : Reaches (first.statement false) (.debug ⟨0, value.range.stop⟩ value) next :=
    Cursor.reaches_statement_of_debug rfl hkeyword hmessage
  apply parse_of_statement hsource (by decide) (Lexeme.isSolid_cons (by decide) (by decide))
  · rw [hsource]
    exact hfirst
  · exact Cursor.faces_of_rest_eq hnext

/-- The lines of a style sheet are accepted as the style sheet itself is, although they start with a
line feed. -/
theorem parse_lines (also : Place → Term → Bool) {clauses : List Clause}
    (h : ∀ clause ∈ clauses, clause.IsWellFormed false) :
    ∃ ss, parse (String.ofList (Clause.lines also clauses)) = .ok ss ∧
      Statement.unplacedAll ss = Clause.trees clauses := by
  have hreads : ∀ clause ∈ clauses, ReadsClause also false clause := fun clause hclause =>
    (h clause hclause).reads
  have hfaces : (Cursor.start (Clause.lines also clauses)).Faces
      (Clause.lines also clauses ++ []) := by
    apply Cursor.faces_of_rest_eq
    rw [List.append_nil]
    rfl
  obtain ⟨ss, last, hss, htrees, hlast⟩ := reaches_lines h hreads (.inl rfl) _ hfaces
  refine ⟨ss, parse_of_reaches ?_ hlast, htrees⟩
  rw [String.toList_ofList]
  exact hss

end Stylesheet
