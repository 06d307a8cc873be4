import Stylesheet.Proofs.Syntax.ExpressionLocality
import Stylesheet.Proofs.Syntax.ExpressionShifting
import Stylesheet.Proofs.Syntax.Gaps

/-!
# The text of an expression

The range of an expression is exactly its own text: that text by itself is read as the same
expression again (`expr_stands_alone`), whatever stood around it.
-/

namespace Stylesheet

open Cursor (Reaches)

/-! ## Where expressions stand -/

namespace Expr

/-- What holds together at a level is a whole expression. -/
theorem Stands.list_of_level {level : Level} {e : Expr} {a b : Cursor} (h : e.Stands level a b) :
    e.Stands .list a b := by
  cases level with
  | primary => exact .sum (.product (.factor (.primary h.isNegation_eq_false h)))
  | factor => exact .sum (.product (.factor h))
  | product => exact .sum (.product h)
  | sum => exact .sum h
  | list => exact h

end Expr

/-- The expression of a statement has something behind it in the text. -/
theorem Statement.Stands.exists_value {isBlock : Bool} {s : Statement} {value : Expr}
    {a b : Cursor} (h : s.Stands isBlock a b) (hvalue : s.value? = some value) :
    ∃ c d, value.Stands .list c d ∧ a ≤ c ∧ d.rest ≠ [] := by
  have hne {d : Cursor} {x : Char} (h : d.skipTrivia.peek? = some x) : d.rest ≠ [] := by
    intro hnil
    have hrest : d.skipTrivia.rest = [] := by rw [Cursor.skipTrivia, Cursor.rest_skip, hnil]; simp
    simp [Cursor.peek?, hrest] at h
  cases h with
  | assign _ hname hcolon hstands hend =>
    obtain rfl := Option.some.inj hvalue
    exact ⟨_, _, hstands, le_trans (a.le_skip 1) (le_trans hname.le (le_trans hcolon.le
      (Cursor.le_skipTrivia _))), hne hend.1⟩
  | warn hat hstands hend =>
    obtain rfl := Option.some.inj hvalue
    exact ⟨_, _, hstands, le_trans hat.le (Cursor.le_skipTrivia _), hne hend.1⟩
  | debug hat hstands hend =>
    obtain rfl := Option.some.inj hvalue
    exact ⟨_, _, hstands, le_trans hat.le (Cursor.le_skipTrivia _), hne hend.1⟩
  | declaration _ hname hcolon hstands hend =>
    obtain rfl := Option.some.inj hvalue
    refine ⟨_, _, hstands, le_trans hname.le (le_trans hcolon.le (Cursor.le_skipTrivia _)), ?_⟩
    obtain ⟨hpeek, -⟩ | hend := hend
    · exact hne hpeek
    · exact hne hend.1
  | defineMixin | includeMixin | rule => simp [value?] at hvalue

/-- An expression of an accepted text stands somewhere in it. -/
theorem exists_stands_of_mem_exprs {source : String} {statements : List Statement}
    (h : parse source = .ok statements) {s : Statement} (hs : s ∈ Statement.nodesIn statements)
    {e : Expr} (he : e ∈ s.exprs) : ∃ level a b, e.Stands level a b ∧
      Cursor.start source.toList ≤ a ∧ b.rest ≠ [] := by
  obtain ⟨last, hstands⟩ := parse_stands h
  obtain ⟨value, hvalue, hnode⟩ := List.mem_flatMap.mp he
  obtain ⟨isBlock, a, b, hstatement, ha, -⟩ := hstands.within_of_mem_nodesIn hs
  obtain ⟨c, d, hexpr, hac, hne⟩ := hstatement.exists_value (Option.mem_toList.mp hvalue)
  obtain ⟨level, c', d', hnode, hc, hd⟩ := hexpr.within_of_mem_nodes hnode
  refine ⟨level, c', d', hnode, le_trans ha (le_trans hac hc), fun hnil => hne ?_⟩
  have hsize := Cursor.size_le hd
  rw [Cursor.size, Cursor.size, hnil] at hsize
  exact List.length_eq_zero_iff.mp (Nat.le_zero.mp hsize)

/-! ## The expression of a message -/

/-- A text of one message whose expression stands up to the semicolon. -/
theorem parse_debug_of_stands {source : String} {rest : List Char} {value : Expr} {last : Cursor}
    (hsource : source.toList = '@' :: ("debug".toList ++ ' ' :: rest))
    (hvalue : value.Stands .list ⟨7, some ' ', rest⟩ last) (hend : last.skipTrivia.rest = [';']) :
    parse source = .ok [.debug ⟨0, value.range.stop⟩ value] := by
  have hstart : (Cursor.mk 6 (some 'g') (' ' :: rest)).skipTrivia = ⟨7, some ' ', rest⟩ := by
    rw [Cursor.Faces.skipTrivia_of_blank rfl (by decide)]
    exact Cursor.skipTrivia_eq_self hvalue.isSolid
  rw [← hstart] at hvalue
  obtain ⟨gaps, htraced⟩ := hvalue.exists_traced
  exact (parse_debug_of_traced hsource htraced hend).1

/-- The text of an expression that stands somewhere, in front of a semicolon. -/
theorem Expr.Stands.reaches_text {level : Level} {e : Expr} {a b : Cursor} {text : List Char}
    (h : e.Stands level a b) (hrest : a.rest = text ++ b.rest) (hne : b.rest ≠ []) :
    ∃ last, Reaches (Cursor.mk a.offset a.previous (text ++ [';'])).expr e last ∧
      last.rest = [';'] ∧ Lexeme.IsSolid (text ++ [';']) := by
  have hends : Lexeme.Ends ';' := Lexeme.ends_of_eq (.inl rfl)
  have htwins : Cursor.Twins b.rest [';'] a ⟨a.offset, a.previous, text ++ [';']⟩ :=
    ⟨rfl, rfl, text, hrest, rfl, .inr (.inr ⟨hne, ';', rfl, hends⟩)⟩
  obtain ⟨b', h', hb⟩ := h.twins htwins (le_refl _)
  obtain ⟨u, hu, hu', -⟩ := hb.rest
  obtain rfl : u = [] := List.self_eq_append_left.mp hu
  have hsolid : Lexeme.IsSolid b'.rest := by
    rw [hu']
    exact Lexeme.isSolid_cons (by decide) (by decide)
  have hlast := Cursor.skipTrivia_eq_self hsolid
  have hclose : b'.skipTrivia.peek? = some ';' := by
    rw [hlast, Cursor.peek?, hu']
    rfl
  have hlist := h'.list_of_level
  rw [← Cursor.skipTrivia_eq_self h'.isSolid] at hlist
  exact ⟨b'.skipTrivia, hlist.reaches (Cursor.endsList_of_peek? hclose (by decide)),
    by rw [hlast, hu']; rfl, h'.isSolid⟩

/-- Every expression's range is exactly its own text. In an accepted text, an expression covers a
stretch between two characters; that stretch, in a message of its own, is accepted again, and the
message has the same expression in it, with all ranges shifted from where it stood to where it
stands now: counted from its own start, they are the same. -/
theorem expr_stands_alone {source : String} {statements : List Statement}
    (h : parse source = .ok statements) {s : Statement} (hs : s ∈ Statement.nodesIn statements)
    {e : Expr} (he : e ∈ s.exprs) :
    ∃ (front text rest : List Char) (own : Expr), e.range.Cuts source front text rest ∧
      e = own.mapRange (Range.shift e.range.start) ∧
      parse (String.ofList ("@debug ".toList ++ text ++ [';'])) =
        .ok [.debug ⟨0, 7 + Text.byteLength text⟩ (own.mapRange (Range.shift 7))] := by
  obtain ⟨level, a, b, hstands, ha, hne⟩ := exists_stands_of_mem_exprs h hs he
  obtain ⟨front, hfront, hstart⟩ := Cursor.exists_front ha
  obtain ⟨text, hrest, hstop⟩ := Cursor.exists_between hstands.le
  have hrange := hstands.range_eq
  have hcuts : e.range.Cuts source front text b.rest := by
    rw [hrange]
    refine ⟨by rw [hfront, hrest, List.append_assoc], hstart, ?_⟩
    rw [Cursor.rangeTo, hstop, hstart, Text.byteLength_append]
  -- counted from its own start, and from there to where the message has it
  obtain ⟨last, hreach, hlast, hsolid⟩ := hstands.reaches_text hrest hne
  have hmeets : Cursor.Meets a.offset ⟨0, none, text ++ [';']⟩
      ⟨a.offset, a.previous, text ++ [';']⟩ := ⟨(Nat.zero_add _).symm, rfl⟩
  obtain ⟨own, next, hown, rfl, rfl⟩ := (Cursor.expr_shifts hmeets).exists_reaches hreach
  have hmeets' : Cursor.Meets 7 ⟨0, none, text ++ [';']⟩ ⟨7, some ' ', text ++ [';']⟩ := ⟨rfl, rfl⟩
  obtain ⟨nearer, hmessage⟩ := (Cursor.expr_shifts hmeets').reaches hown
  have hyields := Cursor.expr_yields ⟨7, some ' ', text ++ [';']⟩
  rw [hmessage] at hyields
  obtain ⟨b', hvalue, hb'⟩ := hyields
  rw [Cursor.skipTrivia_eq_self (a := ⟨7, some ' ', text ++ [';']⟩) hsolid] at hvalue
  have hlength : own.range.stop = Text.byteLength text := by
    have hshifted := congrArg Range.stop hrange
    simp only [Expr.range_mapRange, Range.shift, Cursor.rangeTo, hstop] at hshifted
    omega
  have hsource : (String.ofList ("@debug ".toList ++ text ++ [';'])).toList =
      '@' :: ("debug".toList ++ ' ' :: (text ++ [';'])) := by simp
  refine ⟨front, text, b.rest, own, hcuts, ?_, ?_⟩
  · rw [hrange]
    rfl
  · rw [parse_debug_of_stands hsource hvalue (by rw [← hb']; exact hlast), Expr.range_mapRange,
      Range.shift, hlength, Nat.add_comm 7]

/-- A list of two words, the second of which starts with a hyphen. -/
theorem traced_spaced :
    (Expr.list ⟨7, 14⟩ [.text ⟨7, 8⟩ "a" false, .text ⟨12, 14⟩ "-b" false]).Traced .list
      ⟨7, some ' ', "a    -b;".toList⟩ ⟨14, some 'b', [';']⟩
      [⟨8, some 'a', "    -b;".toList⟩] := by
  have hfirst : (Cursor.mk 7 (some ' ') "a    -b;".toList).Names "a"
      ⟨8, some 'a', "    -b;".toList⟩ := Cursor.names_of_ident (by decide +kernel) (by decide)
  have hsecond : (Cursor.mk 12 (some ' ') "-b;".toList).Names "-b" ⟨14, some 'b', [';']⟩ :=
    Cursor.names_of_ident (by decide +kernel) (by decide)
  have hgap : (Cursor.mk 8 (some 'a') "    -b;".toList).skipTrivia =
      ⟨12, some ' ', "-b;".toList⟩ := by decide +kernel
  have hstart : Lexeme.startsItem '-' = true := Lexeme.startsItem_of_mem (by decide)
  have hitem : (Expr.text ⟨12, 14⟩ "-b" false).Traced .sum
      (Cursor.mk 8 (some 'a') "    -b;".toList).skipTrivia ⟨14, some 'b', [';']⟩ [] := by
    rw [hgap]
    exact .product (.factor (.primary (by decide) (.leaf (.word hsecond))))
  have hitems :=
    Expr.TracedItems.cons (by rw [hgap]; decide) (by rw [hgap]; exact hstart) hitem .nil
  exact Expr.Traced.list (.product (.factor (.primary (by decide) (.leaf (.word hfirst))))) hitems

theorem parse_debug_spaced : parse "@debug a    -b;" =
    .ok [.debug ⟨0, 14⟩ (.list ⟨7, 14⟩ [.text ⟨7, 8⟩ "a" false, .text ⟨12, 14⟩ "-b" false])] :=
  parse_debug_of_stands (by decide) traced_spaced.stands (by decide)

/-- The second word by itself. -/
theorem expr_stands_alone_item :
    let source := "@debug a    -b;"
    let item := Expr.text ⟨12, 14⟩ "-b" false
    parse source = .ok [.debug ⟨0, 14⟩ (.list ⟨7, 14⟩ [.text ⟨7, 8⟩ "a" false, item])] ∧
      ∃ (front text rest : List Char) (own : Expr), item.range.Cuts source front text rest ∧
        item = own.mapRange (Range.shift 12) ∧
        parse (String.ofList ("@debug ".toList ++ text ++ [';'])) =
          .ok [.debug ⟨0, 7 + Text.byteLength text⟩ (own.mapRange (Range.shift 7))] := by
  intro source item
  refine ⟨parse_debug_spaced, expr_stands_alone parse_debug_spaced (List.mem_cons_self ..) ?_⟩
  simp [item, Statement.exprs, Statement.value?, Expr.nodes, Expr.inner, Expr.nodesIn]

end Stylesheet
