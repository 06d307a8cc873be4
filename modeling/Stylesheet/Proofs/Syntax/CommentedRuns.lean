import Stylesheet.Proofs.Syntax.BlankRuns
import Stylesheet.Proofs.Syntax.OwnText

/-!
# Comments in place of spaces

An accepted text with a block comment in place of a run of spaces is accepted as well, with the same
statements and ranges, as long as no minus, slash or opening brace gets another meaning from it
(`parse_commented`).
-/

namespace Stylesheet

open Lexeme (blockComment)
open Cursor (Meets Twins)

/-! ## Items behind others -/

namespace Expr

mutual

/-- The items of the lists in an expression that stand behind another item. -/
def furtherItems : Expr → List Expr
  | binary _ _ left right => left.furtherItems ++ right.furtherItems
  | negate _ operand => operand.furtherItems
  | list _ (first :: items) => first.furtherItems ++ furtherItemsIn items
  | _ => []

/-- Items that stand behind another one, and those in them. -/
def furtherItemsIn : List Expr → List Expr
  | [] => []
  | item :: items => item :: (item.furtherItems ++ furtherItemsIn items)

end

@[simp] theorem furtherItems_withRange (range : Range) (e : Expr) :
    (e.withRange range).furtherItems = e.furtherItems := by
  cases e with
  | list _ items => cases items <;> rfl
  | _ => rfl

end Expr

/-! ## Marks -/

namespace Lexeme

variable {u s t : List Char}

theorem looksLikeDeclaration_of_marked (h : ∃ x ∈ u, isStatementMark x = true) (s t : List Char) :
    looksLikeDeclaration (u ++ s) = looksLikeDeclaration (u ++ t) := by
  obtain ⟨x, hmem, hx⟩ := h
  exact looksLikeDeclaration_congr (length_head_lt hx hmem t)

theorem looksLikeDeclaration_of_unmarked (h : ¬∃ x ∈ u, isStatementMark x = true) (s : List Char) :
    looksLikeDeclaration (u ++ s) = looksLikeDeclaration s := by
  have hrun : head (u ++ s) = u ++ head s := by
    refine List.takeWhile_append_of_pos fun x hx => ?_
    simpa using fun hmark => h ⟨x, hx, hmark⟩
  rw [looksLikeDeclaration, looksLikeDeclaration, hrun, List.length_append, List.drop_append]
  simp

/-- A block comment whose first mark opens no block leaves a declaration one. -/
theorem looksLikeDeclaration_blockComment {text : List Char}
    (htext : looksLikeDeclaration text = true) (h : looksLikeDeclaration s = true) :
    looksLikeDeclaration (blockComment text ++ s) = true := by
  have hparts : blockComment text ++ s = ['/', '*'] ++ (text ++ (['*', '/'] ++ s)) := by
    simp [blockComment]
  rw [hparts, looksLikeDeclaration_of_unmarked (by simp [isStatementMark])]
  by_cases hmarked : ∃ x ∈ text, isStatementMark x = true
  · rw [looksLikeDeclaration_of_marked hmarked _ [], List.append_nil]
    exact htext
  · rwa [looksLikeDeclaration_of_unmarked hmarked,
      looksLikeDeclaration_of_unmarked (by simp [isStatementMark])]

end Lexeme

namespace BlankRun

variable {source : String} {text : List Char}

/-- Whether a comment in place of a run leaves a statement what it is. -/
structure FitsIn (run : BlankRun source) (text : List Char) (s : Statement) : Prop where
  /-- No minus right behind the run starts an item behind another one. With no blank in front of it,
  it would be an operator. -/
  item : run.back.head? = some '-' → ∀ value, s.value? = some value →
    ∀ item ∈ value.furtherItems, item.range.start ≠ run.stop
  /-- If an opening brace is the first mark in the comment, then a declaration that starts in front
  of the run has a mark in front of it as well. -/
  mark : Lexeme.looksLikeDeclaration text = false → ∀ range property value,
    s = .declaration range property value → ∀ u v, run.front = u ++ v →
      range.start = Text.byteLength u → ∃ x ∈ v, Lexeme.isStatementMark x = true

variable {run : BlankRun source}

/-- A declaration with a run in it looks like one with the comment in its place. -/
theorem looksLikeDeclaration_commented {a a' : Cursor}
    (hstart : Cursor.start source.toList ≤ a) (htwins : Twins run.near (run.overlaid text) a a')
    (hmark : Lexeme.looksLikeDeclaration text = false → ∀ u v, run.front = u ++ v →
      a.offset = Text.byteLength u → ∃ x ∈ v, Lexeme.isStatementMark x = true)
    (hlook : Lexeme.looksLikeDeclaration a.rest = true) :
    Lexeme.looksLikeDeclaration a'.rest = true := by
  obtain ⟨u, hrest, hrest', -⟩ := htwins.rest
  obtain ⟨front, hfront, hoffset, -⟩ := exists_front hstart hrest
  rw [hrest] at hlook
  rw [hrest']
  by_cases hmarked : ∃ x ∈ u, Lexeme.isStatementMark x = true
  · rwa [Lexeme.looksLikeDeclaration_of_marked hmarked _ run.near]
  · have htext : Lexeme.looksLikeDeclaration text = true := by
      by_contra htext
      exact hmarked (hmark (Bool.eq_false_iff.mpr htext) front u hfront hoffset)
    have hblanks : ¬∃ x ∈ List.replicate run.length ' ', Lexeme.isStatementMark x = true := by
      rintro ⟨x, hx, hmark⟩
      rw [List.eq_of_mem_replicate hx] at hmark
      contradiction
    rw [Lexeme.looksLikeDeclaration_of_unmarked hmarked, near,
      Lexeme.looksLikeDeclaration_of_unmarked hblanks] at hlook
    rw [Lexeme.looksLikeDeclaration_of_unmarked hmarked]
    exact Lexeme.looksLikeDeclaration_blockComment htext hlook

end BlankRun

/-! ## Expressions -/

namespace Expr

variable {source : String} {run : BlankRun source} {text : List Char}

/-- A value with the gaps around it, one of which has the run. What closes it is come to at the same
place. -/
theorem Traced.exists_between_gaps (hadmits : run.Admits text) {value : Expr} {a a' b : Cursor}
    {gaps : List Cursor} (htwins : Twins run.near (run.overlaid text) a a')
    (hvalue : value.Traced .list a.skipTrivia b gaps) (hgap : run.gap ∈ a :: (gaps ++ [b]))
    (hinside : Twins run.near (run.overlaid text) a.skipTrivia a'.skipTrivia → run.gap ∈ gaps →
      value.Stands .list a'.skipTrivia b) :
    ∃ b', value.Stands .list a'.skipTrivia b' ∧ b'.offset = b.offset ∧
      Meets 0 b.skipTrivia b'.skipTrivia := by
  rcases List.mem_cons.mp hgap with hgap | hgap
  · exact ⟨b, hvalue.stands.meets (BlankRun.meets hadmits hgap htwins), rfl, rfl, rfl⟩
  rcases List.mem_append.mp hgap with hgap | hgap
  · have hlt := BlankRun.lt_size (hvalue.lt_of_mem hgap)
    have hstart := htwins.skipTrivia_of_opens hlt hvalue.stands.opens
    exact ⟨b, hinside hstart hgap, rfl, rfl, rfl⟩
  · have hgap := List.mem_singleton.mp hgap
    obtain ⟨b', hvalue', hb⟩ :=
      htwins.stands_behind hvalue.stands (BlankRun.le_size (le_of_eq hgap.symm))
    exact ⟨b', hvalue', hb.offset, BlankRun.meets hadmits hgap hb⟩

/-- An operation with the run in it or in one of its operands, for a way to tell its operator. -/
theorem Traced.exists_operation (hadmits : run.Admits text) {level level' : Level}
    {left right : Expr} {a a' b c : Cursor} {gaps gaps' : List Cursor} {operator : Operator}
    {operator? : Cursor → Option Operator} {x : Char} (hstart : Cursor.start source.toList ≤ a)
    (htwins : Twins run.near (run.overlaid text) a a') (hleft : left.Traced level a b gaps)
    (hright : right.Traced level' (b.skipTrivia.skip 1).skipTrivia c gaps')
    (hgap : run.gap ∈ gaps ++ b :: b.skipTrivia.skip 1 :: gaps')
    (hpeek : b.skipTrivia.peek? = some x) (ho : operator? b.skipTrivia = some operator)
    (hbehind : ∀ b', Twins run.near (run.overlaid text) b b' → run.gap = b →
      operator? b'.skipTrivia = some operator)
    (hsign : ∀ b', Twins run.near (run.overlaid text) b b' → run.gap = b.skipTrivia.skip 1 →
      operator? b'.skipTrivia = some operator)
    (hoperand : ∀ d, Twins run.near (run.overlaid text) b.skipTrivia d →
      run.near.length + 1 < b.skipTrivia.size → operator? d = some operator)
    (ihleft : run.gap ∈ gaps → left.Stands level a' b)
    (ihright : ∀ d, Twins run.near (run.overlaid text) (b.skipTrivia.skip 1).skipTrivia d →
      run.gap ∈ gaps' → right.Stands level' d c) :
    ∃ b', left.Stands level a' b' ∧ operator? b'.skipTrivia = some operator ∧
      right.Stands level' (b'.skipTrivia.skip 1).skipTrivia c := by
  have hb := le_trans hstart hleft.stands.le
  rcases mem_gaps_of_operation hgap with hgap | hgap | hgap | hgap
  · exact ⟨b, ihleft hgap, ho, hright.stands⟩
  · obtain ⟨b', hleft', htwins'⟩ :=
      hleft.stands.twins htwins (BlankRun.le_size (le_of_eq hgap.symm))
    have hmeets := BlankRun.meets hadmits hgap htwins'
    refine ⟨b', hleft', hbehind b' htwins' hgap, ?_⟩
    rw [hmeets.skip_one_eq hpeek]
    exact hright.stands
  · have hsize := BlankRun.le_size (le_of_eq hgap.symm)
    have hlt := Nat.lt_of_le_of_lt hsize (Cursor.size_skip_one_lt hpeek)
    obtain ⟨b', hleft', htwins'⟩ := hleft.stands.twins htwins
      (Nat.le_trans (Nat.le_of_lt hlt) (Cursor.size_skipTrivia_le _))
    obtain ⟨hoperator, -⟩ := BlankRun.twins_sign hadmits hb htwins' hpeek hgap
    refine ⟨b', hleft', hsign b' htwins' hgap, hright.stands.meets ?_⟩
    exact BlankRun.meets hadmits hgap (hoperator.skip hlt)
  · have hsize := BlankRun.lt_size (hright.lt_of_mem hgap)
    have hmiddle := Nat.le_trans (Nat.le_of_lt hsize) (Cursor.size_le (Cursor.le_behind_operator _))
    obtain ⟨b', hleft', htwins'⟩ := hleft.stands.twins htwins hmiddle
    obtain ⟨hoperator, hlt, hnext⟩ := htwins'.skipTrivia_of_operand hsize
    exact ⟨b', hleft', hoperand _ hoperator hlt,
      ihright _ (hnext.skipTrivia_of_opens hsize hright.stands.opens) hgap⟩

mutual

/-- An expression that has a run in it stands where it does with a comment in its place. -/
theorem Traced.commented (hadmits : run.Admits text) {level : Level} {e : Expr} {a a' b : Cursor}
    {gaps : List Cursor} (hstart : Cursor.start source.toList ≤ a)
    (htwins : Twins run.near (run.overlaid text) a a')
    (hitems : run.back.head? = some '-' → ∀ item ∈ e.furtherItems, item.range.start ≠ run.stop)
    (hgap : run.gap ∈ gaps) : e.Traced level a b gaps → e.Stands level a' b
  | .leaf _ => absurd hgap List.not_mem_nil
  | .group hopen h hclose => by
    have hlt := BlankRun.lt_size ((Traced.group hopen h hclose).lt_of_mem hgap)
    have hinner := le_trans hstart (le_trans (a.le_skip 1) (Cursor.le_skipTrivia _))
    rw [furtherItems_withRange] at hitems
    obtain ⟨c', h', -, hmeets⟩ := h.exists_between_gaps hadmits (htwins.skip hlt) hgap
      fun htwins hgap => h.commented hadmits hinner htwins hitems hgap
    rw [← htwins.rangeTo_left]
    exact .group ((htwins.peek? hlt).trans hopen) h' (hclose.meets hmeets)
  | .primary _ h => by
    have h' := h.commented hadmits hstart htwins hitems hgap
    exact .primary h'.isNegation_eq_false h'
  | .negate hsign h => by
    rcases List.mem_cons.mp hgap with hgap | hgap
    · -- what stands behind the sign is no blank
      obtain ⟨d, s, hrest, hd⟩ := Cursor.exists_of_isNegation hsign
      obtain ⟨y, t, hgaprest, hy⟩ := hadmits.exists_rest_gap
      rw [hgap, Cursor.rest_skip, hrest] at hgaprest
      obtain rfl : d = y := (List.cons.inj hgaprest).1
      have hstarts : Lexeme.startsItem d = true := by
        obtain hdigit | hmark := hd
        · exact Lexeme.startsItem_of_isDigit hdigit
        · refine Lexeme.startsItem_of_mem ?_
          revert hmark
          simp
          rintro (rfl | rfl | rfl) <;> simp
      obtain hblank | rfl := hy
      · rw [Lexeme.isBlank_eq_false_of_startsItem hstarts] at hblank
        contradiction
      · exact absurd rfl (Lexeme.ne_of_startsItem hstarts (by decide))
    · have hinner := BlankRun.lt_size (h.lt_of_mem hgap)
      have hbehind := Nat.lt_of_lt_of_le hinner (Cursor.size_skipTrivia_le _)
      rw [Cursor.size_skip] at hbehind
      have hsize : run.near.length + 1 < a.size := by omega
      have htwins' := (htwins.skip (Nat.le_of_lt hsize)).skipTrivia_of_opens hinner h.stands.opens
      rw [← htwins.rangeTo_left]
      refine .negate ((htwins.isNegation hsize).trans hsign) (h.commented hadmits ?_ htwins' hitems
        hgap)
      exact le_trans hstart (le_trans (a.le_skip 1) (Cursor.le_skipTrivia _))
  | .factor h => .factor (h.commented hadmits hstart htwins hitems hgap)
  | .multiply hleft ho hright => by
    have hb := le_trans hstart hleft.stands.le
    obtain ⟨x, hpeek⟩ := Cursor.exists_peek?_of_multiplicative? ho
    obtain ⟨b', hleft', ho', hright'⟩ := hleft.exists_operation hadmits hstart htwins hright hgap
      hpeek ho
      (fun b' htwins hgap => (BlankRun.meets hadmits hgap htwins).multiplicative?.trans ho)
      (fun b' htwins hgap => BlankRun.multiplicative?_sign hadmits hb htwins ho hgap)
      (fun d htwins hlt => (htwins.multiplicative? (Nat.lt_of_succ_lt hlt)).trans ho)
      (fun hgap => hleft.commented hadmits hstart htwins (fun hminus item hitem =>
        hitems hminus item (List.mem_append_left _ hitem)) hgap)
      (fun d htwins hgap => hright.commented hadmits (le_trans hb (Cursor.le_behind_operator _))
        htwins (fun hminus item hitem => hitems hminus item (List.mem_append_right _ hitem)) hgap)
    rw [← htwins.rangeTo_left]
    exact .multiply hleft' ho' hright'
  | .product h => .product (h.commented hadmits hstart htwins hitems hgap)
  | .add hleft ho hright => by
    have hb := le_trans hstart hleft.stands.le
    obtain ⟨x, hpeek⟩ := Cursor.exists_peek?_of_additive? ho
    obtain ⟨b', hleft', ho', hright'⟩ := hleft.exists_operation hadmits hstart htwins hright hgap
      hpeek ho
      (fun b' htwins hgap => BlankRun.additive?_behind hadmits hgap htwins ho)
      (fun b' htwins hgap => BlankRun.additive?_sign hadmits hb htwins ho hgap)
      (fun d htwins hlt => (htwins.additive? hlt).trans ho)
      (fun hgap => hleft.commented hadmits hstart htwins (fun hminus item hitem =>
        hitems hminus item (List.mem_append_left _ hitem)) hgap)
      (fun d htwins hgap => hright.commented hadmits (le_trans hb (Cursor.le_behind_operator _))
        htwins (fun hminus item hitem => hitems hminus item (List.mem_append_right _ hitem)) hgap)
    rw [← htwins.rangeTo_left]
    exact .add hleft' ho' hright'
  | .sum h => .sum (h.commented hadmits hstart htwins hitems hgap)
  | .list hfirst hmore => by
    rw [← htwins.rangeTo_left]
    rcases List.mem_append.mp hgap with hgap | hgap
    · exact .list (hfirst.commented hadmits hstart htwins (fun hminus item hitem =>
        hitems hminus item (List.mem_append_left _ hitem)) hgap) hmore.items
    · obtain ⟨b', hfirst', hb⟩ :=
        hfirst.stands.twins htwins (BlankRun.le_size (hmore.le_of_mem hgap))
      exact .list hfirst' (hmore.commented hadmits (le_trans hstart hfirst.stands.le) hb
        (fun hminus item hitem => hitems hminus item (List.mem_append_right _ hitem)) hgap)

theorem TracedItems.commented (hadmits : run.Admits text) {items : List Expr} {a a' b : Cursor}
    {gaps : List Cursor} (hstart : Cursor.start source.toList ≤ a)
    (htwins : Twins run.near (run.overlaid text) a a')
    (hitems : run.back.head? = some '-' →
      ∀ item ∈ furtherItemsIn items, item.range.start ≠ run.stop)
    (hgap : run.gap ∈ gaps) : TracedItems items a b gaps → Items items a' b
  | .nil => absurd hgap List.not_mem_nil
  | .cons hoperator hpeek hitem hrest => by
    have hopens := hitem.stands.opens
    have hstart' := le_trans hstart (Cursor.le_skipTrivia a)
    rcases List.mem_cons.mp hgap with hgap | hgap
    · have hmeets := BlankRun.meets hadmits hgap htwins
      have hoperator' := BlankRun.additive?_behind_eq_none hadmits hgap htwins hopens hoperator
        fun hminus => by
          have hne := hitems hminus _ (List.mem_cons_self ..)
          rwa [hitem.stands.range_eq] at hne
      rw [← hmeets.peek?] at hpeek
      exact .cons hoperator' hpeek (hitem.stands.meets hmeets) hrest.items
    rcases List.mem_append.mp hgap with hgap | hgap
    · have hlt := BlankRun.lt_size (hitem.lt_of_mem hgap)
      have hbehind := htwins.skipTrivia_of_opens hlt hopens
      have hitem' := hitem.commented hadmits hstart' hbehind (fun hminus item hitem =>
        hitems hminus item (List.mem_cons_of_mem _ (List.mem_append_left _ hitem))) hgap
      obtain ⟨hoperator', hpeek'⟩ :=
        hbehind.starts_item hlt hopens hitem'.opens hoperator hpeek
      exact .cons hoperator' hpeek' hitem' hrest.items
    · have hle := BlankRun.le_size (hrest.le_of_mem hgap)
      have hlt := Nat.lt_of_le_of_lt hle hitem.stands.size_lt
      have hbehind := htwins.skipTrivia_of_opens hlt hopens
      obtain ⟨b', hitem', hb⟩ := hitem.stands.twins hbehind hle
      obtain ⟨hoperator', hpeek'⟩ :=
        hbehind.starts_item hlt hopens hitem'.opens hoperator hpeek
      exact .cons hoperator' hpeek' hitem' (hrest.commented hadmits
        (le_trans hstart' hitem.stands.le) hb (fun hminus item hitem =>
          hitems hminus item (List.mem_cons_of_mem _ (List.mem_append_right _ hitem))) hgap)

end

end Expr

/-! ## Statements -/

namespace Statement

variable {source : String} {run : BlankRun source} {text : List Char}

/-- The value of a statement with the gaps around it, one of which has the run. -/
theorem exists_value_commented (hadmits : run.Admits text) {s : Statement} {value : Expr}
    {a a' b : Cursor} {gaps : List Cursor} (hstart : Cursor.start source.toList ≤ a)
    (htwins : Twins run.near (run.overlaid text) a a')
    (hfits : ∀ t ∈ nodesIn [s], run.FitsIn text t) (hs : s.value? = some value)
    (hvalue : value.Traced .list a.skipTrivia b gaps) (hgap : run.gap ∈ a :: (gaps ++ [b])) :
    ∃ b', value.Stands .list a'.skipTrivia b' ∧ b'.offset = b.offset ∧
      Meets 0 b.skipTrivia b'.skipTrivia :=
  hvalue.exists_between_gaps hadmits htwins hgap fun htwins hgap =>
    hvalue.commented hadmits (le_trans hstart a.le_skipTrivia) htwins
      (fun hminus => (hfits s (by simp [nodesIn])).item hminus value hs) hgap

/-- A name, a colon and a value, with a gap behind the name or further on that has the run. -/
theorem exists_named_commented (hadmits : run.Admits text) {s : Statement} {name : String}
    {value : Expr} {a a' b c d : Cursor} {gaps : List Cursor}
    (hstart : Cursor.start source.toList ≤ a) (htwins : Twins run.near (run.overlaid text) a a')
    (hfits : ∀ t ∈ nodesIn [s], run.FitsIn text t) (hs : s.value? = some value)
    (hname : a.Names name b) (hcolon : b.Passes ':' c)
    (hvalue : value.Traced .list c.skipTrivia d gaps) (hgap : run.gap ∈ b :: c :: (gaps ++ [d])) :
    ∃ b' c' d', a'.Names name b' ∧ b'.Passes ':' c' ∧ value.Stands .list c'.skipTrivia d' ∧
      d'.offset = d.offset ∧ Meets 0 d.skipTrivia d'.skipTrivia := by
  rcases List.mem_cons.mp hgap with hgap | hgap
  · obtain ⟨b', hname', hb⟩ := htwins.names hname (BlankRun.le_size (le_of_eq hgap.symm))
    have hcolon' := hcolon.meets (BlankRun.meets hadmits hgap hb)
    exact ⟨b', c, d, hname', hcolon', hvalue.stands, rfl, rfl, rfl⟩
  · have hc := le_of_mem_value hvalue hgap
    obtain ⟨b', hname', hb⟩ := htwins.names hname (BlankRun.le_size (le_trans hcolon.le hc))
    obtain ⟨c', hcolon', htwins'⟩ := hb.passes hcolon (by decide) (BlankRun.le_size hc)
    obtain ⟨d', hvalue', hd⟩ := exists_value_commented hadmits
      (le_trans hstart (le_trans hname.le hcolon.le)) htwins' hfits hs hvalue hgap
    exact ⟨b', c', d', hname', hcolon', hvalue', hd⟩

/-- A keyword and a value, with a gap behind the keyword or further on that has the run. -/
theorem exists_message_commented (hadmits : run.Admits text) {s : Statement} {keyword : String}
    {value : Expr} {a a' b c : Cursor} {gaps : List Cursor}
    (hstart : Cursor.start source.toList ≤ a) (htwins : Twins run.near (run.overlaid text) a a')
    (hfits : ∀ t ∈ nodesIn [s], run.FitsIn text t) (hs : s.value? = some value)
    (hat : a.AtRule keyword b) (hvalue : value.Traced .list b.skipTrivia c gaps)
    (hgap : run.gap ∈ b :: (gaps ++ [c])) :
    ∃ b' c', a'.AtRule keyword b' ∧ value.Stands .list b'.skipTrivia c' ∧ c'.offset = c.offset ∧
      Meets 0 c.skipTrivia c'.skipTrivia := by
  obtain ⟨b', hat', hb⟩ := htwins.atRule hat (BlankRun.le_size (le_of_mem_value hvalue hgap))
  obtain ⟨c', hvalue', hc⟩ :=
    exists_value_commented hadmits (le_trans hstart hat.le) hb hfits hs hvalue hgap
  exact ⟨b', c', hat', hvalue', hc⟩

/-- A statement that starts with a slash has its gaps further on than behind it. -/
theorem Traced.size_lt_of_slash {isBlock : Bool} {s : Statement} {a b gap : Cursor}
    {gaps : List Cursor} (h : s.Traced isBlock a b gaps) (hgap : gap ∈ gaps)
    (hpeek : a.peek? = some '/') : gap.size + 1 < a.size := by
  cases h with
  | assign hsign _ _ _ _ => simp [hpeek] at hsign
  | warn hat _ _ | debug hat _ _ | defineMixin hat _ _ _ _ | includeMixin hat _ _ =>
    have hsign := hat.1
    simp [hpeek] at hsign
  | declaration _ hname _ _ _ =>
    obtain ⟨x, t, hrest, hx, -⟩ := Lexeme.opens_of_ident hname.1
    obtain rfl : x = '/' := by simpa [Cursor.peek?, hrest] using hpeek
    exact absurd rfl (Lexeme.ne_of_startsItem hx (by decide))
  | rule _ _ _ hopen hbody _ =>
    have hle := Cursor.size_le (hbody.le_of_mem hgap)
    obtain ⟨hbrace, -, -, rfl⟩ := hopen
    have hlt := Cursor.size_skip_one_lt hbrace
    have hpos : 0 < (Lexeme.head a.rest).length := by
      refine Nat.pos_of_ne_zero fun hzero => ?_
      rw [hzero, Cursor.skip, hpeek] at hbrace
      contradiction
    have hsize := Cursor.size_skip_lt hpos (Cursor.rest_ne_nil_of_peek? hpeek)
    omega

mutual

/-- A statement that has a run in it stands where it does with a comment in its place. -/
theorem Traced.commented (hadmits : run.Admits text) {isBlock : Bool} {s : Statement}
    {a a' b : Cursor} {gaps : List Cursor} (hstart : Cursor.start source.toList ≤ a)
    (htwins : Twins run.near (run.overlaid text) a a')
    (hfits : ∀ t ∈ nodesIn [s], run.FitsIn text t) (hgap : run.gap ∈ gaps) :
    s.Traced isBlock a b gaps → ∃ b', s.Stands isBlock a' b' ∧ Meets 0 b b'
  | .assign hpeek hname hcolon hvalue hend => by
    have hlt := BlankRun.lt_size (lt_of_mem_value
      (lt_of_le_of_lt (a.le_skip 1) hname.lt)
      (lt_of_le_of_lt (a.le_skip 1) (lt_of_lt_of_le hname.lt hcolon.le)) hvalue hgap)
    obtain ⟨b', c', d', hname', hcolon', hvalue', hoffset, hmeets⟩ :=
      exists_named_commented hadmits (le_trans hstart (a.le_skip 1)) (htwins.skip hlt) hfits rfl
        hname hcolon hvalue hgap
    have hassign : Stands isBlock _ a' b :=
      .assign ((htwins.peek? hlt).trans hpeek) hname' hcolon' hvalue' (hend.meets hmeets)
    rw [Cursor.rangeTo, htwins.offset, hoffset] at hassign
    exact ⟨b, hassign, rfl, rfl⟩
  | .warn hat hvalue hend => by
    obtain ⟨b', c', hat', hvalue', hoffset, hmeets⟩ :=
      exists_message_commented hadmits hstart htwins hfits rfl hat hvalue hgap
    have hwarn : Stands isBlock _ a' b := .warn hat' hvalue' (hend.meets hmeets)
    rw [Cursor.rangeTo, htwins.offset, hoffset] at hwarn
    exact ⟨b, hwarn, rfl, rfl⟩
  | .debug hat hvalue hend => by
    obtain ⟨b', c', hat', hvalue', hoffset, hmeets⟩ :=
      exists_message_commented hadmits hstart htwins hfits rfl hat hvalue hgap
    have hdebug : Stands isBlock _ a' b := .debug hat' hvalue' (hend.meets hmeets)
    rw [Cursor.rangeTo, htwins.offset, hoffset] at hdebug
    exact ⟨b, hdebug, rfl, rfl⟩
  | .defineMixin hat hname hopen hbody hclose => by
    have hkeyword := le_trans (Cursor.le_skipTrivia _) hname.le
    rw [← htwins.rangeTo_left]
    rcases List.mem_cons.mp hgap with hgap | hgap
    · obtain ⟨b', hat', hb⟩ := htwins.atRule hat (BlankRun.le_size (le_of_eq hgap.symm))
      have hname' := hname.meets (BlankRun.meets hadmits hgap hb)
      exact ⟨b, .defineMixin hat' hname' hopen hbody.standAll hclose, rfl, rfl⟩
    rcases List.mem_cons.mp hgap with hgap | hgap
    · have hle := le_of_eq hgap.symm
      obtain ⟨b', hat', hb⟩ := htwins.atRule hat
        (BlankRun.le_size (le_trans hkeyword hle))
      obtain ⟨c', hname', hc⟩ := hb.names_behind hname (BlankRun.le_size hle)
      have hopen' := hopen.meets (BlankRun.meets hadmits hgap hc)
      exact ⟨b, .defineMixin hat' hname' hopen' hbody.standAll hclose, rfl, rfl⟩
    · have hd := hbody.le_of_mem hgap
      have hc := le_trans hopen.le hd
      have hb := le_trans hkeyword hc
      obtain ⟨b', hat', htwins'⟩ := htwins.atRule hat (BlankRun.le_size hb)
      obtain ⟨c', hname', htwins'⟩ := htwins'.names_behind hname (BlankRun.le_size hc)
      obtain ⟨d', hopen', htwins'⟩ := htwins'.passes hopen (by decide) (BlankRun.le_size hd)
      have hstart' := le_trans hstart (le_trans hat.le (le_trans hkeyword hopen.le))
      obtain ⟨e', hbody', hmeets⟩ := hbody.commented hadmits hstart' htwins'
        (forall_nodes_inner hfits) hgap
      exact ⟨b, .defineMixin hat' hname' hopen' hbody' (hclose.meets hmeets.skipTrivia), rfl, rfl⟩
  | .includeMixin hat hname hend => by
    have hkeyword := le_trans (Cursor.le_skipTrivia _) hname.le
    rcases List.mem_cons.mp hgap with hgap | hgap
    · obtain ⟨b', hat', hb⟩ := htwins.atRule hat (BlankRun.le_size (le_of_eq hgap.symm))
      have hname' := hname.meets (BlankRun.meets hadmits hgap hb)
      rw [← htwins.rangeTo_left]
      exact ⟨b, .includeMixin hat' hname' hend, rfl, rfl⟩
    · have hgap := List.mem_singleton.mp hgap
      have hle := le_of_eq hgap.symm
      obtain ⟨b', hat', hb⟩ := htwins.atRule hat
        (BlankRun.le_size (le_trans hkeyword hle))
      obtain ⟨c', hname', hc⟩ := hb.names_behind hname (BlankRun.le_size hle)
      have hend' := hend.meets (BlankRun.meets hadmits hgap hc)
      rw [← htwins.rangeTo_eq hc]
      exact ⟨b, .includeMixin hat' hname' hend', rfl, rfl⟩
  | .declaration hlook hname hcolon hvalue hend => by
    obtain ⟨b', c', d', hname', hcolon', hvalue', hoffset, hmeets⟩ :=
      exists_named_commented hadmits hstart htwins hfits rfl hname hcolon hvalue hgap
    have hlook' := BlankRun.looksLikeDeclaration_commented hstart htwins
      (fun htext => (hfits _ (List.mem_cons_self ..)).mark htext _ _ _ rfl) hlook
    obtain ⟨e', hend', hmeets'⟩ := hend.meets hmeets
    have hdeclaration := Stands.declaration hlook' hname' hcolon' hvalue' hend'
    rw [Cursor.rangeTo, htwins.offset, hoffset] at hdeclaration
    exact ⟨e', hdeclaration, hmeets'⟩
  | .rule hsign hat hlook hopen hbody hclose => by
    have hle := hbody.le_of_mem hgap
    have hlt := BlankRun.lt_size (lt_of_lt_of_le hopen.lt hle)
    have hpeek := htwins.peek? hlt
    have hlook' := congrArg (isBlock && ·)
      (htwins.looksLikeDeclaration_of_opensRule hopen (BlankRun.le_size hle))
    obtain ⟨b', hopen', hb⟩ := htwins.opensRule hopen (BlankRun.le_size hle)
    obtain ⟨c', hbody', hmeets⟩ := hbody.commented hadmits (le_trans hstart hopen.le) hb
      (forall_nodes_inner hfits) hgap
    rw [← htwins.rangeTo_left]
    exact ⟨b, .rule (hpeek ▸ hsign) (hpeek ▸ hat) (hlook'.trans hlook) hopen' hbody'
      (hclose.meets hmeets.skipTrivia), rfl, rfl⟩

theorem TracedAll.commented (hadmits : run.Admits text) {isBlock : Bool}
    {statements : List Statement} {a a' b : Cursor} {gaps : List Cursor}
    (hstart : Cursor.start source.toList ≤ a) (htwins : Twins run.near (run.overlaid text) a a')
    (hfits : ∀ t ∈ nodesIn statements, run.FitsIn text t) (hgap : run.gap ∈ gaps) :
    TracedAll isBlock statements a b gaps → ∃ b', StandAll isBlock statements a' b' ∧ Meets 0 b b'
  | .nil hend =>
    (StandAll.nil hend).meets (BlankRun.meets hadmits (List.mem_singleton.mp hgap) htwins)
  | .cons hmore hfirst hrest => by
    have hstart' := le_trans hstart a.le_skipTrivia
    rcases List.mem_cons.mp hgap with hgap | hgap
    · exact (StandAll.cons hmore hfirst.stands hrest.standAll).meets
        (BlankRun.meets hadmits hgap htwins)
    rcases List.mem_append.mp hgap with hgap | hgap
    · have hlt := BlankRun.lt_size (hfirst.lt_of_mem hgap)
      have htrivia := htwins.skipTrivia hlt fun hslash => by
        have hsize := hfirst.size_lt_of_slash hgap hslash
        have hle := BlankRun.le_size (le_refl run.gap)
        omega
      obtain ⟨b', hfirst', hmeets⟩ := hfirst.commented hadmits hstart' htrivia
        (forall_nodes_first hfits) hgap
      obtain ⟨c', hrest', hc⟩ := hrest.standAll.meets hmeets.skipTrivia
      exact ⟨c', .cons (by rwa [htrivia.peek? hlt]) hfirst' hrest', hc⟩
    · have hle := hrest.le_of_mem hgap
      have hsize := hfirst.stands.size_lt
      have hnext := BlankRun.le_size hle
      have htrivia := htwins.skipTrivia (by omega) fun _ => by omega
      obtain ⟨b', hfirst', hb⟩ := hfirst.stands.twins htrivia hnext
        fun _ hpeek => hadmits.lt_size_of_peek? hle hpeek (by decide)
      obtain ⟨c', hrest', hc⟩ := hrest.commented hadmits
        (le_trans hstart' hfirst.stands.le) hb (forall_nodes_rest hfits) hgap
      exact ⟨c', .cons (by rwa [htrivia.peek? (by omega)]) hfirst' hrest', hc⟩

end

end Statement

/-! ## Runs in a message -/

/-- A word behind a run. -/
theorem traced_word : (Expr.text ⟨10, 11⟩ "a" false).Traced .list
    (Cursor.mk 6 (some 'g') "    a;".toList).skipTrivia ⟨11, some 'a', [';']⟩ [] := by
  have hname : (Cursor.mk 10 (some ' ') "a;".toList).Names "a" ⟨11, some 'a', [';']⟩ :=
    Cursor.names_of_ident (by decide +kernel) (by decide)
  have hskip : (Cursor.mk 6 (some 'g') "    a;".toList).skipTrivia =
      ⟨10, some ' ', "a;".toList⟩ := by decide +kernel
  rw [hskip]
  exact .sum (.product (.factor (.primary (by decide) (.leaf (.word hname)))))

/-- The run between the keyword and the value of a message. -/
def BlankRun.ofKeyword : BlankRun "@debug    a;" where
  gap := ⟨6, some 'g', "    a;".toList⟩
  lead := []
  length := 4
  back := "a;".toList
  front := "@debug".toList
  isGap := (parse_debug_of_traced (by decide) traced_word (by decide)).2 _ (List.mem_cons_self ..)
  isTrivia := .nil
  rest_eq := by decide
  source_eq := by decide

theorem isGap_spaced : (Cursor.mk 8 (some 'a') "    -b;".toList).IsGap "@debug a    -b;" := by
  have hstart : (Cursor.mk 6 (some 'g') (' ' :: "a    -b;".toList)).skipTrivia =
      ⟨7, some ' ', "a    -b;".toList⟩ := by decide +kernel
  have hvalue := traced_spaced
  rw [← hstart] at hvalue
  exact (parse_debug_of_traced (by decide) hvalue (by decide)).2 _ (by simp)

/-- The run between two words, the second of which starts with a hyphen. -/
def BlankRun.ofItem : BlankRun "@debug a    -b;" where
  gap := ⟨8, some 'a', "    -b;".toList⟩
  lead := []
  length := 4
  back := "-b;".toList
  front := "@debug a".toList
  isGap := isGap_spaced
  isTrivia := .nil
  rest_eq := by decide
  source_eq := by decide

/-- With a comment between them the two words are a subtraction. -/
theorem stands_commented : (Expr.binary ⟨7, 14⟩ .subtract (.text ⟨7, 8⟩ "a" false)
    (.text ⟨13, 14⟩ "b" false)).Stands .list ⟨7, some ' ', "a/**/-b;".toList⟩
      ⟨14, some 'b', [';']⟩ := by
  have hleft : (Cursor.mk 7 (some ' ') "a/**/-b;".toList).Names "a"
      ⟨8, some 'a', "/**/-b;".toList⟩ := Cursor.names_of_ident (by decide +kernel) (by decide)
  have hright : (Cursor.mk 13 (some '-') "b;".toList).Names "b" ⟨14, some 'b', [';']⟩ :=
    Cursor.names_of_ident (by decide +kernel) (by decide)
  have hgap : (Cursor.mk 8 (some 'a') "/**/-b;".toList).skipTrivia =
      ⟨12, some '/', "-b;".toList⟩ := by decide +kernel
  have hbehind : ((Cursor.mk 12 (some '/') "-b;".toList).skip 1).skipTrivia =
      ⟨13, some '-', "b;".toList⟩ := by decide +kernel
  have hoperator : (Cursor.mk 8 (some 'a') "/**/-b;".toList).skipTrivia.additive? =
      some .subtract := by
    rw [hgap]
    decide
  have hoperand : (Expr.text ⟨13, 14⟩ "b" false).Stands .product
      ((Cursor.mk 8 (some 'a') "/**/-b;".toList).skipTrivia.skip 1).skipTrivia
      ⟨14, some 'b', [';']⟩ := by
    rw [hgap, hbehind]
    exact .factor (.primary (by decide) (.leaf (.word hright)))
  exact .sum (.add (.product (.factor (.primary (by decide) (.leaf (.word hleft))))) hoperator
    hoperand)

/-! ## Whole texts -/

/-- A comment is as good as spaces. If a text is accepted, and a run of spaces that is passed in it
as blanks is overwritten by a block comment that is as long, then the text is accepted as well, with
the same statements and the same ranges. Exempt are a run right behind a minus that has a blank in
front of it, or right behind a slash that divides; a run right in front of a minus that starts an
item of a list behind another one; and a comment whose first mark is an opening brace, in a
declaration that has no mark in front of it. -/
theorem parse_commented {source : String} {statements : List Statement} {text : List Char}
    (h : parse source = .ok statements) (run : BlankRun source) (hadmits : run.Admits text)
    (hfits : ∀ s ∈ Statement.nodesIn statements, run.FitsIn text s) :
    parse (run.commented text) = .ok statements := by
  obtain ⟨statements', last, gaps, htraced, hnil, hgap⟩ := run.isGap
  obtain rfl : statements' = statements :=
    Except.ok.inj ((parse_eq_ok_iff.mpr ⟨last, htraced.standAll, hnil⟩).symm.trans h)
  obtain ⟨last', hstands, hmeets⟩ := htraced.commented hadmits (le_refl _)
    (BlankRun.twins_start hadmits) hfits hgap
  exact parse_eq_ok_iff.mpr ⟨last', hstands, hmeets.rest.trans hnil⟩

/-- The run between a keyword and its value. -/
theorem parse_commented_keyword :
    let statements := [Statement.debug ⟨0, 11⟩ (.text ⟨10, 11⟩ "a" false)]
    parse "@debug    a;" = .ok statements ∧ BlankRun.ofKeyword.Admits [] ∧
      (∀ s ∈ Statement.nodesIn statements, BlankRun.ofKeyword.FitsIn [] s) ∧
      parse (BlankRun.ofKeyword.commented []) = .ok statements := by
  intro statements
  have hparse : parse "@debug    a;" = .ok statements :=
    (parse_debug_of_traced (by decide) traced_word (by decide)).1
  have hadmits : BlankRun.ofKeyword.Admits [] :=
    { isInside := by simp
      length_eq := by decide
      minus := by
        rintro - x - ⟨s, hs⟩
        have hlast := congrArg List.getLast? hs
        simp [BlankRun.ofKeyword] at hlast
      slash := fun _ => by decide }
  have hfits : ∀ s ∈ Statement.nodesIn statements, BlankRun.ofKeyword.FitsIn [] s := by
    intro s hs
    obtain rfl : s = .debug ⟨0, 11⟩ (.text ⟨10, 11⟩ "a" false) := by
      simpa [statements, Statement.nodesIn, Statement.inner] using hs
    exact ⟨fun hminus => by simp [BlankRun.ofKeyword] at hminus, fun _ _ _ _ heq => by simp at heq⟩
  exact ⟨hparse, hadmits, hfits, parse_commented hparse _ hadmits hfits⟩

/-- Without the exemptions a comment is not as good as spaces: it makes a subtraction of a list
whose second item starts with a hyphen. -/
theorem not_parse_commented : ¬∀ (source : String) (statements : List Statement)
    (run : BlankRun source) (text : List Char), parse source = .ok statements → 4 ≤ run.length →
      ¬['*', '/'] <:+: text → Text.byteLength (blockComment text) = run.length →
      parse (run.commented text) = .ok statements := by
  intro hall
  have hlist := hall _ _ BlankRun.ofItem [] parse_debug_spaced (by decide) (by simp) (by decide)
  have hsource : (BlankRun.ofItem.commented []).toList =
      '@' :: ("debug".toList ++ ' ' :: "a/**/-b;".toList) := by
    rw [BlankRun.commented, String.toList_ofList]
    decide
  have hbinary := parse_debug_of_stands hsource stands_commented (by decide)
  rw [hbinary] at hlist
  have heq := Except.ok.inj hlist
  simp at heq

end Stylesheet
