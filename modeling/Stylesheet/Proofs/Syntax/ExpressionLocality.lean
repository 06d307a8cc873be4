import Stylesheet.Proofs.Syntax.Seams

/-!
# Expressions in front of a seam

An expression that stands in the front part of a text stands there as well if the rest of the text
is another one (`Expr.Stands.twins`).
-/

namespace Stylesheet

open Lexeme (Severs)

namespace Cursor

/-- Cursors at the same place of two texts that are the same up to a seam, and different behind
it. -/
structure Twins (near near' : List Char) (a a' : Cursor) : Prop where
  offset : a'.offset = a.offset
  previous : a'.previous = a.previous
  rest : ∃ u, a.rest = u ++ near ∧ a'.rest = u ++ near' ∧ (u = [] ∨ Severs u near near')

variable {near near' : List Char} {a a' b b' c d : Cursor} {x : Char} {name : String}

/-- A minus in front of an operand is an item of a list exactly if it has a blank in front of it. -/
theorem additive?_eq_none_iff (h : Opens c.rest) :
    c.additive? = none ↔ (c.peek? = some '-' → c.previous.any Text.isBlank = true) := by
  obtain ⟨x, t, hrest, hx, hhyphen⟩ := h
  have hpeek : c.peek? = some x := by
    rw [peek?, hrest]
    rfl
  have hplus : x ≠ '+' := Lexeme.ne_of_startsItem hx (by decide)
  by_cases hminus : x = '-'
  · obtain ⟨d, s, rfl, hd⟩ := hhyphen hminus
    simp [additive?, isBinaryMinus, peekSecond?, hpeek, hrest, hminus, hd]
  · simp [additive?, hpeek, hplus, hminus]

/-- Blanks and whole comments are passed before what follows them is looked at. -/
theorem skipTrivia_of_append {lead s : List Char} (hrest : a.rest = lead ++ s)
    (hlead : Lexeme.IsTrivia lead) : a.skipTrivia = (a.skip lead.length).skipTrivia := by
  rw [skipTrivia, skipTrivia, rest_skip, hrest, List.drop_left, hlead.triviaLength_append,
    skip_skip]

theorem skipTrivia_of_isTrivia {lead s : List Char} (hrest : a.rest = lead ++ s)
    (hlead : Lexeme.IsTrivia lead) (hsolid : Lexeme.IsSolid s) :
    a.skipTrivia = a.skip lead.length := by
  rw [skipTrivia_of_append hrest hlead, skipTrivia_eq_self]
  rwa [rest_skip, hrest, List.drop_left]

namespace Twins

/-- In front of the seam there is some text, which is the same for both. -/
theorem exists_front (h : Twins near near' a a') (hlt : near.length < a.size) :
    ∃ u, a.rest = u ++ near ∧ a'.rest = u ++ near' ∧ u ≠ [] ∧ Severs u near near' := by
  obtain ⟨u, hrest, hrest', hsevers⟩ := h.rest
  have hne : u ≠ [] := by
    rintro rfl
    simp [size, hrest] at hlt
  exact ⟨u, hrest, hrest', hne, hsevers.resolve_left hne⟩

theorem skip (h : Twins near near' a a') {k : Nat} (hk : near.length + k ≤ a.size) :
    Twins near near' (a.skip k) (a'.skip k) := by
  induction k generalizing a a' with
  | zero => rwa [Cursor.skip, Cursor.skip]
  | succ k ih =>
    obtain ⟨u, hrest, hrest', hsevers⟩ := h.rest
    cases u with
    | nil =>
      rw [size, hrest, List.nil_append] at hk
      omega
    | cons x u =>
      obtain ⟨offset, previous, _⟩ := a
      obtain ⟨offset', previous', _⟩ := a'
      obtain rfl : offset' = offset := h.offset
      obtain rfl := hrest
      obtain rfl := hrest'
      have htail : Twins near near' ⟨offset' + x.utf8Size, some x, u ++ near⟩
          ⟨offset' + x.utf8Size, some x, u ++ near'⟩ := by
        refine ⟨rfl, rfl, u, rfl, rfl, ?_⟩
        by_cases hu : u = []
        · exact .inl hu
        · exact .inr ((hsevers.resolve_left (by simp)).of_ne_nil (u := [x]) hu)
      refine ih htail ?_
      simp [size] at hk ⊢
      omega

/-- What is passed in front of the seam. -/
theorem skip_of_le (h : Twins near near' a a') {k : Nat} (hk : k ≤ a.size)
    (hle : near.length ≤ (a.skip k).size) : Twins near near' (a.skip k) (a'.skip k) := by
  rw [size_skip] at hle
  exact h.skip (by omega)

theorem peek? (h : Twins near near' a a') (hlt : near.length < a.size) :
    a'.peek? = a.peek? := by
  obtain ⟨u, hrest, hrest', hne, -⟩ := h.exists_front hlt
  rw [Cursor.peek?, Cursor.peek?, hrest, hrest', List.head?_append_of_ne_nil _ hne,
    List.head?_append_of_ne_nil _ hne]

theorem peekSecond? (h : Twins near near' a a') (hlt : near.length + 1 < a.size) :
    a'.peekSecond? = a.peekSecond? := by
  obtain ⟨u, hrest, hrest', -⟩ := h.rest
  have hu : 1 < u.length := by
    simp [size, hrest] at hlt
    omega
  rw [Cursor.peekSecond?, Cursor.peekSecond?, hrest, hrest', List.getElem?_append_left hu,
    List.getElem?_append_left hu]

theorem isNegation (h : Twins near near' a a') (hlt : near.length + 1 < a.size) :
    a'.isNegation = a.isNegation := by
  rw [Cursor.isNegation, Cursor.isNegation, h.peek? (by omega), h.peekSecond? hlt]

theorem additive? (h : Twins near near' a a') (hlt : near.length + 1 < a.size) :
    a'.additive? = a.additive? := by
  rw [Cursor.additive?, Cursor.additive?, h.peek? (by omega), isBinaryMinus, isBinaryMinus,
    h.peekSecond? hlt, h.previous]

theorem multiplicative? (h : Twins near near' a a') (hlt : near.length < a.size) :
    a'.multiplicative? = a.multiplicative? := by
  rw [Cursor.multiplicative?, Cursor.multiplicative?, h.peek? hlt]

/-- Blanks and comments in front of the seam are the same for both, unless a slash in front of the
seam starts a comment behind it. -/
theorem skipTrivia (h : Twins near near' a a') (hlt : near.length < a.skipTrivia.size)
    (hslash : a.skipTrivia.peek? = some '/' → near.length + 1 < a.skipTrivia.size) :
    Twins near near' a.skipTrivia a'.skipTrivia := by
  obtain ⟨lead, v, hrest, hlead, hsolid⟩ | hcomment := Lexeme.exists_trivia a.rest
  · obtain ⟨u, hu, hu', -⟩ := h.rest
    have hskip := skipTrivia_of_isTrivia hrest hlead hsolid
    have hv : a.skipTrivia.rest = v := by rw [hskip, rest_skip, hrest, List.drop_left]
    rw [size, hv] at hlt hslash
    rw [Cursor.peek?, hv] at hslash
    have hlength : lead.length < u.length := by
      have htotal := congrArg List.length (hrest.symm.trans hu)
      simp only [List.length_append] at htotal
      omega
    obtain ⟨w, rfl⟩ : ∃ w, u = lead ++ w :=
      (List.prefix_of_prefix_length_le ⟨v, hrest.symm⟩ ⟨near, hu.symm⟩ (by omega)).imp
        fun _ => Eq.symm
    obtain rfl : v = w ++ near := by
      rw [hu, List.append_assoc] at hrest
      exact (List.append_cancel_left hrest).symm
    have hw : w ≠ [] := by
      rintro rfl
      simp at hlength
    have hsolid' : Lexeme.IsSolid (w ++ near') := by
      refine hsolid.congr hw ?_
      rintro rfl
      simp at hslash
    rw [List.append_assoc] at hu'
    rw [hskip, skipTrivia_of_isTrivia hu' hlead hsolid']
    apply h.skip
    rw [size, hu]
    simp
    omega
  · simp [Cursor.skipTrivia, hcomment.triviaLength_eq, size] at hlt

/-- Blanks and comments up to an expression. -/
theorem skipTrivia_of_opens (h : Twins near near' a a') (hlt : near.length < a.skipTrivia.size)
    (hopens : Opens a.skipTrivia.rest) : Twins near near' a.skipTrivia a'.skipTrivia := by
  refine h.skipTrivia hlt fun hslash => ?_
  obtain ⟨x, t, hrest, hx, -⟩ := hopens
  rw [Cursor.peek?, hrest] at hslash
  exact absurd (Option.some.inj hslash) (Lexeme.ne_of_startsItem hx (by decide))

/-- Blanks and comments up to an operator that has an operand in front of the seam. -/
theorem skipTrivia_of_operand (h : Twins near near' a a')
    (hlt : near.length < (a.skipTrivia.skip 1).skipTrivia.size) :
    Twins near near' a.skipTrivia a'.skipTrivia ∧ near.length + 1 < a.skipTrivia.size ∧
      Twins near near' (a.skipTrivia.skip 1) (a'.skipTrivia.skip 1) := by
  have hlt' : near.length + 1 < a.skipTrivia.size := by
    have hle := Nat.lt_of_lt_of_le hlt (size_skipTrivia_le _)
    rw [size_skip] at hle
    omega
  have htwins := h.skipTrivia (by omega) fun _ => hlt'
  exact ⟨htwins, hlt', htwins.skip (by omega)⟩

/-- Blanks and comments up to a character other than a slash. -/
theorem skipTrivia_of_peek? (h : Twins near near' a a') (hlt : near.length < a.skipTrivia.size)
    (hx : a.skipTrivia.peek? ≠ some '/') : Twins near near' a.skipTrivia a'.skipTrivia :=
  h.skipTrivia hlt fun hslash => absurd hslash hx

/-- What starts an item of a list in front of the seam. -/
theorem starts_item (h : Twins near near' a a') (hlt : near.length < a.size)
    (hopens : Opens a.rest) (hopens' : Opens a'.rest) (hoperator : a.additive? = none)
    (hstart : a.peek?.any Lexeme.startsItem = true) :
    a'.additive? = none ∧ a'.peek?.any Lexeme.startsItem = true := by
  rw [additive?_eq_none_iff hopens] at hoperator
  rw [additive?_eq_none_iff hopens', h.peek? hlt, h.previous]
  exact ⟨hoperator, hstart⟩

theorem rangeTo_left (h : Twins near near' a a') (b : Cursor) : a'.rangeTo b = a.rangeTo b := by
  rw [rangeTo, rangeTo, h.offset]

theorem rangeTo_eq (h : Twins near near' a a') (hb : Twins near near' b b') :
    a'.rangeTo b' = a.rangeTo b := by
  rw [rangeTo, rangeTo, h.offset, hb.offset]

/-! ## Lexemes -/

theorem names (h : Twins near near' a a') (hname : a.Names name b)
    (hle : near.length ≤ b.size) : ∃ b', a'.Names name b' ∧ Twins near near' b b' := by
  have hlt := Nat.lt_of_le_of_lt hle hname.size_lt
  obtain ⟨hne, hname, rfl⟩ := hname
  have htwins := h.skip_of_le (Lexeme.length_ident_le a.rest) hle
  obtain ⟨u, hrest, hrest', -, hsevers⟩ := h.exists_front hlt
  have hident : Lexeme.ident a'.rest = Lexeme.ident a.rest := by
    rw [hrest, hrest']
    rw [hrest] at hne
    refine Lexeme.ident_congr hne ?_ hsevers
    have hlength := Lexeme.length_ident_le a.rest
    rw [size_skip, size] at hle
    rw [hrest, List.length_append] at hle hlength
    omega
  refine ⟨_, ⟨?_, ?_, rfl⟩, ?_⟩
  · rwa [hident]
  · rwa [hident]
  · rwa [hident]

theorem passes (h : Twins near near' a a') (hx : a.Passes x b) (hslash : x ≠ '/')
    (hle : near.length ≤ b.size) : ∃ b', a'.Passes x b' ∧ Twins near near' b b' := by
  obtain ⟨hpeek, rfl⟩ := hx
  have hlt : near.length < a.skipTrivia.size := Nat.lt_of_le_of_lt hle (size_skip_one_lt hpeek)
  have htwins := h.skipTrivia_of_peek? hlt (by simpa [hpeek] using hslash)
  exact ⟨_, ⟨(htwins.peek? hlt).trans hpeek, rfl⟩, htwins.skip hlt⟩

end Twins

end Cursor

namespace Expr

open Cursor (Twins)

variable {near near' : List Char} {a a' b : Cursor} {e : Expr} {items : List Expr}

theorem IsLeaf.twins (h : e.IsLeaf a b) (htwins : Twins near near' a a')
    (hle : near.length ≤ b.size) : ∃ b', e.IsLeaf a' b' ∧ Twins near near' b b' := by
  have hlt := Nat.lt_of_le_of_lt hle h.size_lt
  obtain ⟨u, hrest, hrest', hne, hsevers⟩ := htwins.exists_front hlt
  -- what is passed stands in front of the seam
  have hfront {k : Nat} (hk : k ≤ a.rest.length) (hle : near.length ≤ (a.skip k).size) :
      k ≤ u.length := by
    rw [Cursor.size_skip, Cursor.size] at hle
    rw [hrest, List.length_append] at hle hk
    omega
  cases h with
  | number hpresent hb =>
    subst hb
    have hk := Lexeme.length_number_le a.rest
    have hnumber : Lexeme.number a'.rest = Lexeme.number a.rest := by
      have hk' := hfront hk hle
      rw [hrest] at hk' ⊢
      rw [hrest']
      exact Lexeme.number_congr hk' hsevers
    have hnext := htwins.skip_of_le hk hle
    have hleaf := IsLeaf.number (a := a') (by rwa [hnumber]) rfl
    rw [hnumber, htwins.rangeTo_eq hnext] at hleaf
    exact ⟨_, hleaf, hnext⟩
  | @string _ _ quote text length hquote hpeek hstring hb =>
    subst hb
    have hlength := Lexeme.stringRest_length_le _ hstring
    have hk : 1 + length ≤ a.rest.length := by
      rw [List.length_drop] at hlength
      have hpos := List.length_pos_iff.mpr (Cursor.rest_ne_nil_of_peek? hpeek)
      omega
    have hk' := hfront hk hle
    have hstring' : Lexeme.stringRest quote (a'.rest.drop 1) = .closed text length := by
      cases u with
      | nil => contradiction
      | cons x u =>
        rw [hrest] at hstring
        rw [hrest']
        refine Lexeme.stringRest_congr u hstring (by simp at hk'; omega) ?_
        exact hsevers.ne_backslash.imp_right (Lexeme.getLast?_ne_of_append (u := [x]))
    have hnext := htwins.skip_of_le hk hle
    have hleaf := IsLeaf.string hquote ((htwins.peek? hlt).trans hpeek) hstring' rfl
    rw [htwins.rangeTo_eq hnext] at hleaf
    exact ⟨_, hleaf, hnext⟩
  | @var _ _ name hpeek hname =>
    obtain ⟨b', hname', hnext⟩ := (htwins.skip hlt).names hname hle
    have hleaf := IsLeaf.var ((htwins.peek? hlt).trans hpeek) hname'
    rw [htwins.rangeTo_eq hnext] at hleaf
    exact ⟨_, hleaf, hnext⟩
  | hash hpeek hb =>
    subst hb
    have hk := Lexeme.hashLength_le (Cursor.rest_ne_nil_of_peek? hpeek)
    have hk' := hfront hk hle
    have hhash : Lexeme.hashLength a'.rest = Lexeme.hashLength a.rest := by
      have hstart := Cursor.rest_of_peek? hpeek
      rw [hrest] at hstart hk' ⊢
      rw [hrest']
      exact Lexeme.hashLength_congr hstart hk' hsevers
    have htake : a'.rest.take (Lexeme.hashLength a.rest) =
        a.rest.take (Lexeme.hashLength a.rest) := by
      generalize Lexeme.hashLength a.rest = k at *
      rw [hrest, hrest', List.take_append_of_le_length hk', List.take_append_of_le_length hk']
    have hnext := htwins.skip_of_le hk hle
    have hleaf := IsLeaf.hash ((htwins.peek? hlt).trans hpeek) rfl
    rw [hhash, htake, htwins.rangeTo_eq hnext] at hleaf
    exact ⟨_, hleaf, hnext⟩
  | @word _ _ name hname =>
    obtain ⟨b', hname', hnext⟩ := htwins.names hname hle
    have hleaf := IsLeaf.word hname'
    rw [htwins.rangeTo_eq hnext] at hleaf
    exact ⟨_, hleaf, hnext⟩

mutual

/-- An expression in front of a seam stands there whatever stands behind the seam. -/
theorem Stands.twins {level : Level} {e : Expr} {a a' b : Cursor}
    (htwins : Twins near near' a a') (hle : near.length ≤ b.size) :
    e.Stands level a b → ∃ b', e.Stands level a' b' ∧ Twins near near' b b'
  | .leaf h => by
    obtain ⟨b', h', hb⟩ := h.twins htwins hle
    exact ⟨b', .leaf h', hb⟩
  | .group hopen h hclose => by
    have hlt := Nat.lt_of_le_of_lt hle hclose.size_lt
    have hinner := Nat.lt_trans hlt h.size_lt
    have hbehind := Nat.lt_of_lt_of_le hinner (Cursor.size_skipTrivia_le _)
    have hsize := Nat.lt_trans hbehind (Cursor.size_skip_one_lt hopen)
    have hstart := (htwins.skip hsize).skipTrivia_of_opens hinner h.opens
    obtain ⟨b', h', hb⟩ := h.twins hstart (Nat.le_of_lt hlt)
    obtain ⟨c', hclose', hc⟩ := hb.passes hclose (by decide) hle
    have hgroup := Stands.group ((htwins.peek? hsize).trans hopen) h' hclose'
    rw [htwins.rangeTo_eq hc] at hgroup
    exact ⟨c', hgroup, hc⟩
  | .primary _ h => by
    obtain ⟨b', h', hb⟩ := h.twins htwins hle
    exact ⟨b', .primary h'.isNegation_eq_false h', hb⟩
  | .negate hsign h => by
    have hinner := Nat.lt_of_le_of_lt hle h.size_lt
    have hbehind := Nat.lt_of_lt_of_le hinner (Cursor.size_skipTrivia_le _)
    rw [Cursor.size_skip] at hbehind
    have hsize : near.length + 1 < a.size := by omega
    have hstart := (htwins.skip (Nat.le_of_lt hsize)).skipTrivia_of_opens hinner h.opens
    obtain ⟨b', h', hb⟩ := h.twins hstart hle
    have hnegate := Stands.negate ((htwins.isNegation hsize).trans hsign) h'
    rw [htwins.rangeTo_eq hb] at hnegate
    exact ⟨b', hnegate, hb⟩
  | .factor h => by
    obtain ⟨b', h', hb⟩ := h.twins htwins hle
    exact ⟨b', .factor h', hb⟩
  | .multiply hleft ho hright => by
    have hoperand := Nat.lt_of_le_of_lt hle hright.size_lt
    have hmiddle := Nat.le_trans (Nat.le_of_lt hoperand)
      (Cursor.size_le (Cursor.le_behind_operator _))
    obtain ⟨b', hleft', hb⟩ := hleft.twins htwins hmiddle
    obtain ⟨hsign, hlt, hbehind⟩ := hb.skipTrivia_of_operand hoperand
    have hstart := hbehind.skipTrivia_of_opens hoperand hright.opens
    obtain ⟨c', hright', hc⟩ := hright.twins hstart hle
    have hoperation := Stands.multiply hleft'
      ((hsign.multiplicative? (Nat.lt_of_succ_lt hlt)).trans ho) hright'
    rw [htwins.rangeTo_eq hc] at hoperation
    exact ⟨c', hoperation, hc⟩
  | .product h => by
    obtain ⟨b', h', hb⟩ := h.twins htwins hle
    exact ⟨b', .product h', hb⟩
  | .add hleft ho hright => by
    have hoperand := Nat.lt_of_le_of_lt hle hright.size_lt
    have hmiddle := Nat.le_trans (Nat.le_of_lt hoperand)
      (Cursor.size_le (Cursor.le_behind_operator _))
    obtain ⟨b', hleft', hb⟩ := hleft.twins htwins hmiddle
    obtain ⟨hsign, hlt, hbehind⟩ := hb.skipTrivia_of_operand hoperand
    have hstart := hbehind.skipTrivia_of_opens hoperand hright.opens
    obtain ⟨c', hright', hc⟩ := hright.twins hstart hle
    have hoperation := Stands.add hleft' ((hsign.additive? hlt).trans ho) hright'
    rw [htwins.rangeTo_eq hc] at hoperation
    exact ⟨c', hoperation, hc⟩
  | .sum h => by
    obtain ⟨b', h', hb⟩ := h.twins htwins hle
    exact ⟨b', .sum h', hb⟩
  | .list hfirst hmore => by
    obtain ⟨b', hfirst', hb⟩ := hfirst.twins htwins (Nat.le_trans hle (Cursor.size_le hmore.le))
    obtain ⟨c', hmore', hc⟩ := hmore.twins hb hle
    have hlist := Stands.list hfirst' hmore'
    rw [htwins.rangeTo_eq hc] at hlist
    exact ⟨c', hlist, hc⟩

theorem Items.twins {items : List Expr} {a a' b : Cursor} (htwins : Twins near near' a a')
    (hle : near.length ≤ b.size) :
    Items items a b → ∃ b', Items items a' b' ∧ Twins near near' b b'
  | .nil => ⟨a', .nil, htwins⟩
  | .cons hoperator hstart hitem hitems => by
    have hmiddle := Nat.le_trans hle (Cursor.size_le hitems.le)
    have hlt := Nat.lt_of_le_of_lt hmiddle hitem.size_lt
    have hbehind := htwins.skipTrivia_of_opens hlt hitem.opens
    obtain ⟨b', hitem', hb⟩ := hitem.twins hbehind hmiddle
    obtain ⟨c', hitems', hc⟩ := hitems.twins hb hle
    obtain ⟨hoperator', hstart'⟩ :=
      hbehind.starts_item hlt hitem.opens hitem'.opens hoperator hstart
    exact ⟨c', .cons hoperator' hstart' hitem' hitems', hc⟩

end

end Expr

end Stylesheet
