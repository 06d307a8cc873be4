import Stylesheet.Proofs.Syntax.Heads
import Stylesheet.Proofs.Syntax.Trivia

/-!
# Lexemes in front of a seam

A lexeme depends on its own characters and on the next one or two. So one that ends in the front
part of a text is the same whatever the rest of the text is, unless the rest goes on with it.
-/

namespace Stylesheet

namespace Lexeme

variable {u near near' : List Char} {p : Char → Bool}

/-! ## What a seam is -/

/-- Behind a seam, another text can stand than the one that does: no lexeme goes on across it, and
no string ends at it for want of more text. -/
def Severs (u near near' : List Char) : Prop :=
  (∃ x ∈ u.getLast?, x = ';' ∨ x = '\x7d') ∨ near ≠ [] ∧ ∃ x ∈ near'.head?, Ends x

theorem Severs.of_ne_nil {v : List Char} (h : Severs (u ++ v) near near') (hv : v ≠ []) :
    Severs v near near' := by
  rwa [Severs, List.getLast?_append_of_ne_nil _ hv] at h

theorem Severs.tail {x : Char} (h : Severs (x :: u) near near') (hsemicolon : x ≠ ';')
    (hbrace : x ≠ '\x7d') : Severs u near near' := by
  cases u with
  | nil =>
    obtain ⟨y, hy, hmark⟩ | h := h
    · obtain rfl := Option.some.inj hy
      simp [hsemicolon, hbrace] at hmark
    · exact .inr h
  | cons y u => exact of_ne_nil (u := [x]) h (by simp)

theorem ends_of_eq {x : Char} (h : x = ';' ∨ x = '\x7d') : Ends x := by
  obtain rfl | rfl := h
  · exact ends_of_isDelimiter (by decide)
  · exact ⟨by rw [isIdentChar_eq (by decide)]; decide, by decide, by decide, by decide⟩

/-- What takes up more than the text in front of a seam has a character that ends every lexeme. -/
theorem Severs.exists_ends (h : Severs u near near') {n : Nat} (hlt : u.length < n) :
    ∃ x ∈ (u ++ near').take n, Ends x := by
  have htake : (u ++ near').take n = u ++ near'.take (n - u.length) := by
    rw [List.take_append, List.take_of_length_le (by omega)]
  rw [htake]
  obtain ⟨x, hx, hmark⟩ | ⟨-, x, hx, hends⟩ := h
  · exact ⟨x, List.mem_append_left _ (List.mem_of_getLast? hx), ends_of_eq hmark⟩
  · obtain ⟨t, rfl⟩ := List.head?_eq_some_iff.mp hx
    obtain ⟨k, hk⟩ := Nat.exists_eq_succ_of_ne_zero (Nat.sub_ne_zero_of_lt hlt)
    refine ⟨x, List.mem_append_right _ ?_, hends⟩
    rw [hk, List.take_succ_cons]
    exact List.mem_cons_self ..

/-- What has no such character ends in front of a seam. -/
theorem Severs.length_le (h : Severs u near near') {n : Nat}
    (hn : ∀ x ∈ (u ++ near').take n, ¬Ends x) : n ≤ u.length := by
  by_contra hlt
  obtain ⟨x, hx, hends⟩ := h.exists_ends (Nat.lt_of_not_le hlt)
  exact hn x hx hends

/-! ## Runs -/

/-- A run that ends in the front part of a text. -/
theorem takeWhile_append_of_length_le (h : ((u ++ near).takeWhile p).length ≤ u.length) :
    (u ++ near).takeWhile p = u.takeWhile p := by
  rw [List.takeWhile_append] at h ⊢
  split
  · rename_i hall
    rw [if_pos hall, List.length_append] at h
    have hnil : near.takeWhile p = [] := List.length_eq_zero_iff.mp (by omega)
    have hself : u.takeWhile p = u := (List.takeWhile_prefix p).eq_of_length hall
    rw [hnil, hself, List.append_nil]
  · rfl

/-- A run that is stopped in the front part of a text. -/
theorem takeWhile_append_of_length_lt (h : (u.takeWhile p).length < u.length) :
    (u ++ near).takeWhile p = u.takeWhile p := by
  rw [List.takeWhile_append, if_neg (Nat.ne_of_lt h)]

theorem take_length_takeWhile (s : List Char) :
    s.take (s.takeWhile p).length = s.takeWhile p :=
  (List.prefix_iff_eq_take.mp (List.takeWhile_prefix p)).symm

/-- A run of a lexeme that ends in front of a seam. -/
theorem takeWhile_congr (hp : ∀ x, p x = true → ¬Ends x)
    (hle : ((u ++ near).takeWhile p).length ≤ u.length) (h : Severs u near near') :
    (u ++ near').takeWhile p = (u ++ near).takeWhile p := by
  have hle' : ((u ++ near').takeWhile p).length ≤ u.length := by
    apply h.length_le
    intro x hx
    rw [take_length_takeWhile] at hx
    exact hp x (List.mem_takeWhile_imp hx)
  rw [takeWhile_append_of_length_le hle, takeWhile_append_of_length_le hle']

/-! ## Names and hashes -/

/-- Whether an identifier starts here is told from the characters that would belong to it. -/
theorem startsIdent_takeWhile (s : List Char) :
    startsIdent (s.takeWhile isIdentChar) = startsIdent s := by
  have hstart {c : Char} (hc : isIdentChar c = false) : isIdentStart c = false := by
    rw [Bool.eq_false_iff] at hc ⊢
    exact fun h => hc (isIdentChar_of_isIdentStart h)
  match s with
  | [] => rfl
  | c :: s =>
    by_cases hhyphen : c = '-'
    · subst hhyphen
      have hchar : isIdentChar '-' = true := by rw [isIdentChar_eq (by decide)]; decide
      have hnone : isIdentStart '-' = false := by rw [isIdentStart_eq (by decide)]; decide
      rw [List.takeWhile_cons_of_pos hchar]
      match s with
      | [] => rfl
      | d :: s =>
        cases hd : isIdentChar d with
        | true => rw [List.takeWhile_cons_of_pos hd]; rfl
        | false =>
          rw [List.takeWhile_cons_of_neg (by simp [hd])]
          exact hnone.trans (hstart hd).symm
    · rw [startsIdent_cons hhyphen]
      cases hc : isIdentChar c with
      | true => rw [List.takeWhile_cons_of_pos hc, startsIdent_cons hhyphen]
      | false =>
        rw [List.takeWhile_cons_of_neg (by simp [hc])]
        exact (hstart hc).symm

theorem ident_congr (hne : ident (u ++ near) ≠ []) (hle : (ident (u ++ near)).length ≤ u.length)
    (h : Severs u near near') : ident (u ++ near') = ident (u ++ near) := by
  have hstarts := startsIdent_of_ident hne
  rw [ident, if_pos hstarts] at hle
  have hrun := takeWhile_congr (fun x hx hends => by simp [hends.isIdentChar] at hx) hle h
  have hstarts' : startsIdent (u ++ near') = true := by
    rw [← startsIdent_takeWhile, hrun, startsIdent_takeWhile]
    exact hstarts
  rw [ident, ident, if_pos hstarts, if_pos hstarts', hrun]

theorem length_ident_le (s : List Char) : (ident s).length ≤ s.length := by
  rw [ident]
  split
  · exact (List.takeWhile_prefix _).length_le
  · exact Nat.zero_le _

theorem hashLength_le {s : List Char} (hne : s ≠ []) : hashLength s ≤ s.length := by
  obtain ⟨c, t, rfl⟩ := List.exists_cons_of_ne_nil hne
  have hle := (List.takeWhile_prefix (l := t) Char.isAlphanum).length_le
  rw [hashLength, List.drop_one, List.tail_cons, List.length_cons]
  omega

theorem hashLength_congr {t : List Char} (hhash : u ++ near = '#' :: t)
    (hle : hashLength (u ++ near) ≤ u.length) (h : Severs u near near') :
    hashLength (u ++ near') = hashLength (u ++ near) := by
  rw [hashLength] at hle
  cases u with
  | nil => simp at hle
  | cons x u =>
    obtain rfl : x = '#' := (List.cons.inj hhash).1
    have htail : Severs u near near' := h.tail (by decide) (by decide)
    have hrun := takeWhile_congr (p := Char.isAlphanum)
      (fun x hx hends => by simp [hends.isAlphanum] at hx)
      (by simpa [Nat.add_comm] using hle) htail
    simp [hashLength, hrun]

/-! ## Numbers -/

/-- The digits behind a point at the front of a text. -/
def fractionAt : List Char → List Char
  | '.' :: s => s.takeWhile Char.isDigit
  | _ => []

/-- The unit at the front of a text. -/
def unitAt (s : List Char) : List Char :=
  match s with
  | '%' :: _ => ['%']
  | _ => s.takeWhile Char.isAlpha

/-- What follows a fraction, and the point in front of it. -/
def behindFraction (s : List Char) : List Char :=
  if (fractionAt s).isEmpty then s else s.drop (1 + (fractionAt s).length)

theorem number_eq_parts (s : List Char) :
    number s = ⟨s.takeWhile Char.isDigit, fractionAt (s.drop (s.takeWhile Char.isDigit).length),
      unitAt (behindFraction (s.drop (s.takeWhile Char.isDigit).length))⟩ :=
  rfl

/-- The length of a fraction with its point. -/
def fractionLength (s : List Char) : Nat :=
  if (fractionAt s).isEmpty then 0 else 1 + (fractionAt s).length

theorem behindFraction_eq (s : List Char) : behindFraction s = s.drop (fractionLength s) := by
  rw [behindFraction, fractionLength]
  split <;> rfl

theorem length_number (s : List Char) :
    (number s).length = (s.takeWhile Char.isDigit).length +
      fractionLength (s.drop (s.takeWhile Char.isDigit).length) +
      (unitAt (behindFraction (s.drop (s.takeWhile Char.isDigit).length))).length := by
  rw [number_eq_parts, Number.length, fractionLength]

theorem fractionAt_append (h : fractionLength (u ++ near) ≤ u.length) :
    fractionAt (u ++ near) = fractionAt u := by
  match u with
  | [] =>
    rw [fractionLength, List.nil_append] at h
    cases hnear : fractionAt near with
    | nil => exact hnear
    | cons c s => simp [hnear] at h
  | c :: u =>
    by_cases hpoint : c = '.'
    · subst hpoint
      apply takeWhile_append_of_length_le
      rw [fractionLength] at h
      split at h
      · rename_i hempty
        have hnil : (u ++ near).takeWhile Char.isDigit = [] := List.isEmpty_iff.mp hempty
        simp [hnil]
      · have hrun : fractionAt ('.' :: u ++ near) = (u ++ near).takeWhile Char.isDigit := rfl
        rw [hrun, List.length_cons] at h
        omega
    · simp [fractionAt, hpoint]

theorem unitAt_append (h : (unitAt (u ++ near)).length ≤ u.length) :
    unitAt (u ++ near) = unitAt u := by
  match u with
  | [] => exact List.length_eq_zero_iff.mp (Nat.le_zero.mp h)
  | c :: u =>
    by_cases hpercent : c = '%'
    · subst hpercent
      rfl
    · have hunit (s : List Char) : unitAt (c :: s) = (c :: s).takeWhile Char.isAlpha := by
        simp [unitAt, hpercent]
      rw [List.cons_append, hunit] at h ⊢
      rw [hunit]
      exact takeWhile_append_of_length_le (u := c :: u) h

/-- A number that ends in the front part of a text. -/
theorem number_append_of_length_le (h : (number (u ++ near)).length ≤ u.length) :
    number (u ++ near) = number u := by
  rw [length_number] at h
  have hwhole : (u ++ near).takeWhile Char.isDigit = u.takeWhile Char.isDigit :=
    takeWhile_append_of_length_le (by omega)
  have hle := (List.takeWhile_prefix (l := u) Char.isDigit).length_le
  rw [hwhole, List.drop_append_of_le_length hle] at h
  have hlength : (u.drop (u.takeWhile Char.isDigit).length).length =
      u.length - (u.takeWhile Char.isDigit).length := List.length_drop
  rw [number_eq_parts, number_eq_parts, hwhole, List.drop_append_of_le_length hle]
  generalize u.drop (u.takeWhile Char.isDigit).length = v at *
  have hfraction : fractionAt (v ++ near) = fractionAt v := fractionAt_append (by omega)
  have hfit : fractionLength (v ++ near) = fractionLength v := by
    rw [fractionLength, fractionLength, hfraction]
  rw [behindFraction_eq, hfit, List.drop_append_of_le_length (by omega)] at h
  rw [hfraction, behindFraction_eq, behindFraction_eq, hfit,
    List.drop_append_of_le_length (by omega), unitAt_append (by simp; omega)]

theorem fractionAt_eq_self (s : List Char) : s.take (fractionLength s) =
    if (fractionAt s).isEmpty then [] else '.' :: fractionAt s := by
  rw [fractionLength]
  split
  · rfl
  · rename_i hsome
    match s with
    | [] => simp [fractionAt] at hsome
    | c :: s =>
      by_cases hpoint : c = '.'
      · subst hpoint
        rw [Nat.add_comm, List.take_succ_cons]
        exact congrArg ('.' :: ·) (take_length_takeWhile s)
      · simp [fractionAt, hpoint] at hsome

theorem take_length_unitAt (s : List Char) : s.take (unitAt s).length = unitAt s := by
  match s with
  | [] => rfl
  | c :: s =>
    by_cases hpercent : c = '%'
    · subst hpercent
      rfl
    · have hunit : unitAt (c :: s) = (c :: s).takeWhile Char.isAlpha := by
        simp [unitAt, hpercent]
      rw [hunit]
      exact take_length_takeWhile (c :: s)

theorem length_number_le (s : List Char) : (number s).length ≤ s.length := by
  have hfraction := congrArg List.length
    (fractionAt_eq_self (s.drop (s.takeWhile Char.isDigit).length))
  have hunit := congrArg List.length
    (take_length_unitAt (behindFraction (s.drop (s.takeWhile Char.isDigit).length)))
  have hle := (List.takeWhile_prefix (l := s) Char.isDigit).length_le
  rw [length_number]
  generalize unitAt _ = unit at *
  rw [behindFraction_eq] at hunit
  rw [fractionLength] at *
  simp only [List.length_take, List.length_drop] at hfraction hunit
  split at hfraction <;> simp_all <;> omega

theorem not_ends_of_isAlphanum {x : Char} (h : x.isAlphanum = true) : ¬Ends x :=
  fun hends => by simp [hends.isAlphanum] at h

theorem not_ends_of_mem_unitAt {s : List Char} {x : Char} (h : x ∈ unitAt s) : ¬Ends x := by
  rw [unitAt.eq_def] at h
  split at h
  · obtain rfl := List.mem_singleton.mp h
    exact fun hends => hends.ne_percent rfl
  · have halpha := List.mem_takeWhile_imp h
    exact not_ends_of_isAlphanum (by rw [Char.isAlphanum, halpha, Bool.true_or])

theorem not_ends_of_mem_fractionAt {s : List Char} {x : Char} (h : x ∈ fractionAt s) :
    ¬Ends x := by
  rw [fractionAt.eq_def] at h
  split at h
  · have hdigit := List.mem_takeWhile_imp h
    exact not_ends_of_isAlphanum (by rw [Char.isAlphanum, hdigit, Bool.or_true])
  · contradiction

/-- No character of a number ends every lexeme. -/
theorem not_ends_of_mem_number {s : List Char} {x : Char} (h : x ∈ s.take (number s).length) :
    ¬Ends x := by
  rw [length_number, List.take_add, List.take_add, take_length_takeWhile, fractionAt_eq_self,
    ← List.drop_drop, ← behindFraction_eq, take_length_unitAt] at h
  rcases List.mem_append.mp h with h | h
  · rcases List.mem_append.mp h with h | h
    · have hdigit := List.mem_takeWhile_imp h
      exact not_ends_of_isAlphanum (by rw [Char.isAlphanum, hdigit, Bool.or_true])
    · split at h
      · contradiction
      · rcases List.mem_cons.mp h with rfl | h
        · exact fun hends => hends.ne_point rfl
        · exact not_ends_of_mem_fractionAt h
  · exact not_ends_of_mem_unitAt h

theorem number_congr (hle : (number (u ++ near)).length ≤ u.length) (h : Severs u near near') :
    number (u ++ near') = number (u ++ near) := by
  have hle' : (number (u ++ near')).length ≤ u.length :=
    h.length_le fun x hx => not_ends_of_mem_number hx
  rw [number_append_of_length_le hle, number_append_of_length_le hle']

/-! ## Strings -/

theorem StringRest.cons_eq_closed_iff {r : StringRest} {c : Char} {width length : Nat}
    {text : List Char} : r.cons c width = .closed text length ↔
      ∃ text' length', r = .closed text' length' ∧ text = c :: text' ∧
        length = width + length' := by
  cases r with
  | closed text' length' =>
    simp only [StringRest.cons, closed.injEq]
    constructor
    · rintro ⟨rfl, rfl⟩
      exact ⟨text', length', ⟨rfl, rfl⟩, rfl, rfl⟩
    · rintro ⟨_, _, ⟨rfl, rfl⟩, rfl, rfl⟩
      exact ⟨rfl, rfl⟩
  | unterminated length' => simp [StringRest.cons]

theorem stringRest_length_pos {quote : Char} {s text : List Char} {length : Nat}
    (h : stringRest quote s = .closed text length) : 0 < length := by
  match s with
  | [] => contradiction
  | c :: s =>
    rw [stringRest.eq_def] at h
    dsimp only at h
    split at h
    · obtain ⟨-, rfl⟩ := StringRest.closed.inj h
      exact Nat.one_pos
    split at h
    · split at h
      · obtain ⟨-, rfl⟩ := StringRest.closed.inj h
        exact Nat.one_pos
      · obtain ⟨_, _, _, -, rfl⟩ := StringRest.cons_eq_closed_iff.mp h
        omega
    split at h
    · contradiction
    · obtain ⟨_, _, _, -, rfl⟩ := StringRest.cons_eq_closed_iff.mp h
      omega

theorem stringRest_length_le {quote : Char} {text : List Char} {length : Nat} (s : List Char)
    (h : stringRest quote s = .closed text length) : length ≤ s.length := by
  fun_induction stringRest quote s generalizing text length with
  | case1 => contradiction
  | case2 s =>
    obtain ⟨-, rfl⟩ := StringRest.closed.inj h
    simp
  | case3 c =>
    obtain ⟨-, rfl⟩ := StringRest.closed.inj h
    simp
  | case4 hc d s ih =>
    obtain ⟨_, _, hmore, -, rfl⟩ := StringRest.cons_eq_closed_iff.mp h
    have hle := ih hmore
    simp only [List.length_cons]
    omega
  | case5 => contradiction
  | case6 c s hc hbackslash hfeed ih =>
    obtain ⟨_, _, hmore, -, rfl⟩ := StringRest.cons_eq_closed_iff.mp h
    have hle := ih hmore
    rw [List.length_cons]
    omega

theorem getLast?_ne_of_append {u v : List Char} {x : Char} (h : (u ++ v).getLast? ≠ some x) :
    v.getLast? ≠ some x := by
  by_cases hv : v = []
  · simp [hv]
  · rwa [List.getLast?_append_of_ne_nil _ hv] at h

/-- A string that is closed in front of a seam. A backslash at the end of a text closes a string as
well, so no string may end there. -/
theorem stringRest_congr {quote : Char} {text : List Char} {length : Nat} (u : List Char)
    (hclosed : stringRest quote (u ++ near) = .closed text length) (hle : length ≤ u.length)
    (hend : near ≠ [] ∨ u.getLast? ≠ some '\\') :
    stringRest quote (u ++ near') = .closed text length := by
  induction hn : u.length using Nat.strong_induction_on generalizing u text length with
  | _ n ih =>
    cases u with
    | nil =>
      have hpos := stringRest_length_pos hclosed
      exact absurd hle (Nat.not_le_of_lt hpos)
    | cons c u =>
      rw [List.cons_append, stringRest.eq_def] at hclosed ⊢
      dsimp only at hclosed ⊢
      by_cases hquote : c = quote
      · rwa [if_pos hquote] at hclosed ⊢
      rw [if_neg hquote] at hclosed ⊢
      by_cases hbackslash : c = '\\'
      · rw [if_pos hbackslash] at hclosed ⊢
        cases u with
        | nil =>
          -- the last character in front of the seam is a backslash, and takes one behind it along
          have hne : near ≠ [] := hend.resolve_right (by simp [hbackslash])
          obtain ⟨d, s, rfl⟩ := List.exists_cons_of_ne_nil hne
          obtain ⟨text', length', -, rfl, rfl⟩ := StringRest.cons_eq_closed_iff.mp hclosed
          rw [List.length_singleton] at hle
          omega
        | cons d u =>
          obtain ⟨text', length', hclosed', rfl, rfl⟩ := StringRest.cons_eq_closed_iff.mp hclosed
          refine StringRest.cons_eq_closed_iff.mpr ⟨text', length', ?_, rfl, rfl⟩
          rw [List.length_cons, List.length_cons] at hle hn
          refine ih u.length (by omega) u hclosed' (by omega) ?_ rfl
          exact hend.imp_right (getLast?_ne_of_append (u := [c, d]))
      rw [if_neg hbackslash] at hclosed ⊢
      by_cases hfeed : c = '\n'
      · rw [if_pos hfeed] at hclosed
        contradiction
      rw [if_neg hfeed] at hclosed ⊢
      obtain ⟨text', length', hclosed', rfl, rfl⟩ := StringRest.cons_eq_closed_iff.mp hclosed
      refine StringRest.cons_eq_closed_iff.mpr ⟨text', length', ?_, rfl, rfl⟩
      rw [List.length_cons] at hle hn
      refine ih u.length (by omega) u hclosed' (by omega) ?_ rfl
      exact hend.imp_right (getLast?_ne_of_append (u := [c]))

theorem Severs.ne_backslash (h : Severs u near near') :
    near ≠ [] ∨ u.getLast? ≠ some '\\' := by
  obtain ⟨x, hx, hmark⟩ | ⟨hne, -⟩ := h
  · rw [Option.mem_def.mp hx]
    refine .inr fun heq => ?_
    obtain rfl := Option.some.inj heq
    revert hmark
    decide
  · exact .inl hne

/-! ## What is solid -/

/-- Whether a text starts with blanks or a comment is told from its first two characters. -/
theorem isSolid_congr {x y : Char} {s t : List Char} (h : IsSolid (x :: y :: s)) :
    IsSolid (x :: y :: t) := by
  refine isSolid_of_not_opensComment h.isBlank_eq_false fun hcomment => h.not_opensComment ?_
  simpa [OpensComment] using hcomment

/-- Something solid in front of a seam. -/
theorem IsSolid.congr (h : IsSolid (u ++ near)) (hne : u ≠ []) (hslash : u ≠ ['/']) :
    IsSolid (u ++ near') := by
  match u with
  | [x] => exact isSolid_cons h.isBlank_eq_false (by simpa using hslash)
  | x :: y :: u => exact isSolid_congr h

/-! ## Heads of statements -/

/-- The first mark of a text that has one in front of a seam. -/
theorem head_congr (h : (head (u ++ near)).length < u.length) :
    head (u ++ near') = head (u ++ near) := by
  have hrun : head (u ++ near) = head u := takeWhile_append_of_length_le (Nat.le_of_lt h)
  rw [hrun] at h ⊢
  exact takeWhile_append_of_length_lt h

theorem looksLikeDeclaration_congr (h : (head (u ++ near)).length < u.length) :
    looksLikeDeclaration (u ++ near') = looksLikeDeclaration (u ++ near) := by
  have hle := Nat.le_of_lt h
  have hpos : u.drop (head (u ++ near)).length ≠ [] := by
    rw [ne_eq, List.drop_eq_nil_iff]
    omega
  rw [looksLikeDeclaration, looksLikeDeclaration, head_congr h, List.drop_append_of_le_length hle,
    List.drop_append_of_le_length hle, List.head?_append_of_ne_nil _ hpos,
    List.head?_append_of_ne_nil _ hpos]

end Lexeme

end Stylesheet
