/-!
# Binary search

The entries of an ordered array that satisfy a monotone condition are its first ones. Their number
is found by halving, and `partitionPoint_spec` says that it splits the array at that number.
-/

namespace Stylesheet

/-- The number of entries from `lo` on, and below `hi`, that belong to the front. -/
def partitionPointFrom (p : α → Bool) (xs : Array α) (lo hi : Nat) (hhi : hi ≤ xs.size) : Nat :=
  if h : lo < hi then
    let middle := (lo + hi) / 2
    if p xs[middle] then partitionPointFrom p xs (middle + 1) hi hhi
    else partitionPointFrom p xs lo middle (by omega)
  else lo
termination_by hi - lo

/-- The number of entries that satisfy a condition which no entry satisfies behind one that does
not. -/
def partitionPoint (p : α → Bool) (xs : Array α) : Nat :=
  partitionPointFrom p xs 0 xs.size (Nat.le_refl _)

theorem partitionPointFrom_spec {p : α → Bool} {xs : Array α} {lo hi : Nat} {hhi : hi ≤ xs.size}
    (hmono : ∀ i j (_ : i < xs.size) (_ : j < xs.size), i ≤ j → p xs[j] = true → p xs[i] = true)
    (hle : lo ≤ hi) (hbelow : ∀ i (h : i < xs.size), i < lo → p xs[i] = true)
    (habove : ∀ i (h : i < xs.size), hi ≤ i → p xs[i] = false) :
    partitionPointFrom p xs lo hi hhi ≤ xs.size ∧
      ∀ i (h : i < xs.size), p xs[i] = true ↔ i < partitionPointFrom p xs lo hi hhi := by
  fun_induction partitionPointFrom p xs lo hi hhi with
  | case1 lo hi hhi h middle hp ih =>
    exact ih (by omega) (fun i hi' hlt => hmono i middle hi' (by omega) (by omega) hp) habove
  | case2 lo hi hhi h middle hp ih =>
    refine ih (by omega) hbelow fun i hi' hmi => ?_
    cases hpi : p xs[i] with
    | false => rfl
    | true => exact absurd (hmono middle i (by omega) hi' hmi hpi) hp
  | case3 lo hi hhi h =>
    refine ⟨by omega, fun i hi' => ⟨fun hp => ?_, hbelow i hi'⟩⟩
    by_cases hlt : i < lo
    · exact hlt
    · rw [habove i hi' (by omega)] at hp
      contradiction

/-- The entries that satisfy the condition are those below the partition point. -/
theorem partitionPoint_spec {p : α → Bool} {xs : Array α}
    (hmono : ∀ i j (_ : i < xs.size) (_ : j < xs.size), i ≤ j → p xs[j] = true → p xs[i] = true) :
    partitionPoint p xs ≤ xs.size ∧
      ∀ i (h : i < xs.size), p xs[i] = true ↔ i < partitionPoint p xs :=
  partitionPointFrom_spec hmono (Nat.zero_le _) (fun _ _ hi => absurd hi (Nat.not_lt_zero _))
    fun _ h hi => absurd h (Nat.not_lt.mpr hi)

end Stylesheet
