/-!
# Bindings

A finite table from names to what they stand for. Binding a name anew replaces what it stood for
in its place.
-/

namespace Stylesheet

structure Bindings (α : Type) where
  entries : List (String × α) := []

namespace Bindings

variable {α : Type}

def get? (bindings : Bindings α) (name : String) : Option α := bindings.entries.lookup name

def contains (bindings : Bindings α) (name : String) : Bool := (bindings.get? name).isSome

/-- The entries with one name bound. -/
def setEntry (name : String) (a : α) : List (String × α) → List (String × α)
  | [] => [(name, a)]
  | (other, b) :: entries =>
    if name = other then (name, a) :: entries else (other, b) :: setEntry name a entries

def insert (bindings : Bindings α) (name : String) (a : α) : Bindings α :=
  ⟨setEntry name a bindings.entries⟩

def erase (bindings : Bindings α) (name : String) : Bindings α :=
  ⟨bindings.entries.filter (·.1 != name)⟩

theorem lookup_setEntry (name other : String) (a : α) (entries : List (String × α)) :
    (setEntry name a entries).lookup other =
      if other = name then some a else entries.lookup other := by
  induction entries with
  | nil =>
    by_cases h : other = name
    · simp [setEntry, h]
    · simp [setEntry, List.lookup_cons, h, beq_false_of_ne h]
  | cons entry entries ih =>
    obtain ⟨key, b⟩ := entry
    by_cases hkey : name = key
    · subst key
      by_cases h : other = name
      · simp [setEntry, h]
      · simp [setEntry, List.lookup_cons, h, beq_false_of_ne h]
    · by_cases h : other = key
      · subst key
        simp [setEntry, hkey, Ne.symm hkey]
      · simp [setEntry, List.lookup_cons, hkey, beq_false_of_ne h, ih]

theorem get?_insert (bindings : Bindings α) (name other : String) (a : α) :
    (bindings.insert name a).get? other = if other = name then some a else bindings.get? other :=
  lookup_setEntry name other a bindings.entries

theorem get?_erase (bindings : Bindings α) (name other : String) :
    (bindings.erase name).get? other = if other = name then none else bindings.get? other := by
  obtain ⟨entries⟩ := bindings
  simp only [erase, get?]
  induction entries with
  | nil => by_cases h : other = name <;> simp [h]
  | cons entry entries ih =>
    obtain ⟨key, b⟩ := entry
    by_cases hkey : key = name
    · subst key
      by_cases h : other = name
      · simpa [h] using ih
      · simp [List.lookup_cons, beq_false_of_ne h] at ih ⊢
        simpa [h] using ih
    · by_cases h : other = key
      · subst key
        simp [hkey]
      · simp [List.lookup_cons, hkey, beq_false_of_ne h, ih]

end Bindings

end Stylesheet
