import Mathlib.Data.List.Nodup
import Stylesheet.Source.Document

/-!
# Reading documents

What a layout finds in a document is what the document says of each field by itself, whatever order
it says it in (`Layout.find_eq_ok_iff`). A field that it names twice cannot be read.
-/

namespace Stylesheet

/-! ## Results -/

theorem Except.bind_eq_ok_iff {ε α β : Type} {x : Except ε α} {f : α → Except ε β} {b : β} :
    (x >>= f) = .ok b ↔ ∃ a, x = .ok a ∧ f a = .ok b := by
  cases x <;> simp [bind, Except.bind]

theorem Except.mapError_eq_ok_iff {ε ε' α : Type} {x : Except ε α} {f : ε → ε'} {a : α} :
    x.mapError f = .ok a ↔ x = .ok a := by
  cases x <;> simp [Except.mapError]

theorem Except.map_eq_ok_iff {ε α β : Type} {x : Except ε α} {f : α → β} {b : β} :
    f <$> x = .ok b ↔ ∃ a, x = .ok a ∧ f a = b := by
  cases x <;> simp [Functor.map, Except.map]

/-! ## Parts of documents -/

namespace Document

theorem present_eq_ok_iff {α : Type} {o : Option α} {a : α} : present o = .ok a ↔ o = some a := by
  cases o <;> simp [present]

theorem count_eq_ok_iff {document : Document} {n : Nat} :
    document.count = .ok n ↔ document = .integer n ∧ n < countBound := by
  constructor
  · intro h
    unfold count at h
    split at h
    · split at h
      · rename_i m hm
        obtain rfl := Except.ok.inj h
        exact ⟨rfl, hm⟩
      · contradiction
    · contradiction
  · rintro ⟨rfl, hn⟩
    exact if_pos hn

theorem text?_eq_some_iff {document : Document} {s : String} :
    document.text? = some s ↔ document = .text s := by
  constructor
  · intro h
    unfold text? at h
    split at h
    · rw [Option.some.inj h]
    · contradiction
  · rintro rfl
    rfl

theorem string_eq_ok_iff {document : Document} {s : String} :
    document.string = .ok s ↔ document = .text s :=
  present_eq_ok_iff.trans text?_eq_some_iff

theorem optional_eq_ok_iff {α : Type} {read : Document → Except WireError α} {document : Document}
    {value : Option α} (hnull : ∀ a, read .null ≠ .ok a) :
    optional read document = .ok value ↔ match value with
      | none => document = .null
      | some a => read document = .ok a := by
  unfold optional
  split
  · cases value with
    | none => simp
    | some a => simp [hnull a]
  · rename_i hdocument
    rw [Except.map_eq_ok_iff]
    cases value with
    | none => simpa using hdocument
    | some a => simp

/-- What the fields of a record say under a name. -/
def said (fields : List (String × Document)) (name : String) : List Document :=
  (fields.filter fun field => field.1 == name).map Prod.snd

theorem said_cons (name : String) (document : Document) (fields : List (String × Document))
    (name' : String) : said ((name, document) :: fields) name' =
      if name = name' then document :: said fields name' else said fields name' := by
  unfold said
  by_cases h : name = name' <;> simp [h]

theorem lookup_eq_head?_said (fields : List (String × Document)) (name : String) :
    fields.lookup name = (said fields name).head? := by
  induction fields with
  | nil => rfl
  | cons field fields ih =>
    obtain ⟨name', document⟩ := field
    rw [said_cons, List.lookup_cons]
    by_cases h : name' = name
    · simp [h]
    · have hne : (name == name') = false := beq_eq_false_iff_ne.mpr (Ne.symm h)
      simp [h, hne, ih]

end Document

/-! ## Layouts -/

namespace Layout

open Document

variable {ι : Type} {layout : Layout ι}

theorem name_injective (layout : Layout ι) : Function.Injective layout.name := fun field other h =>
  List.inj_on_of_nodup_map layout.nodup_names (layout.mem_fields field) (layout.mem_fields other) h

theorem field?_eq_some_iff {name : String} {field : ι} :
    layout.field? name = some field ↔ layout.name field = name := by
  constructor
  · intro h
    simpa using List.find?_some h
  · rintro rfl
    have hfound : (layout.field? (layout.name field)).isSome = true :=
      List.find?_isSome.mpr ⟨field, layout.mem_fields field, beq_self_eq_true _⟩
    obtain ⟨other, hother⟩ := Option.isSome_iff_exists.mp hfound
    have hname : layout.name other = layout.name field := by simpa using List.find?_some hother
    rw [hother, layout.name_injective hname]

/-- What is found of a field in the end, of what was found before and of what is said about it. -/
inductive Filled (layout : Layout ι) (field : ι) :
    Option (layout.Value field) → List Document → Option (layout.Value field) → Prop
  | kept (value : Option (layout.Value field)) : Filled layout field value [] value
  | read {document : Document} {value : layout.Value field} :
    layout.read field document = .ok value → Filled layout field none [document] (some value)

theorem filled_nil_iff {field : ι} {value value' : Option (layout.Value field)} :
    layout.Filled field value [] value' ↔ value' = value := by
  constructor
  · rintro ⟨⟩
    rfl
  · rintro rfl
    exact .kept _

theorem not_filled_some_cons {field : ι} {value : layout.Value field} {document : Document}
    {documents : List Document} {value' : Option (layout.Value field)} :
    ¬ layout.Filled field (some value) (document :: documents) value' := by
  rintro ⟨⟩

/-- The first thing that is said about a field decides what is found. -/
theorem filled_none_cons_iff {field : ι} {document : Document} {documents : List Document}
    {value' : Option (layout.Value field)} :
    layout.Filled field none (document :: documents) value' ↔
      ∃ value, layout.read field document = .ok value ∧
        layout.Filled field (some value) documents value' := by
  constructor
  · rintro (_ | hread)
    exact ⟨_, hread, .kept _⟩
  · rintro ⟨value, hread, ⟨⟩⟩
    exact .read hread

variable [DecidableEq ι]

theorem Found.put_self (found : layout.Found) (field : ι) (value : layout.Value field) :
    found.put field value field = some value := by
  simp [put]

theorem Found.put_of_ne (found : layout.Found) {field other : ι} (value : layout.Value field)
    (h : other ≠ field) : found.put field value other = found other := by
  simp [put, h]

/-- Reading the fields of a record fills each field with what is said under its name. -/
theorem readFields_eq_ok_iff {found found' : layout.Found} {fields : List (String × Document)} :
    layout.readFields found fields = .ok found' ↔
      ∀ field, layout.Filled field (found field) (said fields (layout.name field))
        (found' field) := by
  induction fields generalizing found with
  | nil =>
    simp only [readFields, Except.ok.injEq, said, List.filter_nil, List.map_nil, filled_nil_iff]
    exact ⟨fun h field => by rw [h], fun h => (funext h).symm⟩
  | cons entry fields ih =>
    obtain ⟨name, document⟩ := entry
    cases hfield : layout.field? name with
    | none =>
      have hname (field : ι) : name ≠ layout.name field := by
        rintro rfl
        rw [field?_eq_some_iff.mpr rfl] at hfield
        contradiction
      simp only [readFields, hfield, ih, said_cons, hname, if_false]
    | some field =>
      obtain rfl := field?_eq_some_iff.mp hfield
      cases hvalue : found field with
      | some value =>
        have hsecond : layout.readFields found ((layout.name field, document) :: fields) =
            .error .malformed := by
          simp only [readFields, hfield, hvalue]
          rfl
        rw [hsecond]
        refine ⟨fun h => by contradiction, fun h => ?_⟩
        have hfilled := h field
        rw [said_cons, if_pos rfl, hvalue] at hfilled
        exact absurd hfilled not_filled_some_cons
      | none =>
        have hfirst : layout.readFields found ((layout.name field, document) :: fields) =
            (layout.read field document >>= fun value =>
              layout.readFields (found.put field value) fields) := by
          simp only [readFields, hfield, hvalue]
          rfl
        rw [hfirst, Except.bind_eq_ok_iff]
        have hother (value : layout.Value field) {other : ι} (h : other ≠ field) :
            found.put field value other = found other ∧
              said ((layout.name field, document) :: fields) (layout.name other) =
                said fields (layout.name other) := by
          refine ⟨found.put_of_ne value h, ?_⟩
          rw [said_cons, if_neg fun hname => h (layout.name_injective hname).symm]
        constructor
        · rintro ⟨value, hread, hrest⟩ other
          have hfilled := ih.mp hrest other
          by_cases h : other = field
          · subst h
            rw [said_cons, if_pos rfl, hvalue]
            rw [Found.put_self] at hfilled
            exact filled_none_cons_iff.mpr ⟨value, hread, hfilled⟩
          · rwa [(hother value h).1, ← (hother value h).2] at hfilled
        · intro hall
          have hfilled := hall field
          rw [said_cons, if_pos rfl, hvalue] at hfilled
          obtain ⟨value, hread, hrest⟩ := filled_none_cons_iff.mp hfilled
          refine ⟨value, hread, ih.mpr fun other => ?_⟩
          by_cases h : other = field
          · subst h
            rwa [Found.put_self]
          · rw [(hother value h).1, ← (hother value h).2]
            exact hall other

/-- The fields that a document gives, by name or by place. -/
def fieldsOf (layout : Layout ι) : Document → List (String × Document)
  | .record fields => fields
  | .list items => layout.named items
  | _ => []

/-- Whether a document is of the shape of a structure, whatever its fields say. -/
def Fits (layout : Layout ι) : Document → Prop
  | .record _ => True
  | .list items => items.length ≤ layout.fields.length
  | _ => False

/-- What is found in a document is what it says of each field. -/
theorem find_eq_ok_iff {document : Document} {found : layout.Found} :
    layout.find document = .ok found ↔ layout.Fits document ∧ ∀ field,
      layout.Filled field none (said (layout.fieldsOf document) (layout.name field))
        (found field) := by
  cases document with
  | record fields => simp [find, Fits, fieldsOf, readFields_eq_ok_iff]
  | list items =>
    have hfind : layout.find (.list items) =
        (layout.readFields (fun _ => none) (layout.named items) >>= fun found =>
          if layout.fields.length < items.length then .error .malformed else .ok found) := by
      rw [find]
      congr 1
    rw [hfind, Except.bind_eq_ok_iff, Fits, fieldsOf]
    by_cases hlength : items.length ≤ layout.fields.length
    · simp [Nat.not_lt.mpr hlength, hlength, readFields_eq_ok_iff]
    · simp [Nat.lt_of_not_le hlength, hlength]
  | _ => simp [find, Fits]

/-- Whether a document names each field of a structure at most once. -/
def NamesOnce (layout : Layout ι) (document : Document) : Prop :=
  ∀ field, (said (layout.fieldsOf document) (layout.name field)).length ≤ 1

/-- A document that names a field twice cannot be read. -/
theorem namesOnce_of_find {document : Document} {found : layout.Found}
    (h : layout.find document = .ok found) : layout.NamesOnce document := by
  intro field
  have hfilled := (find_eq_ok_iff.mp h).2 field
  generalize said (layout.fieldsOf document) (layout.name field) = documents,
    found field = value at hfilled
  cases hfilled <;> simp

end Layout

end Stylesheet
