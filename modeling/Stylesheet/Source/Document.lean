import Stylesheet.Source.Error
import Stylesheet.Source.Location

/-!
# Documents

A document is data in a format with lists and records. A structure is found in a document by its
layout: a record gives its fields by name, in any order, and a list gives them by place. Fields are
read in the order of the document, up to the first that cannot be read.
-/

namespace Stylesheet

/-- A document. A number is an integer only if it is written as one, without point and exponent.
Nothing keeps a record from naming a field more than once. -/
inductive Document where
  | null
  | boolean (b : Bool)
  | integer (n : Int)
  | fraction
  | text (s : String)
  | list (items : List Document)
  | record (fields : List (String × Document))
deriving Inhabited

/-- Why a document is not what it is read as: its shape, or what the parts of the right shape
say. -/
inductive WireError where
  | malformed
  | source (error : SourceError)
deriving DecidableEq, Repr

namespace Document

def count : Document → Except WireError Nat
  | .integer (.ofNat n) => if n < countBound then .ok n else .error .malformed
  | _ => .error .malformed

def text? : Document → Option String
  | .text s => some s
  | _ => none

/-- A part that has to be there. -/
def present : Option α → Except WireError α
  | some a => .ok a
  | none => .error .malformed

def string (document : Document) : Except WireError String := present document.text?

/-- A part that may say nothing, as a null does. -/
def optional (read : Document → Except WireError α) : Document → Except WireError (Option α)
  | .null => .ok none
  | document => some <$> read document

end Document

/-- How a structure is laid out: its fields in the order in which a list gives them, their names in
a record, and what each of them is read as. -/
structure Layout (ι : Type) where
  fields : List ι
  name : ι → String
  Value : ι → Type
  read : (field : ι) → Document → Except WireError (Value field)
  mem_fields : ∀ field, field ∈ fields
  nodup_names : (fields.map name).Nodup

namespace Layout

variable {ι : Type}

/-- What has been found of the fields of a structure. -/
abbrev Found (layout : Layout ι) : Type := (field : ι) → Option (layout.Value field)

/-- The field of a name, if a field has it. -/
def field? (layout : Layout ι) (name : String) : Option ι :=
  layout.fields.find? fun field => layout.name field == name

section

variable [DecidableEq ι]

/-- What has been found, with the value of one more field. -/
def Found.put {layout : Layout ι} (found : layout.Found) (field : ι) (value : layout.Value field) :
    layout.Found := fun other =>
  if h : other = field then some (h ▸ value) else found other

/-- Reads the fields of a record in order, on top of what has been found. A field of a name that no
field has is passed over, and a second field of one name cannot be read. -/
def readFields (layout : Layout ι) (found : layout.Found) :
    List (String × Document) → Except WireError layout.Found
  | [] => .ok found
  | (name, document) :: fields =>
    match layout.field? name with
    | none => layout.readFields found fields
    | some field => do
      if (found field).isSome then throw .malformed
      let value ← layout.read field document
      layout.readFields (found.put field value) fields

/-- The items of a list, each under the name of the field in its place. -/
def named (layout : Layout ι) (items : List Document) : List (String × Document) :=
  (layout.fields.map layout.name).zip items

/-- What a document says of the fields of a structure. A list may not be longer than the
structure. -/
def find (layout : Layout ι) : Document → Except WireError layout.Found
  | .record fields => layout.readFields (fun _ => none) fields
  | .list items => do
    let found ← layout.readFields (fun _ => none) (layout.named items)
    if layout.fields.length < items.length then throw .malformed
    return found
  | _ => .error .malformed

end

end Layout

end Stylesheet
