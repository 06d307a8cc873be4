import Stylesheet.Number.Display
import Stylesheet.Report.Message

/-!
# Values

What expressions evaluate to: numbers with an optional unit, strings with or without quotes, and
lists.
-/

namespace Stylesheet

inductive Value where
  | number (value : Float) (unit : Option String)
  | text (text : String) (quoted : Bool)
  | list (items : List Value)
deriving Inhabited

namespace Value

mutual

/-- A value as the language writes it. -/
def display : Value → String
  | number value unit => Number.display value ++ unit.getD ""
  | text s true => Text.quote s
  | text s false => s
  | list items => " ".intercalate (displayAll items)

def displayAll : List Value → List String
  | [] => []
  | item :: items => item.display :: displayAll items

end

/-- The text of a string, without quotes. -/
def text? : Value → Option String
  | text s _ => some s
  | _ => none

/-- What a value adds to a text that it is joined to. -/
def toText (value : Value) : String := value.text?.getD value.display

def isNumber : Value → Bool
  | number .. => true
  | _ => false

end Value

instance : Loggable Value := ⟨Value.text?, Value.display⟩

end Stylesheet
