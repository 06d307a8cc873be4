import Stylesheet.Text.Quoted

/-!
# Messages from values

The subject of a diagnostic is a value. A textual value is its own message; any other value is
shown as the language writes it.
-/

namespace Stylesheet

class Loggable (α : Type) where
  /-- The text of a textual value, without quotes. -/
  asText : α → Option String
  /-- The value as the language writes it. -/
  inspect : α → String

/-- The message of a diagnostic about a value. -/
def messageOf [Loggable α] (value : α) : String :=
  (Loggable.asText value).getD (Loggable.inspect value)

instance : Loggable String := ⟨some, Text.quote⟩

end Stylesheet
