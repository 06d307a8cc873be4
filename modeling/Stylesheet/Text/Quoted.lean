/-!
# Quoted text

A text between double quotes, with a backslash before each double quote and each backslash.
-/

namespace Stylesheet.Text

/-- A character as it stands between double quotes. -/
def escape (c : Char) : List Char := if c = '"' ∨ c = '\\' then ['\\', c] else [c]

/-- A text between double quotes. -/
def quote (s : String) : String := String.ofList ('"' :: s.toList.flatMap escape ++ ['"'])

example : quote "a\"b\\" = "\"a\\\"b\\\\\"" := by decide +kernel

end Stylesheet.Text
