/-!
# Lists and options as text

The one-line forms in which reports and messages show a list of numbers, `[2, 3]`, and a number
that may be missing, `Some(4)` or `None`.
-/

namespace ArrayEngine.Text

/-- A list of numbers in brackets, with a comma and a space between neighbours. -/
def bracketed (numbers : List Nat) : String :=
  "[" ++ String.intercalate ", " (numbers.map fun n ↦ toString n) ++ "]"

/-- A number that may be missing. -/
def optional : Option Nat → String
  | none => "None"
  | some n => "Some(" ++ toString n ++ ")"

/-- A record: its name and its fields, each as `label: value`, within braces. -/
def record (name : String) (fields : List (String × String)) : String :=
  name ++ " \x7b " ++
    String.intercalate ", " (fields.map fun (label, value) ↦ label ++ ": " ++ value) ++ " \x7d"

/-- The word for a truth value. -/
def truth : Bool → String
  | true => "true"
  | false => "false"

end ArrayEngine.Text
