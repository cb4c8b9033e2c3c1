import ArrayEngine.Text.Shapeless

/-!
# Quoted text

A text between double quotes, in which quotes, backslashes and characters that cannot be seen are
written as escapes: two-character escapes for the common ones, the code point in hexadecimal for
the others.
-/

namespace ArrayEngine.Text

/-- A number in lower-case hexadecimal, without leading zeros. -/
def hexadecimal (n : Nat) : String :=
  String.ofList (Nat.toDigits 16 n)

/-- A character as it is written between double quotes. -/
def escaped (c : Char) : String :=
  if c = '"' then "\\\""
  else if c = '\\' then "\\\\"
  else if c = '\n' then "\\n"
  else if c = '\r' then "\\r"
  else if c = '\t' then "\\t"
  else if c.toNat = 0 then "\\0"
  else if isShapeless c then "\\u\x7b" ++ hexadecimal c.toNat ++ "\x7d"
  else c.toString

/-- A text between double quotes. -/
def quoted (text : String) : String :=
  "\"" ++ String.join (text.toList.map escaped) ++ "\""

end ArrayEngine.Text
