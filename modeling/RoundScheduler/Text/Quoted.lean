import RoundScheduler.Text.Visible

/-!
# Quoted text in dumps

A text in a dump stands between double quotes. Quotes and backslashes inside it are escaped, a few
controls have short escapes, and every other hidden character is written by its code point.
-/

namespace RoundScheduler.Text

/-- The form of one character between the quotes. -/
def quotedChar (c : Char) : String :=
  if c = '"' then "\\\""
  else if c = '\\' then "\\\\"
  else if c = '\n' then "\\n"
  else if c = '\r' then "\\r"
  else if c = '\t' then "\\t"
  else if c.toNat = 0 then "\\0"
  else if isVisible c then c.toString
  else "\\u\x7b" ++ String.ofList (Nat.toDigits 16 c.toNat) ++ "\x7d"

/-- A text between quotes, as dumps show it. -/
def quoted (s : String) : String :=
  "\"" ++ String.join (s.toList.map quotedChar) ++ "\""

end RoundScheduler.Text
