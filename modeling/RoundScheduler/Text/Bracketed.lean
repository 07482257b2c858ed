/-!
# Lists as text

A list is written between brackets, its items separated by a comma and a blank.
-/

namespace RoundScheduler.Text

/-- The items between brackets, `[a, b]`. -/
def bracketed (items : List String) : String :=
  "[" ++ ", ".intercalate items ++ "]"

/-- A list of numbers between brackets, `[0, 1]`. -/
def bracketedNumbers (ns : List Nat) : String :=
  bracketed (ns.map toString)

end RoundScheduler.Text
