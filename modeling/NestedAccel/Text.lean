/-!
# `NestedAccel.Text` — one-line texts of values

Log lines and error messages show values on one line: a bare name, a name applied to arguments,
or a name with labelled fields. Numbers are decimal; addresses in log lines are hexadecimal.
-/

namespace NestedAccel.Text

/-- The number `n` in hexadecimal: `0x` and lower-case digits without leading zeros. -/
def hex (n : Nat) : String := "0x" ++ String.ofList (Nat.toDigits 16 n)

/-- A name applied to arguments: `Name(a, b)`. -/
def applied (name : String) (args : List String) : String :=
  name ++ "(" ++ ", ".intercalate args ++ ")"

/-- A name with labelled fields, between braces. -/
def labelled (name : String) (fields : List (String × String)) : String :=
  name ++ " \x7b " ++ ", ".intercalate (fields.map fun f => f.1 ++ ": " ++ f.2) ++ " \x7d"

end NestedAccel.Text
