/-!
# Descriptions of values

One line that names a value and its parts: `Name { part: value, other: value }`.  A
description that ends in `..` leaves parts out.
-/

namespace RequestHedging.Text

/-- Whether a description shows all parts of the value. -/
inductive Parts
  | all
  | chosen
deriving DecidableEq

def described (name : String) (fields : List (String × String)) (shown : Parts) : String :=
  let parts := fields.map (fun f => f.1 ++ ": " ++ f.2) ++ if shown = .chosen then [".."] else []
  if parts.isEmpty then name
  else name ++ " \x7b " ++ ", ".intercalate parts ++ " \x7d"

def describedOption (value : Option String) : String :=
  match value with
  | none => "None"
  | some text => "Some(" ++ text ++ ")"

def describedBool (b : Bool) : String := if b then "true" else "false"

end RequestHedging.Text
