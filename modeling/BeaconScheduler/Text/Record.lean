/-!
# Written records

The one-line form in which the journal shows values: a name with its fields between
braces, a name with its argument between parentheses, a list between brackets, and
numbers padded to a width.
-/

set_option autoImplicit false

namespace BeaconScheduler.Text

def commaSeparated (items : List String) : String :=
  ", ".intercalate items

def list (items : List String) : String :=
  "[" ++ commaSeparated items ++ "]"

def applied (name argument : String) : String :=
  name ++ "(" ++ argument ++ ")"

def record (name : String) (fields : List (String × String)) : String :=
  name ++ " \x7b " ++ commaSeparated (fields.map fun (field, value) => field ++ ": " ++ value) ++ " \x7d"

def padLeft (width : Nat) (fill : Char) (s : String) : String :=
  String.ofList (List.replicate (width - s.length) fill) ++ s

def padRight (width : Nat) (s : String) : String :=
  s ++ String.ofList (List.replicate (width - s.length) ' ')

end BeaconScheduler.Text
