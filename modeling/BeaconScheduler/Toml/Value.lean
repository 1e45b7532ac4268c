import BeaconScheduler.Decimal.Double

/-!
# Values of a configuration document

What a TOML document consists of. Tables keep their entries in the order of the document, and
how they came about, because that decides what may still be added to them.
-/

set_option autoImplicit false

namespace BeaconScheduler.Toml

/-- How a table came about. -/
inductive Form where
  | inline
  | dotted
  /-- By the header of a table inside it. -/
  | implied
  /-- By a header of its own. -/
  | headed
deriving DecidableEq, Repr

/-- Dates and times are only told apart from other values, their parts are not kept. -/
inductive Value where
  | string (s : String)
  | integer (n : Int)
  | float (x : Decimal.Double)
  | boolean (b : Bool)
  | datetime
  | array (elements : List Value)
  | table (form : Form) (entries : List (String × Value))
  /-- An array of tables, each with a header of its own. -/
  | tables (elements : List (List (String × Value)))

abbrev Entries := List (String × Value)

namespace Entries

def find? (entries : Entries) (key : String) : Option Value :=
  List.lookup key entries

def replace (key : String) (value : Value) : Entries → Entries
  | [] => []
  | (k, v) :: rest => if k == key then (k, value) :: rest else (k, v) :: replace key value rest

def erase (entries : Entries) (key : String) : Entries :=
  entries.filter fun entry => entry.1 != key

end Entries
end BeaconScheduler.Toml
