import BeaconScheduler.Decimal.Shortest
import BeaconScheduler.Text.Quoted
import BeaconScheduler.Toml.Value

/-!
# Values of an expected shape

A decoder takes a value apart that has the shape it expects, and tells by a mismatch why another
one has not. The entries of a table are examined in their order, and only then is a missing one
noticed.
-/

set_option autoImplicit false

namespace BeaconScheduler.Toml

inductive Mismatch where
  | missingField (name : String)
  | wrongType (found expected : String)
  | outOfRange (n : Int) (expected : String)
  | unknownVariant (name : String) (expected : List String)
  | notStringOrTable
  | noElement
  | manyElements
  | variantWithElements
  | variantWithEntries
  | variantWithValue (typeName : String)
deriving DecidableEq, Repr

def choice (names : List String) : String :=
  let quotedNames := names.map fun name => "`" ++ name ++ "`"
  match quotedNames with
  | [a] => a
  | [a, b] => a ++ " or " ++ b
  | _ => "one of " ++ Text.commaSeparated quotedNames

def Mismatch.message : Mismatch → String
  | .missingField name => "missing field `" ++ name ++ "`"
  | .wrongType found expected => "invalid type: " ++ found ++ ", expected " ++ expected
  | .outOfRange n expected => "invalid value: integer `" ++ toString n ++ "`, expected " ++ expected
  | .unknownVariant name expected =>
      "unknown variant `" ++ name ++ "`, expected " ++ choice expected
  | .notStringOrTable => "wanted string or table"
  | .noElement => "wanted exactly 1 element, found 0 elements"
  | .manyElements => "wanted exactly 1 element, more than 1 element"
  | .variantWithElements => "expected empty array"
  | .variantWithEntries => "expected empty table"
  | .variantWithValue typeName => "expected table, found " ++ typeName

abbrev Decoder (α : Type) := Value → Except Mismatch α

namespace Value

/-- How a value that does not fit is referred to. A date counts as a table. -/
def description : Value → String
  | .string s => "string " ++ Text.quoted s
  | .integer n => "integer `" ++ toString n ++ "`"
  | .float x => "floating point `" ++ x.text ++ "`"
  | .boolean b => "boolean `" ++ toString b ++ "`"
  | .array _ | .tables _ => "sequence"
  | .datetime | .table .. => "map"

def typeName : Value → String
  | .string _ => "string"
  | .integer _ => "integer"
  | .float _ => "float"
  | .boolean _ => "boolean"
  | .datetime => "datetime"
  | .array _ => "array"
  | .table .inline _ => "inline table"
  | .table _ _ => "table"
  | .tables _ => "array of tables"

/-- What is in a value that passes for a table: of a date, one entry under a key of its own. -/
def entries? : Value → Option Entries
  | .table _ entries => some entries
  | .datetime => some [("$__toml_private_datetime", .string "")]
  | _ => none

def elements? : Value → Option (List Value)
  | .array elements => some elements
  | .tables elements => some (elements.map (.table .headed))
  | _ => none

end Value

namespace Decoder

def mismatch {α : Type} (expected : String) (v : Value) : Except Mismatch α :=
  .error (.wrongType v.description expected)

def string : Decoder String
  | .string s => .ok s
  | v => mismatch "a string" v

def boolean : Decoder Bool
  | .boolean b => .ok b
  | v => mismatch "a boolean" v

def unsigned (width : Nat) : Decoder Nat
  | .integer n =>
      if 0 ≤ n ∧ n < Nat.pow 2 width then .ok n.toNat
      else .error (.outOfRange n ("u" ++ toString width))
  | v => mismatch ("u" ++ toString width) v

def octet : Decoder UInt8 := fun v =>
  (unsigned 8 v).map UInt8.ofNat

def list {α : Type} (element : Decoder α) : Decoder (List α) := fun v =>
  match v.elements? with
  | some elements => elements.mapM element
  | none => mismatch "a sequence" v

def variantName {α : Type} (variants : List (String × α)) (name : String) : Except Mismatch α :=
  match variants.lookup name with
  | some a => .ok a
  | none => .error (.unknownVariant name (variants.map (·.1)))

def emptyContent : Decoder Unit
  | .array elements => if elements.isEmpty then .ok () else .error .variantWithElements
  | .tables elements => if elements.isEmpty then .ok () else .error .variantWithElements
  | .table _ entries => if entries.isEmpty then .ok () else .error .variantWithEntries
  | v => .error (.variantWithValue v.typeName)

/-- A variant by its name, or a table with the name as its only key. -/
def variant {α : Type} (variants : List (String × α)) : Decoder α
  | .string name => variantName variants name
  | .table _ [] => .error .noElement
  | .table _ [(name, content)] => do
      let a ← variantName variants name
      emptyContent content
      return a
  | .table _ _ => .error .manyElements
  | _ => .error .notStringOrTable

/-! ## Tables with known keys -/

structure Field where
  name : String
  check : Value → Except Mismatch Unit

def field {α : Type} (name : String) (decode : Decoder α) : Field :=
  ⟨name, fun v => (decode v).map fun _ => ()⟩

/-- Examines the entries in their order. Unknown keys are let through. -/
def examine (fields : List Field) : Entries → Except Mismatch Unit
  | [] => .ok ()
  | (key, v) :: rest =>
      match fields.find? (·.name == key) with
      | none => examine fields rest
      | some f => do
          f.check v
          examine fields rest

def table (expected : String) (fields : List Field) : Decoder Entries := fun v =>
  match v.entries? with
  | some entries => do
      examine fields entries
      return entries
  | none => mismatch expected v

def required {α : Type} (entries : Entries) (name : String) (decode : Decoder α) :
    Except Mismatch α :=
  match entries.find? name with
  | some v => decode v
  | none => .error (.missingField name)

def optional {α : Type} (entries : Entries) (name : String) (decode : Decoder α) :
    Except Mismatch (Option α) :=
  match entries.find? name with
  | some v => (decode v).map some
  | none => .ok none

def withDefault {α : Type} (entries : Entries) (name : String) (decode : Decoder α) (fallback : α) :
    Except Mismatch α :=
  return (← optional entries name decode).getD fallback

def unknown (fields : List Field) (entries : Entries) : List String :=
  (entries.map (·.1)).filter fun key => !fields.any (·.name == key)

end Decoder
end BeaconScheduler.Toml
