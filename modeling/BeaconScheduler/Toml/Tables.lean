import BeaconScheduler.Toml.Value

/-!
# Putting tables together

Every entry of a document has its place: a dotted path of keys from the current table, or the
path of a header from the root. A table cannot be defined twice, by headers or by dotted keys,
and a key has one value.
-/

set_option autoImplicit false

namespace BeaconScheduler.Toml.Entries

def add? (entries : Entries) (key : String) (value : Value) : Option Entries :=
  match entries.find? key with
  | some _ => none
  | none => some (entries ++ [(key, value)])

def changeLast? (change : Entries → Option Entries) (elements : List Entries) :
    Option (List Entries) :=
  match elements.getLast? with
  | none => none
  | some last => (change last).map (elements.dropLast ++ [·])

/-- Adds a value under a dotted key. The tables on the way are new or come from dotted keys too;
one that headers imply, or an element of an array of tables, is only passed through. -/
def addDotted? (value : Value) : List String → Entries → Option Entries
  | [], _ => none
  | [key], entries => entries.add? key value
  | key :: next :: path, entries =>
      match entries.find? key with
      | none => do
          let inner ← addDotted? value (next :: path) []
          return entries ++ [(key, .table .dotted inner)]
      | some (.table .dotted inner) => do
          let inner ← addDotted? value (next :: path) inner
          return entries.replace key (.table .dotted inner)
      | some (.table .implied inner) =>
          if path.isEmpty then none else do
            let inner ← addDotted? value (next :: path) inner
            return entries.replace key (.table .implied inner)
      | some (.tables elements) =>
          if path.isEmpty then none else do
            let elements ← changeLast? (addDotted? value (next :: path)) elements
            return entries.replace key (.tables elements)
      | some _ => none

/-- Changes the table that a path of headers leads to. Tables missing on the way are implied, and
of an array of tables the last one is meant. -/
def inside? (change : Entries → Option Entries) : List String → Entries → Option Entries
  | [], entries => change entries
  | key :: path, entries =>
      match entries.find? key with
      | none => do
          let inner ← inside? change path []
          return entries ++ [(key, .table .implied inner)]
      | some (.tables elements) => do
          let elements ← changeLast? (inside? change path) elements
          return entries.replace key (.tables elements)
      | some (.table .inline _) => none
      | some (.table form inner) => do
          let inner ← inside? change path inner
          return entries.replace key (.table form inner)
      | some _ => none

/-- Opens the table of a header. One that was only implied so far moves behind its siblings. -/
def openTable? (key : String) (entries : Entries) : Option Entries :=
  match entries.find? key with
  | none => some (entries ++ [(key, .table .headed [])])
  | some (.table .implied inner) => some (entries.erase key ++ [(key, .table .headed inner)])
  | some _ => none

def openElement? (key : String) (entries : Entries) : Option Entries :=
  match entries.find? key with
  | none => some (entries ++ [(key, .tables [[]])])
  | some (.tables elements) => some (entries.replace key (.tables (elements ++ [[]])))
  | some _ => none

end BeaconScheduler.Toml.Entries
