import BeaconScheduler.Toml.Number
import BeaconScheduler.Toml.Tables

/-!
# Documents

The values of all kinds, and documents as a sequence of headers and entries. A document is
read as a whole: one that is malformed anywhere has no content.
-/

set_option autoImplicit false

namespace BeaconScheduler.Toml

/-! ## Values -/

/-- The rest of an array, whose elements `element?` reads. An element takes one character at
least, so as many as the input has characters suffice for `left`. -/
def arrayRest? (element? : Reader Value) : Nat → Reader (List Value)
  | 0, _ => none
  | left + 1, input =>
      match skipFiller false input with
      | ']' :: rest => some ([], rest)
      | input => do
          let (value, rest) ← element? input
          match skipFiller false rest with
          | ',' :: rest =>
              let (values, rest) ← arrayRest? element? left rest
              return (value :: values, rest)
          | ']' :: rest => return ([value], rest)
          | _ => none

def pair? (value? : Reader Value) : Reader (List String × Value) := fun input => do
  let (key, rest) ← key? input
  let rest ← expect? '=' rest
  let (value, rest) ← value? (skipBlanks rest)
  return ((key, value), rest)

/-- The rest of an inline table after an entry is due; `entries` are those before it. -/
def inlineRest? (value? : Reader Value) (entries : Entries) : Nat → Reader Entries
  | 0, _ => none
  | left + 1, input => do
      let ((key, value), rest) ← pair? value? input
      let entries ← entries.addDotted? value key
      match skipBlanks rest with
      | ',' :: rest => inlineRest? value? entries left rest
      | '}' :: rest => return (entries, rest)
      | _ => none

/-- A value in which arrays and inline tables nest no deeper than `depth`. -/
def value? : Nat → Reader Value
  | depth, input =>
      match input with
      | [] => none
      | '"' :: _ | '\'' :: _ => (string? input).map fun (s, rest) => (.string s, rest)
      | 't' :: 'r' :: 'u' :: 'e' :: rest => some (.boolean true, rest)
      | 'f' :: 'a' :: 'l' :: 's' :: 'e' :: rest => some (.boolean false, rest)
      | '[' :: rest =>
          match depth with
          | 0 => none
          | depth + 1 =>
              (arrayRest? (value? depth) (rest.length + 1) rest).map fun (values, rest) =>
                (.array values, rest)
      | '{' :: rest =>
          match depth with
          | 0 => none
          | depth + 1 =>
              match skipBlanks rest with
              | '}' :: rest => some (.table .inline [], rest)
              | rest =>
                  (inlineRest? (value? depth) [] (rest.length + 1) rest).map fun (entries, rest) =>
                    (.table .inline entries, rest)
      | c :: _ =>
          if c.isDigit || c == '+' || c == '-' then number? input else specialFloat? input

def maxDepth : Nat := 79

/-! ## Documents -/

/-- A document as far as it has been read: its root, and the path of the table that new entries
belong to. -/
structure Draft where
  root : Entries
  path : List String

def header? (close : Input → Option Input) : Reader (List String) := fun input => do
  let (key, rest) ← key? input
  let rest ← lineEnd? (← close rest)
  return (key, rest)

/-- Opens a table by `opening`, inside the table that the path leads to but for its last part. -/
def Draft.openWith? (draft : Draft) (path : List String)
    (opening : String → Entries → Option Entries) : Option Draft := do
  let key ← path.getLast?
  let root ← Entries.inside? (opening key) path.dropLast draft.root
  return ⟨root, path⟩

def Draft.add? (draft : Draft) (key : List String) (value : Value) : Option Draft := do
  let root ← Entries.inside? (Entries.addDotted? value key) draft.path draft.root
  return { draft with root }

def line? (draft : Draft) (input : Input) : Option (Draft × Input) :=
  match input with
  | '[' :: '[' :: rest => do
      let (path, rest) ← header? (fun rest => do expect? ']' (← expect? ']' rest)) rest
      return (← draft.openWith? path Entries.openElement?, rest)
  | '[' :: rest => do
      let (path, rest) ← header? (expect? ']') rest
      return (← draft.openWith? path Entries.openTable?, rest)
  | c :: rest =>
      if c == '#' || c == '\n' || c == '\r' then do
        return (draft, ← lineEnd? (c :: rest))
      else do
        let ((key, value), rest) ← pair? (value? maxDepth) (c :: rest)
        return (← draft.add? key value, ← lineEnd? rest)
  | [] => some (draft, [])

/-- Reads line after line. A line takes one character at least, so as many as the input has
characters suffice for `left`. -/
def lines? (draft : Draft) : Nat → Input → Option Entries
  | left, input =>
      match skipBlanks input, left with
      | [], _ => some draft.root
      | _, 0 => none
      | input, left + 1 =>
          match line? draft input with
          | some (draft, rest) => lines? draft left rest
          | none => none

/-- The root table of a document. A byte order mark in front is skipped. -/
def document? (text : String) : Option Entries :=
  let input := match text.toList with
    | '\ufeff' :: rest => rest
    | input => input
  lines? ⟨[], []⟩ input.length input

end BeaconScheduler.Toml
