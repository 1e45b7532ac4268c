import BeaconScheduler.Toml.Scan

/-!
# Strings and keys

The four kinds of strings: basic ones with escapes between double quotes, literal ones between
single quotes, and both in a form of several lines between three quotes. A key is a bare word
or a string of one line.
-/

set_option autoImplicit false

namespace BeaconScheduler.Toml

/-- Characters that a string of one line can hold; quotes and backslashes are seen to before. -/
def isStringChar (c : Char) : Bool :=
  isCommentChar c

def shortEscape? : Char → Option Char
  | 'b' => some '\x08'
  | 't' => some '\t'
  | 'n' => some '\n'
  | 'f' => some '\x0c'
  | 'r' => some '\r'
  | '"' => some '"'
  | '\\' => some '\\'
  | _ => none

def hexValue? (c : Char) : Option Nat :=
  if '0' ≤ c ∧ c ≤ '9' then some (c.toNat - '0'.toNat)
  else if 'a' ≤ c ∧ c ≤ 'f' then some (c.toNat - 'a'.toNat + 10)
  else if 'A' ≤ c ∧ c ≤ 'F' then some (c.toNat - 'A'.toNat + 10)
  else none

def hexNumber? (digits : List Char) : Option Nat :=
  digits.foldlM (fun n c => (hexValue? c).map (16 * n + ·)) 0

/-- The character with the code point that the digits give. Surrogates are none. -/
def scalar? (digits : List Char) : Option Char :=
  match hexNumber? digits with
  | some n => if n.isValidChar then some (Char.ofNat n) else none
  | none => none

/-! ## One line -/

/-- The rest of a basic string. `read` holds what has been read, last character first. -/
def basicRest (read : List Char) : Reader String
  | [] => none
  | '"' :: rest => some (String.ofList read.reverse, rest)
  | '\\' :: 'u' :: a :: b :: c :: d :: rest =>
      match scalar? [a, b, c, d] with
      | some x => basicRest (x :: read) rest
      | none => none
  | '\\' :: 'U' :: a :: b :: c :: d :: e :: f :: g :: h :: rest =>
      match scalar? [a, b, c, d, e, f, g, h] with
      | some x => basicRest (x :: read) rest
      | none => none
  | '\\' :: c :: rest =>
      match shortEscape? c with
      | some x => basicRest (x :: read) rest
      | none => none
  | c :: rest => if isStringChar c && c != '\\' then basicRest (c :: read) rest else none

def literalRest (input : Input) : Option (String × Input) :=
  match input.span fun c => isStringChar c && c != '\'' with
  | (read, '\'' :: rest) => some (String.ofList read, rest)
  | _ => none

/-! ## Several lines -/

/-- What three closing quotes end: up to two quotes more belong to the string. -/
def closing (quote : Char) (read : List Char) (input : Input) : Option (String × Input) :=
  let (extra, rest) := input.span (· == quote)
  if extra.length ≤ 2 then some (String.ofList (read.reverse ++ extra), rest) else none

def lineIsBlank (input : Input) : Bool :=
  (lineFeed? (skipBlanks input)).isSome

/-- The rest of a basic string of several lines. After a backslash at the end of a line, blanks and
line ends are trimmed. -/
def basicLines (trimming : Bool) (read : List Char) : Reader String
  | [] => none
  | '\n' :: rest => basicLines trimming (if trimming then read else '\n' :: read) rest
  | '\r' :: '\n' :: rest => basicLines trimming (if trimming then read else '\n' :: read) rest
  | '"' :: '"' :: '"' :: rest => closing '"' read rest
  | '\\' :: 'u' :: a :: b :: c :: d :: rest =>
      match scalar? [a, b, c, d] with
      | some x => basicLines false (x :: read) rest
      | none => none
  | '\\' :: 'U' :: a :: b :: c :: d :: e :: f :: g :: h :: rest =>
      match scalar? [a, b, c, d, e, f, g, h] with
      | some x => basicLines false (x :: read) rest
      | none => none
  | '\\' :: c :: rest =>
      match shortEscape? c with
      | some x => basicLines false (x :: read) rest
      | none => if lineIsBlank (c :: rest) then basicLines true read (c :: rest) else none
  | c :: rest =>
      if trimming && isBlank c then basicLines true read rest
      else if isStringChar c && c != '\\' then basicLines false (c :: read) rest
      else none

def literalLines (read : List Char) : Reader String
  | [] => none
  | '\n' :: rest => literalLines ('\n' :: read) rest
  | '\r' :: '\n' :: rest => literalLines ('\n' :: read) rest
  | '\'' :: '\'' :: '\'' :: rest => closing '\'' read rest
  | c :: rest => if isStringChar c then literalLines (c :: read) rest else none

/-- A line end right after the opening quotes does not belong to the string. -/
def skipFirstLineFeed (input : Input) : Input :=
  (lineFeed? input).getD input

def string? : Reader String
  | '"' :: '"' :: '"' :: rest => basicLines false [] (skipFirstLineFeed rest)
  | '"' :: rest => basicRest [] rest
  | '\'' :: '\'' :: '\'' :: rest => literalLines [] (skipFirstLineFeed rest)
  | '\'' :: rest => literalRest rest
  | _ => none

/-! ## Keys -/

def isBareChar (c : Char) : Bool :=
  c.isAlphanum || c == '-' || c == '_'

def simpleKey? : Reader String
  | '"' :: rest => basicRest [] rest
  | '\'' :: rest => literalRest rest
  | input =>
      match input.span isBareChar with
      | ([], _) => none
      | (word, rest) => some (String.ofList word, rest)

def maxKeyParts : Nat := 79

/-- At most `left` parts of a dotted key. Blanks may stand around each of them. -/
def keyParts? : Nat → Reader (List String)
  | 0, _ => none
  | left + 1, input => do
      let (part, rest) ← simpleKey? (skipBlanks input)
      match skipBlanks rest with
      | '.' :: rest =>
          let (parts, rest) ← keyParts? left rest
          return (part :: parts, rest)
      | rest => return ([part], rest)

def key? : Reader (List String) :=
  keyParts? maxKeyParts

end BeaconScheduler.Toml
