import BeaconScheduler.Toml.Text
import BeaconScheduler.Toml.Value

/-!
# Numbers, dates and times

Integers of 64 bits in four bases, floating point numbers, and dates and times. An
underscore may stand between two digits.
-/

set_option autoImplicit false

namespace BeaconScheduler.Toml

/-! ## Digits -/

def digitsRest (isDigit : Char → Bool) (read : List Char) : Input → List Char × Input
  | '_' :: c :: rest =>
      if isDigit c then digitsRest isDigit (c :: read) rest else (read.reverse, '_' :: c :: rest)
  | c :: rest => if isDigit c then digitsRest isDigit (c :: read) rest else (read.reverse, c :: rest)
  | [] => (read.reverse, [])

def digits? (isDigit : Char → Bool) : Reader (List Char)
  | c :: rest => if isDigit c then some (digitsRest isDigit [c] rest) else none
  | [] => none

def numberOf (base : Nat) (digits : List Char) : Nat :=
  digits.foldl (fun n c => base * n + (hexValue? c).getD 0) 0

def sign : Input → Bool × Input
  | '+' :: rest => (false, rest)
  | '-' :: rest => (true, rest)
  | input => (false, input)

/-- A decimal number without leading zeros. -/
def plainDigits? : Reader (List Char)
  | '0' :: rest => some (['0'], rest)
  | input => digits? Char.isDigit input

/-! ## Integers -/

def isOctalDigit (c : Char) : Bool :=
  '0' ≤ c && c ≤ '7'

def isBinaryDigit (c : Char) : Bool :=
  c == '0' || c == '1'

def isHexDigit (c : Char) : Bool :=
  (hexValue? c).isSome

def integerOf? (n : Int) : Option Value :=
  if Int64.minValue.toInt ≤ n ∧ n ≤ Int64.maxValue.toInt then some (.integer n) else none

def basedInteger? (base : Nat) (isDigit : Char → Bool) : Reader Value := fun input => do
  let (digits, rest) ← digits? isDigit input
  return (← integerOf? (numberOf base digits), rest)

def integer? : Reader Value
  | '0' :: 'x' :: rest => basedInteger? 16 isHexDigit rest
  | '0' :: 'o' :: rest => basedInteger? 8 isOctalDigit rest
  | '0' :: 'b' :: rest => basedInteger? 2 isBinaryDigit rest
  | input => do
      let (negative, rest) := sign input
      let (digits, rest) ← plainDigits? rest
      let n : Int := numberOf 10 digits
      return (← integerOf? (if negative then -n else n), rest)

/-! ## Floating point numbers -/

def fraction? : Reader (List Char)
  | '.' :: rest => digits? Char.isDigit rest
  | _ => none

def exponent? : Reader Int
  | c :: rest =>
      if c == 'e' || c == 'E' then do
        let (negative, rest) := sign rest
        let (digits, rest) ← digits? Char.isDigit rest
        let n : Int := numberOf 10 digits
        return (if negative then -n else n, rest)
      else none
  | [] => none

/-- A number that is too large is no number; one that is too small without bound is. -/
def floatOf? (negative : Bool) (whole fraction : List Char) (exponent : Int) : Option Value :=
  match Decimal.Double.ofDecimal negative (numberOf 10 (whole ++ fraction)) (exponent - fraction.length) with
  | .infinite false => none
  | x => some (.float x)

def decimalFloat? : Reader Value := fun input => do
  let (negative, rest) := sign input
  let (whole, rest) ← plainDigits? rest
  match fraction? rest with
  | some (fraction, rest) =>
      match exponent? rest with
      | some (exponent, rest) => return (← floatOf? negative whole fraction exponent, rest)
      | none => return (← floatOf? negative whole fraction 0, rest)
  | none =>
      let (exponent, rest) ← exponent? rest
      return (← floatOf? negative whole [] exponent, rest)

def specialFloat? : Reader Value := fun input =>
  let (negative, rest) := sign input
  match rest with
  | 'i' :: 'n' :: 'f' :: rest => some (.float (.infinite negative), rest)
  | 'n' :: 'a' :: 'n' :: rest => some (.float .notANumber, rest)
  | _ => none

/-! ## Dates and times -/

def twoDigits? (low high : Nat) : Reader Nat
  | a :: b :: rest =>
      let n := numberOf 10 [a, b]
      if a.isDigit && b.isDigit && low ≤ n && n ≤ high then some (n, rest) else none
  | _ => none

def expect? (c : Char) : Input → Option Input
  | d :: rest => if d == c then some rest else none
  | [] => none

def isLeap (year : Nat) : Bool :=
  year % 4 == 0 && (year % 100 != 0 || year % 400 == 0)

def daysOf (year month : Nat) : Nat :=
  if month = 2 then (if isLeap year then 29 else 28)
  else if month = 4 ∨ month = 6 ∨ month = 9 ∨ month = 11 then 30
  else 31

def date? : Input → Option Input
  | a :: b :: c :: d :: '-' :: rest =>
      if [a, b, c, d].all Char.isDigit then do
        let (month, rest) ← twoDigits? 1 12 rest
        let rest ← expect? '-' rest
        let (_, rest) ← twoDigits? 1 (daysOf (numberOf 10 [a, b, c, d]) month) rest
        return rest
      else none
  | _ => none

def timeOfDay? (input : Input) : Option Input := do
  let (_, rest) ← twoDigits? 0 23 input
  let (_, rest) ← twoDigits? 0 59 (← expect? ':' rest)
  let (_, rest) ← twoDigits? 0 60 (← expect? ':' rest)
  match rest with
  | '.' :: c :: more => if c.isDigit then return more.dropWhile Char.isDigit else return rest
  | _ => return rest

def timeOffset? (input : Input) : Option Input :=
  match input with
  | [] => some []
  | c :: rest =>
      if c == 'Z' || c == 'z' then some rest
      else if c == '+' || c == '-' then do
        let (_, rest) ← twoDigits? 0 23 rest
        let (_, rest) ← twoDigits? 0 59 (← expect? ':' rest)
        return rest
      else some input

def timeAfterDate? (input : Input) : Option Input :=
  match input with
  | c :: rest =>
      if c == 'T' || c == 't' || c == ' ' then
        match timeOfDay? rest with
        | some rest => timeOffset? rest
        | none => some input
      else some input
  | [] => some []

def datetime? : Reader Value := fun input =>
  match date? input with
  | some rest => (timeAfterDate? rest).map (.datetime, ·)
  | none => (timeOfDay? input).map (.datetime, ·)

/-- What a digit or a sign begins. -/
def number? (input : Input) : Option (Value × Input) :=
  datetime? input <|> decimalFloat? input <|> specialFloat? input <|> integer? input

end BeaconScheduler.Toml
