import BeaconScheduler.Text.Record
import BeaconScheduler.Text.Unprintable

/-!
# Quoted text

Text between double quotes. Quotes and backslashes are escaped by a backslash, tab, line feed,
carriage return and NUL have short escapes, and any other character without a shape of its own
is written as its code point in hexadecimal digits between braces.
-/

set_option autoImplicit false

namespace BeaconScheduler.Text

def hexDigits (n : Nat) : String :=
  String.ofList (Nat.toDigits 16 n)

def isShown (c : Char) : Bool :=
  if c.toNat < 0x7f then 0x20 ≤ c.toNat else c.toNat != 0x7f && !isUnprintable c.toNat

def quotedChar (c : Char) : String :=
  match c with
  | '"' => "\\\""
  | '\\' => "\\\\"
  | '\t' => "\\t"
  | '\n' => "\\n"
  | '\r' => "\\r"
  | '\x00' => "\\0"
  | c => if isShown c then c.toString else "\\u\x7b" ++ hexDigits c.toNat ++ "\x7d"

def quoted (s : String) : String :=
  "\"" ++ String.join (s.toList.map quotedChar) ++ "\""

end BeaconScheduler.Text
