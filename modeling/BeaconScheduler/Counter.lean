import BeaconScheduler.Fault

/-!
# Counters of fixed width

Durations and offsets are 32-bit counters of microseconds, times are 64-bit ones.
Their values are natural numbers; the operations here are the ordinary ones where
the result fits the width, and faults where it does not.
-/

set_option autoImplicit false

namespace BeaconScheduler.Counter

def add (width a b : Nat) : Except Fault Nat :=
  if a + b < Nat.pow 2 width then .ok (a + b) else .error .addOverflow

def mul (width a b : Nat) : Except Fault Nat :=
  if a * b < Nat.pow 2 width then .ok (a * b) else .error .mulOverflow

/-- No unsigned counter goes below zero. -/
def sub (a b : Nat) : Except Fault Nat :=
  if b ≤ a then .ok (a - b) else .error .subOverflow

def div (a b : Nat) : Except Fault Nat :=
  if b = 0 then .error .divideByZero else .ok (a / b)

abbrev add32 : Nat → Nat → Except Fault Nat := add 32
abbrev add64 : Nat → Nat → Except Fault Nat := add 64
abbrev mul32 : Nat → Nat → Except Fault Nat := mul 32
abbrev mul64 : Nat → Nat → Except Fault Nat := mul 64

/-- The signed reading of a 64-bit pattern. -/
def signed64 (n : Nat) : Int :=
  Int.bmod n UInt64.size

def subSigned64 (a b : Int) : Except Fault Int :=
  if Int64.minValue.toInt ≤ a - b ∧ a - b ≤ Int64.maxValue.toInt then .ok (a - b)
  else .error .subOverflow

@[simp] theorem ok_bind {ε α β : Type} (a : α) (f : α → Except ε β) :
    (Except.ok a >>= f) = f a := rfl

@[simp] theorem error_bind {ε α β : Type} (fault : ε) (f : α → Except ε β) :
    (Except.error fault >>= f) = .error fault := rfl

end BeaconScheduler.Counter
