import BeaconScheduler.Counter
import BeaconScheduler.Text.Record

/-!
# The virtual clock

Times are 64-bit counts of microseconds since activation.
-/

set_option autoImplicit false

namespace BeaconScheduler

abbrev Time := Nat

namespace Time

def after (t : Time) (us : Nat) : Except Fault Time :=
  Counter.add64 t us

/-- How much later `t` is than `earlier`, both read as signed 64-bit counts. -/
def since (t earlier : Time) : Except Fault Int :=
  Counter.subSigned64 (Counter.signed64 t) (Counter.signed64 earlier)

def age (t now : Time) : Except Fault Int :=
  now.since t

/-- Seconds, a point, and six digits of microseconds. -/
def plainText (t : Time) : String :=
  toString (t / 1000000) ++ "." ++ Text.padLeft 6 '0' (toString (t % 1000000))

def text (t : Time) : String :=
  Text.padLeft 11 ' ' t.plainText

end Time
end BeaconScheduler
