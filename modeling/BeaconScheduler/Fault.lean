import BeaconScheduler.Config.Problem

/-!
# Faults

A fault ends a computation without a result. Counters have a fixed width, and an
operation whose result does not fit is a fault, not a wrapped value; so is the
start of a scheduler on a configuration that is not valid.
-/

set_option autoImplicit false

namespace BeaconScheduler

inductive Fault where
  | addOverflow
  | subOverflow
  | mulOverflow
  | divideByZero
  | invalidConfiguration (problem : Config.Problem)
deriving DecidableEq, Repr

def Fault.message : Fault → String
  | .addOverflow => "attempt to add with overflow"
  | .subOverflow => "attempt to subtract with overflow"
  | .mulOverflow => "attempt to multiply with overflow"
  | .divideByZero => "attempt to divide by zero"
  | .invalidConfiguration problem => "Invalid scheduler configuration: " ++ problem.message

end BeaconScheduler
