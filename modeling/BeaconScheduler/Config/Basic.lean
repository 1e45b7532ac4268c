import BeaconScheduler.Admission.Policy
import BeaconScheduler.Airtime.Terms
import BeaconScheduler.Counter
import BeaconScheduler.TrafficSpec

/-!
# Configuration

The timing of the beacon interval, the admission policy with its limits, allocations
that stand from the start, and for simulations a script of station traffic. Fields
that a configuration does not give have the defaults below.
-/

set_option autoImplicit false

namespace BeaconScheduler
namespace Config

/-- Durations in microseconds. The header of the interval consists of beacon transmission,
association training and announcement periods. -/
structure Beacon where
  coordinator : Aid := Aid.coordinator
  interval : Nat := 102400
  transmission : Nat := 1000
  training : Nat := 0
  /-- Zero if there is no announcement period. -/
  announcement : Nat := 0
deriving DecidableEq, Repr

/-- A static allocation of the coordinator, with its blocks back to back. -/
structure Static where
  key : Allocation.Key
  kind : Allocation.Kind
  start : Nat
  blockDuration : Nat
  blocks : Nat
deriving DecidableEq, Repr

end Config

structure ScenarioRequest where
  source : Aid
  spec : TrafficSpec
  /-- The index of the interval in whose DTI the request is sent. -/
  submitIn : Nat
  deleteIn : Option Nat
deriving DecidableEq, Repr

structure Scenario where
  seed : Option Nat
  requests : List ScenarioRequest
deriving DecidableEq, Repr

structure Config where
  debugLog : Option String := none
  beacon : Config.Beacon := {}
  policy : Policy := .periodic
  limits : Limits := ⟨10, 4096, 255⟩
  statics : List Config.Static := []
  scenario : Option Scenario := none
deriving DecidableEq, Repr

namespace Config.Beacon

def header (b : Beacon) : Except Fault Nat := do
  Counter.add32 (← Counter.add32 b.transmission b.training) b.announcement

def dti (b : Beacon) : Except Fault Nat := do
  return b.interval - (← b.header)

end Config.Beacon
end BeaconScheduler
