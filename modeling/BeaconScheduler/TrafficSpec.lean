import BeaconScheduler.Allocation.Basic
import BeaconScheduler.Counter

/-!
# Traffic specifications

What a station asks for in an admission request: a range of block durations and,
for periodic traffic, the number of blocks per beacon interval.
-/

set_option autoImplicit false

namespace BeaconScheduler
namespace TrafficSpec

inductive Format where
  /-- A duration between the minimum and the maximum will do. -/
  | isochronous
  /-- The minimum is what is asked for. -/
  | asynchronous
deriving DecidableEq, Repr

inductive Problem where
  | zeroDuration
  | minAboveMax (min max : Nat)
  | aboveCeiling (max ceiling : Nat)
  | multipleOfBiUnsupported (period : Nat)
deriving DecidableEq, Repr

end TrafficSpec

structure TrafficSpec where
  id : UInt8
  kind : Allocation.Kind
  isStatic : Bool
  dest : Aid
  format : TrafficSpec.Format
  min : Nat
  max : Nat
  /-- Blocks per beacon interval, or zero for a single block. -/
  period : Nat
  /-- The period counts beacon intervals, not parts of one. -/
  periodIsMultipleOfBi : Bool
deriving DecidableEq, Repr

namespace TrafficSpec

def validate (spec : TrafficSpec) : Except Problem Unit :=
  if spec.min = 0 then
    .error .zeroDuration
  else if spec.max < spec.min then
    .error (.minAboveMax spec.min spec.max)
  else if spec.kind.maxBlockDuration < spec.max then
    .error (.aboveCeiling spec.max spec.kind.maxBlockDuration)
  else if spec.period ≠ 0 ∧ spec.periodIsMultipleOfBi then
    .error (.multipleOfBiUnsupported spec.period)
  else
    .ok ()

def isPeriodic (spec : TrafficSpec) : Bool :=
  spec.period != 0

/-- The block duration that a scheduler aims for: half way between minimum and maximum,
rounded down, or the minimum alone. -/
def desiredDuration (spec : TrafficSpec) : Except Fault Nat :=
  match spec.format with
  | .isochronous => do return (← Counter.add32 spec.min spec.max) / 2
  | .asynchronous => .ok spec.min

def key (spec : TrafficSpec) (source : Aid) : Allocation.Key :=
  ⟨spec.id, source, spec.dest⟩

end TrafficSpec
end BeaconScheduler
