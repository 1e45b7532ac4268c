import BeaconScheduler.Station

/-!
# Allocations

An entry of the extended schedule: one or more blocks of airtime for a pair of
stations. Blocks follow each other at `blockPeriod`, or back to back when that is
zero. The identifier of an allocation is only meaningful together with its stations,
so the three form its key.
-/

set_option autoImplicit false

namespace BeaconScheduler
namespace Allocation

inductive Kind where
  | servicePeriod
  | cbap
deriving DecidableEq, Repr

/-- The longest block that the frame field of the kind can carry. -/
def Kind.maxBlockDuration : Kind → Nat
  | .servicePeriod => 32767
  | .cbap => 65535

structure Key where
  id : UInt8
  source : Aid
  dest : Aid
deriving DecidableEq, Repr

structure Beamforming where
  initiatorSweep : Bool
  responderSweep : Bool
deriving DecidableEq, Repr

def defaultBeamformingDuration : Nat := 2000

/-- Time that stays free after a training period, beside the guard time. -/
def beamformingProtection : Nat := 1000

end Allocation

structure Allocation where
  key : Allocation.Key
  kind : Allocation.Kind
  /-- Survives the clean-up at the end of an interval. -/
  isStatic : Bool
  start : Nat
  blockDuration : Nat
  blockPeriod : Nat
  blocks : Nat
  beamforming : Option Allocation.Beamforming
  /-- Has been carried in a beacon. -/
  announced : Bool
deriving DecidableEq, Repr

namespace Allocation

def single (key : Key) (kind : Kind) (isStatic : Bool) (start duration : Nat) : Allocation where
  key := key
  kind := kind
  isStatic := isStatic
  start := start
  blockDuration := duration
  blockPeriod := 0
  blocks := 1
  beamforming := none
  announced := false

def broadcastCbap (start duration : Nat) : Allocation :=
  single ⟨0, Aid.broadcast, Aid.broadcast⟩ .cbap true start duration

def isPeriodic (a : Allocation) : Bool :=
  1 < a.blocks && 0 < a.blockPeriod

end Allocation
end BeaconScheduler
