/-!
# The terms of airtime

What a decision on airtime has to respect: limits that hold for the life of a
scheduler, and the length of the beacon interval at the time.
-/

set_option autoImplicit false

namespace BeaconScheduler

structure Limits where
  guard : Nat
  /-- Contention time that has to remain between the blocks of a periodic allocation. -/
  minBroadcastCbap : Nat
  maxBlocks : Nat
deriving DecidableEq, Repr

structure Terms extends Limits where
  interval : Nat
deriving DecidableEq, Repr

end BeaconScheduler
