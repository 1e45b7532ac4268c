import BeaconScheduler.Clock
import BeaconScheduler.FreeSlots.Basic
import BeaconScheduler.TrafficSpec

/-!
# Answers to requests

What becomes of a request for airtime or of its deletion, and the responses that
carry it back to the station.
-/

set_option autoImplicit false

namespace BeaconScheduler

inductive Rejection where
  | invalidSpec (problem : TrafficSpec.Problem)
  | insufficientSpace
  /-- Blocks this close would leave too little contention time between them. -/
  | cbapFloor (spacing duration : Nat)
  | tooFewBlocks (found : Nat)
  | periodicNotSupported
  | durationIncrease (current requested : Nat)
  | cbapOnly
  | notFound
  | slots (error : SlotError)
deriving DecidableEq, Repr

inductive Outcome where
  | accepted (start duration blocks : Nat)
  | rejected (reason : Rejection)
deriving DecidableEq, Repr

namespace Outcome

def isAccepted : Outcome → Bool
  | .accepted .. => true
  | .rejected _ => false

def granted (a : Allocation) : Outcome :=
  .accepted a.start a.blockDuration a.blocks

end Outcome

structure AdmissionResponse where
  key : Allocation.Key
  spec : TrafficSpec
  outcome : Outcome
  decided : Time
deriving DecidableEq, Repr

inductive DeletionOutcome where
  | found
  | notFound
deriving DecidableEq, Repr

structure DeletionResponse where
  key : Allocation.Key
  outcome : DeletionOutcome
  time : Time
deriving DecidableEq, Repr

end BeaconScheduler
