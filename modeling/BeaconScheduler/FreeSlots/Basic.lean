import BeaconScheduler.Counter
import BeaconScheduler.Interval

/-!
# The free time of a data transfer interval

A data transfer interval (DTI) of a given length and the list of its free slots.
A list that describes free time in the one canonical way is `WellFormed`: slots are
not empty, in order, do not touch, and end inside the DTI. `Free t` says that
microsecond `t` lies in a slot.
-/

set_option autoImplicit false

namespace BeaconScheduler

inductive SlotError where
  | emptyInterval (start stop : Nat)
  | beyondDti (stop dti : Nat)
  | notFree (start stop : Nat)
  | alreadyFree (start stop : Nat)
  | occupiedOverlap (first second : Interval)
  | partitionMismatch (expected found : List Interval)
deriving DecidableEq, Repr

structure FreeSlots where
  dti : Nat
  slots : List Interval
deriving DecidableEq, Repr

namespace FreeSlots

def whole (dti : Nat) : FreeSlots :=
  ⟨dti, if 0 < dti then [⟨0, dti⟩] else []⟩

def Free (free : FreeSlots) (t : Nat) : Prop :=
  ∃ slot ∈ free.slots, slot.start ≤ t ∧ t < slot.stop

structure WellFormed (free : FreeSlots) : Prop where
  nonempty : ∀ slot ∈ free.slots, slot.start < slot.stop
  apart : free.slots.Pairwise fun a b => a.stop < b.start
  inside : ∀ slot ∈ free.slots, slot.stop ≤ free.dti

def totalFree (free : FreeSlots) : Except Fault Nat :=
  free.slots.foldlM (fun sum slot => Counter.add32 sum slot.length) 0

/-- The start of the first slot that is longer than `needed`; a slot of just that
length is passed over. -/
def firstFit? (free : FreeSlots) (needed : Nat) : Option Nat :=
  (free.slots.find? fun slot => needed < slot.length).map (·.start)

/-- The slot that holds microsecond `t`: the first one that ends after `t`, unless it
starts after `t` too. -/
def slotAt? (free : FreeSlots) (t : Nat) : Option Interval :=
  (free.slots.find? fun slot => t < slot.stop).filter (·.contains t)

def slotIndex? (free : FreeSlots) (t : Nat) : Option Nat :=
  (free.slotAt? t).bind fun _ => free.slots.findIdx? fun slot => t < slot.stop

end FreeSlots
end BeaconScheduler
