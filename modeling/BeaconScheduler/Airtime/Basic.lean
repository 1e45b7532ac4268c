import BeaconScheduler.Airtime.Terms
import BeaconScheduler.FreeSlots.Claim
import BeaconScheduler.Journal.Noted
import BeaconScheduler.Registry

/-!
# Airtime

The registry of a DTI together with its free slots. Here are the operations on the
two that write to the journal; their values are those of the silent ones.
-/

set_option autoImplicit false

namespace BeaconScheduler

structure Airtime where
  registry : Registry
  slots : FreeSlots
deriving DecidableEq, Repr

open Noted

def FreeSlots.noteChange (change : Except SlotError FreeSlots)
    (event : FreeSlots → Journal.Event) : Noted Unit :=
  match change with
  | .ok after => note (event after)
  | .error _ => pure ()

namespace Airtime

def claimSlot (free : FreeSlots) (start stop : Nat) : Noted (Except SlotError FreeSlots) := do
  let change := free.claim start stop
  let slot := (free.slotAt? start).getD ⟨start, stop⟩
  FreeSlots.noteChange change fun after => .claimed ⟨start, stop⟩ slot after.slots.length
  return change

def releaseSlot (free : FreeSlots) (start stop : Nat) : Noted (Except SlotError FreeSlots) := do
  let change := free.release start stop
  FreeSlots.noteChange change fun after => .released ⟨start, stop⟩ after.slots.length
  return change

def reopenSlot (free : FreeSlots) (stop length : Nat) : Noted (Except SlotError FreeSlots) := do
  let change ← free.reopenTail stop length
  if length ≠ 0 then
    FreeSlots.noteChange change fun after => .released ⟨stop, stop + length⟩ after.slots.length
  return change

/-- Registers `a` last, and gives the end of its last block. -/
def register (registry : Registry) (a : Allocation) : Noted (Nat × Registry) := do
  let stop ← a.stop
  note (.inserted a)
  return (stop, registry ++ [a])

@[simp] theorem value_noteChange (change : Except SlotError FreeSlots)
    (event : FreeSlots → Journal.Event) :
    (FreeSlots.noteChange change event).value = .ok () := by
  cases change <;> rfl

@[simp] theorem value_claimSlot (free : FreeSlots) (start stop : Nat) :
    (claimSlot free start stop).value = .ok (free.claim start stop) := by
  simp [claimSlot, Except.map]

@[simp] theorem value_releaseSlot (free : FreeSlots) (start stop : Nat) :
    (releaseSlot free start stop).value = .ok (free.release start stop) := by
  simp [releaseSlot, Except.map]

@[simp] theorem value_reopenSlot (free : FreeSlots) (stop length : Nat) :
    (reopenSlot free stop length).value = free.reopenTail stop length := by
  by_cases hl : length = 0
  · simp [reopenSlot, hl]
  · cases h : free.reopenTail stop length <;> simp [reopenSlot, h, hl, Except.map]

end Airtime
end BeaconScheduler
