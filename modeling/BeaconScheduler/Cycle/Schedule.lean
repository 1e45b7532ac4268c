import BeaconScheduler.Airtime.Basic

/-!
# The published schedule

A beacon lists the registered allocations, and one broadcast contention period for
each free slot, by their starts. Entries that start together keep the order of the
registry, and come before a contention period.
-/

set_option autoImplicit false

namespace BeaconScheduler

abbrev Schedule := List Allocation

namespace Airtime

/-- Contention for the whole of a free slot. -/
def gapFilling (slot : Interval) : Allocation :=
  .broadcastCbap slot.start slot.length

def schedule (air : Airtime) : Schedule :=
  Sorting.sort (fun a b => a.start ≤ b.start) (air.registry ++ air.slots.slots.map gapFilling)

def noteLongSlots : List Interval → Noted Unit
  | [] => return ()
  | slot :: rest => do
      let limit := Allocation.Kind.cbap.maxBlockDuration
      if limit < slot.length then
        Noted.note (.longContention slot limit)
      noteLongSlots rest

@[simp] theorem value_noteLongSlots (slots : List Interval) :
    (noteLongSlots slots).value = .ok () := by
  induction slots with
  | nil => rfl
  | cons slot rest ih =>
      by_cases h : Allocation.Kind.cbap.maxBlockDuration < slot.length <;>
        simp [noteLongSlots, h, ih]

end Airtime
end BeaconScheduler
