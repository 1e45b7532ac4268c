import BeaconScheduler.FreeSlots.Basic

/-!
# Free time as the complement of occupied time

`complement` derives the free slots from the occupied intervals alone, and
`checkPartition` tests that free slots and occupied intervals divide the DTI between
them.
-/

set_option autoImplicit false

namespace BeaconScheduler.FreeSlots

/-- The gaps that sorted intervals leave between `cursor` and the end of the DTI. -/
def gaps (dti : Nat) : Nat → List Interval → List Interval
  | cursor, [] => if cursor < dti then [⟨cursor, dti⟩] else []
  | cursor, i :: rest =>
      let next := max cursor (min i.stop dti)
      if cursor < min i.start dti then
        ⟨cursor, min i.start dti⟩ :: gaps dti next rest
      else
        gaps dti next rest

/-- The part of the DTI that none of the intervals covers. The intervals may come in any
order, overlap, and reach past the DTI. -/
def complement (dti : Nat) (occupied : List Interval) : FreeSlots :=
  ⟨dti, gaps dti 0 (Interval.sort occupied)⟩

def checkPartition (free : FreeSlots) (occupied : List Interval) : Except SlotError Unit :=
  let sorted := Interval.sort occupied
  match Interval.firstOverlap? sorted with
  | some (first, second) => .error (.occupiedOverlap first second)
  | none =>
      let expected := (complement free.dti sorted).slots
      match sorted.getLast? with
      | some last =>
          if free.dti < last.stop then .error (.beyondDti last.stop free.dti)
          else if expected = free.slots then .ok () else .error (.partitionMismatch expected free.slots)
      | none =>
          if expected = free.slots then .ok () else .error (.partitionMismatch expected free.slots)

end BeaconScheduler.FreeSlots
