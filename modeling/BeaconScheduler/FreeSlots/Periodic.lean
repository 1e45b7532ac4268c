import BeaconScheduler.FreeSlots.Basic

/-!
# Equally spaced blocks

The search for room for a periodic allocation: the first block goes into the first
slot that can hold it, the others follow at a fixed distance for as long as each of
them finds free time.
-/

set_option autoImplicit false

namespace BeaconScheduler.FreeSlots

def firstRoom (needed : Nat) : List Interval → Except Fault (Option Interval)
  | [] => .ok none
  | slot :: rest => do
      let stop ← Counter.add32 slot.start needed
      if stop ≤ slot.stop then return some slot else firstRoom needed rest

/-- At most `count` offsets from `t` on, `spacing` apart, each with `needed` free
microseconds after it. `slot` is where `t` lies. -/
def occurrences (free : FreeSlots) (needed spacing : Nat) :
    Nat → Interval → Nat → Except Fault (List Nat)
  | 0, _, _ => .ok []
  | count + 1, slot, t => do
      let stop ← Counter.add32 t needed
      if slot.stop < stop then
        return []
      let next ← Counter.add32 t spacing
      if next < slot.stop then
        return t :: (← occurrences free needed spacing count slot next)
      match free.slotAt? next with
      | some slot => return t :: (← occurrences free needed spacing count slot next)
      | none => return [t]

/-- Up to `maxBlocks` offsets `spacing` apart, at each of which a block of `duration`
and its guard time lie in one free slot. -/
def periodicOffsets (free : FreeSlots) (duration spacing guard maxBlocks : Nat) :
    Except Fault (List Nat) :=
  if free.slots.isEmpty || spacing == 0 then
    .ok []
  else do
    let needed ← Counter.add32 duration guard
    if maxBlocks = 0 then
      return []
    match ← firstRoom needed free.slots with
    | some slot => occurrences free needed spacing maxBlocks slot slot.start
    | none => return []

end BeaconScheduler.FreeSlots
