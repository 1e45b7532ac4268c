import BeaconScheduler.FreeSlots.Basic

/-!
# Claiming and releasing free time

`claim` takes an interval out of the one slot that holds it, and `release` puts one
back, joined with the slots that it touches. Neither changes anything when it is
refused.
-/

set_option autoImplicit false

namespace BeaconScheduler

def Interval.without (slot : Interval) (start stop : Nat) : List Interval :=
  (if slot.start < start then [⟨slot.start, start⟩] else []) ++
    (if stop < slot.stop then [⟨stop, slot.stop⟩] else [])

namespace FreeSlots

/-- Takes `[start, stop)` out of the first slot that ends after `start`, if that slot
holds all of it. -/
def takeOut (start stop : Nat) : List Interval → Option (List Interval)
  | [] => none
  | slot :: rest =>
      if slot.stop ≤ start then
        (takeOut start stop rest).map (slot :: ·)
      else if slot.start ≤ start ∧ stop ≤ slot.stop then
        some (slot.without start stop ++ rest)
      else
        none

def claim (free : FreeSlots) (start stop : Nat) : Except SlotError FreeSlots :=
  if stop ≤ start then
    .error (.emptyInterval start stop)
  else
    match takeOut start stop free.slots with
    | some slots => .ok { free with slots }
    | none => .error (.notFree start stop)

/-- Puts `[start, stop)` in front of the first slot that ends after `start`, unless the
two overlap. A slot that ends at `start` is absorbed, and so is one that starts at
`stop`. -/
def putBack (start stop : Nat) : List Interval → Option (List Interval)
  | [] => some [⟨start, stop⟩]
  | slot :: rest =>
      if start < slot.stop then
        if slot.start < stop then none
        else if slot.start = stop then some (⟨start, slot.stop⟩ :: rest)
        else some (⟨start, stop⟩ :: slot :: rest)
      else if slot.stop = start ∧ rest.head?.all (start < ·.stop) then
        putBack slot.start stop rest
      else
        (putBack start stop rest).map (slot :: ·)

def release (free : FreeSlots) (start stop : Nat) : Except SlotError FreeSlots :=
  if stop ≤ start then
    .error (.emptyInterval start stop)
  else if free.dti < stop then
    .error (.beyondDti stop free.dti)
  else
    match putBack start stop free.slots with
    | some slots => .ok { free with slots }
    | none => .error (.alreadyFree start stop)

/-- Releases the `length` microseconds from `stop` on, which a block gives up when it is
shortened to end at `stop`. -/
def reopenTail (free : FreeSlots) (stop length : Nat) :
    Except Fault (Except SlotError FreeSlots) :=
  if length = 0 then
    .ok (.ok free)
  else do
    let tail ← Counter.add32 stop length
    return free.release stop tail

end FreeSlots
end BeaconScheduler
