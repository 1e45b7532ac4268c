import BeaconScheduler.Airtime.Basic

/-!
# Reserving airtime

`reserve` claims everything that an allocation occupies and registers it, or leaves
the airtime as it was. The allocations that a coordinator makes for itself are
reservations of particular shapes. `giveBack` returns what a removed allocation
occupied.
-/

set_option autoImplicit false

namespace BeaconScheduler.Airtime

open Noted

def claimAll (free : FreeSlots) : List Interval → Noted (Except SlotError FreeSlots)
  | [] => return .ok free
  | i :: rest => do
      match ← claimSlot free i.start i.stop with
      | .ok after => claimAll after rest
      | .error e => return .error e

def reserve (terms : Terms) (a : Allocation) (air : Airtime) :
    Noted (Except SlotError Nat × Airtime) := do
  let intervals ← a.occupied terms.guard
  match ← claimAll air.slots intervals with
  | .error e => return (.error e, air)
  | .ok slots =>
      let (stop, registry) ← register air.registry a
      return (.ok stop, ⟨registry, slots⟩)

/-- Releases the intervals as far as the DTI goes, up to the first refusal. -/
def releaseAll (free : FreeSlots) : List Interval → Noted (Except SlotError Unit × FreeSlots)
  | [] => return (.ok (), free)
  | i :: rest => do
      let stop := min i.stop free.dti
      if i.start < stop then
        match ← releaseSlot free i.start stop with
        | .ok after => releaseAll after rest
        | .error e => return (.error e, free)
      else
        releaseAll free rest

/-- Returns the airtime of an allocation that is no longer registered. The DTI may have
become shorter since the allocation was made, so what lies past its end is skipped. -/
def giveBack (terms : Terms) (a : Allocation) (air : Airtime) :
    Noted (Except SlotError Unit × Airtime) := do
  let intervals ← a.occupied terms.guard
  let (result, slots) ← releaseAll air.slots intervals
  return (result, { air with slots })

def reserveBlock (terms : Terms) (key : Allocation.Key) (kind : Allocation.Kind) (isStatic : Bool)
    (start duration : Nat) (air : Airtime) : Noted (Except SlotError Nat × Airtime) :=
  air.reserve terms (.single key kind isStatic start duration)

def reserveBlocks (terms : Terms) (key : Allocation.Key) (kind : Allocation.Kind) (isStatic : Bool)
    (start duration blocks : Nat) (air : Airtime) : Noted (Except SlotError Nat × Airtime) :=
  air.reserve terms { Allocation.single key kind isStatic start duration with blocks }

def reserveCbap (terms : Terms) (isStatic : Bool) (start duration : Nat) (air : Airtime) :
    Noted (Except SlotError Nat × Airtime) :=
  air.reserve terms { Allocation.broadcastCbap start duration with isStatic }

/-- Gives the whole DTI to one static service period of as many equal blocks as the terms
allow. -/
def reserveWholeDti (terms : Terms) (key : Allocation.Key) (air : Airtime) :
    Noted (Except SlotError Nat × Airtime) := do
  let duration ← Counter.div (air.slots.dti - terms.guard) terms.maxBlocks
  if duration = 0 then
    return (.error (.emptyInterval 0 air.slots.dti), air)
  else
    reserveBlocks terms key .servicePeriod true 0 duration terms.maxBlocks air

/-- A service period for beamforming training, in the first slot that is long enough. Gives
the start of the period. -/
def reserveTraining (terms : Terms) (source dest : Aid) (duration : Nat)
    (beamforming : Allocation.Beamforming) (air : Airtime) :
    Noted (Except SlotError Nat × Airtime) := do
  let needed ← Counter.add32 (← Counter.add32 duration Allocation.beamformingProtection) terms.guard
  match air.slots.firstFit? needed with
  | none => return (.error (.notFree 0 needed), air)
  | some start =>
      let training :=
        { Allocation.single ⟨0, source, dest⟩ .servicePeriod false start duration with
          beamforming := some beamforming }
      match ← air.reserve terms training with
      | (.error e, air) => return (.error e, air)
      | (.ok _, air) =>
          note (.trainingPlaced source dest start duration)
          return (.ok start, air)

end BeaconScheduler.Airtime
