import BeaconScheduler.Admission.Policy
import BeaconScheduler.Airtime.Basic
import BeaconScheduler.FreeSlots.Periodic
import BeaconScheduler.RequestQueue

/-!
# Decisions on admission requests

A request under a key that is not registered asks for a new allocation, one under a
registered key for a shorter block duration. A policy answers with an outcome and
the airtime after it; a rejection leaves the airtime as it was.
-/

set_option autoImplicit false

namespace BeaconScheduler.Policy

open Airtime Counter Noted

def requested (source : Aid) (spec : TrafficSpec) (start duration : Nat) : Allocation :=
  .single (spec.key source) spec.kind spec.isStatic start duration

/-- One block at the start of the first slot that is longer than block and guard time. -/
def placeBlock (terms : Terms) (source : Aid) (spec : TrafficSpec) (duration : Nat)
    (air : Airtime) : Noted (Outcome × Airtime) := do
  let needed ← add32 duration terms.guard
  match air.slots.firstFit? needed with
  | none =>
      note (.noSlotFor duration terms.guard)
      return (.rejected .insufficientSpace, air)
  | some start =>
      let stop ← add32 (← add32 start duration) terms.guard
      match ← claimSlot air.slots start stop with
      | .error e => return (.rejected (.slots e), air)
      | .ok slots =>
          let a := requested source spec start duration
          let (_, registry) ← register air.registry a
          return (.granted a, ⟨registry, slots⟩)

def claimBlocks (duration guard : Nat) (free : FreeSlots) :
    List Nat → Noted (Except SlotError FreeSlots)
  | [] => return .ok free
  | start :: rest => do
      let stop ← add32 (← add32 start duration) guard
      match ← claimSlot free start stop with
      | .ok after => claimBlocks duration guard after rest
      | .error e =>
          note (.blockNotClaimed start e)
          return .error e

def findOffsets (terms : Terms) (free : FreeSlots) (duration spacing : Nat) :
    Noted (List Nat) := do
  let offsets ← free.periodicOffsets duration spacing terms.guard terms.maxBlocks
  unless free.slots.isEmpty || spacing == 0 do
    note (.offsetsFound offsets duration spacing)
  return offsets

/-- Equally spaced blocks, a whole fraction of the beacon interval apart, with enough
contention time between them; two at least. -/
def placePeriodic (terms : Terms) (source : Aid) (spec : TrafficSpec) (duration : Nat)
    (air : Airtime) : Noted (Outcome × Airtime) := do
  let spacing ← div terms.interval spec.period
  let needed ← add32 duration terms.guard
  if spacing < needed ∨ spacing - duration < terms.minBroadcastCbap then
    note (.tooLittleContention spacing terms.minBroadcastCbap duration)
    return (.rejected (.cbapFloor spacing duration), air)
  match ← findOffsets terms air.slots duration spacing with
  | start :: next :: more =>
      let offsets := start :: next :: more
      match ← claimBlocks duration terms.guard air.slots offsets with
      | .error e => return (.rejected (.slots e), air)
      | .ok slots =>
          let a :=
            { requested source spec start duration with
              blocks := offsets.length
              blockPeriod := spacing }
          let (_, registry) ← register air.registry a
          return (.granted a, ⟨registry, slots⟩)
  | offsets =>
      note (.fewOffsets offsets.length duration spacing)
      return (.rejected (.tooFewBlocks offsets.length), air)

def grant (policy : Policy) (terms : Terms) (source : Aid) (spec : TrafficSpec) (air : Airtime) :
    Noted (Outcome × Airtime) :=
  match policy with
  | .cbapOnly => do
      note (.cbapOnlyRefusal spec.id source)
      return (.rejected .cbapOnly, air)
  | .basic =>
      if spec.isPeriodic then do
        note (.periodicNotSupported spec.period source)
        return (.rejected .periodicNotSupported, air)
      else do
        placeBlock terms source spec (← spec.desiredDuration) air
  | .periodic => do
      let duration ← spec.desiredDuration
      if spec.isPeriodic then
        placePeriodic terms source spec duration air
      else
        placeBlock terms source spec duration air

/-- Reopens, block by block, the time between the new and the old end of what each block
occupies. Also says at which block it was refused. -/
def reopenTails (free : FreeSlots) :
    List (Interval × Interval) → Noted (Except (Nat × SlotError) FreeSlots)
  | [] => return .ok free
  | (old, new) :: rest => do
      let length ← sub old.stop new.stop
      note (.blockShrinks old.start length new.stop)
      match ← reopenSlot free new.stop length with
      | .ok after => reopenTails after rest
      | .error e => return .error (old.start, e)

/-- Shortens the blocks of the key's allocation to what the request now aims for. Longer
blocks are not granted. -/
def shorten (terms : Terms) (source : Aid) (spec : TrafficSpec) (air : Airtime) :
    Noted (Outcome × Airtime) := do
  let key := spec.key source
  let duration ← spec.desiredDuration
  match air.registry.find? key with
  | none => return (.rejected .notFound, air)
  | some current =>
      if current.blockDuration < duration then
        note (.durationIncreaseRefused key current.blockDuration duration)
        return (.rejected (.durationIncrease current.blockDuration duration), air)
      if duration = current.blockDuration then
        return (.granted current, air)
      let shorter := { current with blockDuration := duration }
      let old ← current.occupied terms.guard
      let new ← shorter.occupied terms.guard
      match ← reopenTails air.slots (old.zip new) with
      | .error (start, e) =>
          note (.tailNotReturned key start e)
          return (.rejected (.slots e), air)
      | .ok slots =>
          note (.shrunk key current.blockDuration duration)
          return (.granted shorter, ⟨Registry.replace key shorter air.registry, slots⟩)

def modify (policy : Policy) (terms : Terms) (source : Aid) (spec : TrafficSpec) (air : Airtime) :
    Noted (Outcome × Airtime) :=
  match policy with
  | .cbapOnly => return (.rejected .cbapOnly, air)
  | .basic | .periodic => shorten terms source spec air

/-- Decides on a request: a malformed one is rejected, one under a registered key changes
the allocation, any other asks for a new one. -/
def decide (policy : Policy) (terms : Terms) (now : Time) (request : AdmissionRequest)
    (air : Airtime) : Noted (Outcome × Airtime) :=
  match request.spec.validate with
  | .error problem => do
      noteAt now (.invalidSpec request.key request.received problem)
      return (.rejected (.invalidSpec problem), air)
  | .ok () =>
      if air.registry.contains request.key then
        policy.modify terms request.source request.spec air
      else
        policy.grant terms request.source request.spec air

end BeaconScheduler.Policy
