import BeaconScheduler.Admission.Decision
import BeaconScheduler.Airtime.Reservation
import BeaconScheduler.Config.Validate
import BeaconScheduler.Cycle.Schedule
import BeaconScheduler.FreeSlots.Partition

/-!
# The scheduler of a coordinator

A state machine over beacon intervals. It owns the airtime of the DTI, publishes a
schedule for each beacon, queues admission requests and decides on them when the
interval ends; deletions take effect at once.
-/

set_option autoImplicit false

namespace BeaconScheduler

structure Statistics where
  intervals : Nat
  accepted : Nat
  rejected : Nat
  deleted : Nat
deriving DecidableEq, Repr

structure Scheduler where
  policy : Policy
  limits : Limits
  coordinator : Aid
  phase : Phase
  timing : Timing
  /-- The phase change handed out last; none after an interval has ended. -/
  pending : Option Wakeup
  air : Airtime
  queue : RequestQueue
  /-- What the next beacon lists. -/
  published : Schedule
  /-- Decisions that nobody has taken yet. -/
  responses : List AdmissionResponse
  /-- Free time of the DTI when the schedule was last made. -/
  remaining : Nat
  statistics : Statistics
deriving DecidableEq, Repr

namespace Scheduler

open Noted

def terms (s : Scheduler) : Terms :=
  { s.limits with interval := s.timing.interval }

def lend {α : Type} (s : Scheduler) (use : Terms → Airtime → Noted (α × Airtime)) :
    Noted (α × Scheduler) := do
  let (result, air) ← use s.terms s.air
  return (result, { s with air })

/-! ## Upkeep of the schedule -/

/-- Measures the free time anew. With nothing registered the whole DTI is free. -/
def measure (s : Scheduler) : Except Fault Scheduler :=
  if s.air.registry.isEmpty then
    .ok { s with
      air := { s.air with slots := .whole s.timing.dti }
      remaining := s.timing.dti }
  else do
    return { s with remaining := ← s.air.slots.totalFree }

/-- Publishes the schedule of the current airtime; its allocations count as announced. -/
def publish (s : Scheduler) : Noted Scheduler := do
  Airtime.noteLongSlots s.air.slots.slots
  return { s with
    published := s.air.schedule
    air := { s.air with registry := s.air.registry.markAnnounced } }

def refresh (s : Scheduler) : Noted Scheduler := do
  (← s.measure).publish

def giveBackAll (now : Time) (terms : Terms) (air : Airtime) : List Allocation → Noted Airtime
  | [] => return air
  | a :: rest => do
      let (result, air) ← air.giveBack terms a
      match result with
      | .ok () => giveBackAll now terms air rest
      | .error e =>
          noteAt now (.airtimeNotReturned a.key e)
          giveBackAll now terms air rest

def noteEach (event : Allocation → Journal.Event) : List Allocation → Noted Unit
  | [] => return ()
  | a :: rest => do
      note (event a)
      noteEach event rest

def cleanUp (s : Scheduler) (now : Time) : Noted Scheduler := do
  let (purged, kept) := s.air.registry.purge
  noteEach .purged purged
  let air ← giveBackAll now s.terms { s.air with registry := kept } purged
  unless purged.isEmpty do
    noteAt now (.cleanedUp purged.length)
  return { s with air }

def noteDropped (now : Time) (dti : Nat) : List Allocation → Noted Unit
  | [] => return ()
  | a :: rest => do
      noteAt now (.doesNotFit a.key dti)
      noteDropped now dti rest

/-- Makes the airtime anew for a DTI of another length; what does not fit is dropped. -/
def adjust (s : Scheduler) (now : Time) (dti : Nat) : Noted Scheduler := do
  let (dropped, kept) ← s.air.registry.splitBeyond dti s.limits.guard
  noteDropped now dti dropped
  let occupied ← Registry.occupied s.limits.guard kept
  refresh { s with air := ⟨kept, .complement dti occupied⟩ }

/-! ## Start -/

/-- Registers the static allocations of a configuration; one that cannot be placed is left
out. -/
def placeStatics (terms : Terms) (air : Airtime) : List Config.Static → Noted Airtime
  | [] => return air
  | a :: rest => do
      let (result, air) ← air.reserveBlocks terms a.key a.kind true a.start a.blockDuration a.blocks
      match result with
      | .ok _ => placeStatics terms air rest
      | .error e =>
          note (.staticNotRegistered a.key a.start e)
          placeStatics terms air rest

def start (config : Config) : Noted Scheduler := do
  config.require
  let beacon := config.beacon
  let header ← beacon.header
  let dti := beacon.interval - header
  let terms : Terms := { config.limits with interval := beacon.interval }
  let air ← placeStatics terms ⟨[], .whole dti⟩ config.statics
  let s ← refresh
    { policy := config.policy
      limits := config.limits
      coordinator := beacon.coordinator
      phase := .beaconHeader
      timing := ⟨beacon.interval, header, beacon.announcement, dti, 0, none, none⟩
      pending := none
      air
      queue := []
      published := []
      responses := []
      remaining := dti
      statistics := ⟨0, 0, 0, 0⟩ }
  note (.schedulerUp s.policy dti s.air.registry.length)
  return s

/-! ## Phases -/

/-- Starts an interval at `now`, of which the header ends with the announcement period. Gives
the first phase change of the interval. -/
def startInterval (s : Scheduler) (now : Time) (coordinator : Aid)
    (interval header announcement : Nat) : Noted (Wakeup × Scheduler) := do
  if let some pending := s.pending then
    noteAt now (.startWhilePending pending s.phase)
  if interval ≤ header then
    noteAt now (.headerTooLong header interval)
  let dti := interval - header
  let s :=
    { s with
      coordinator
      phase := .beaconHeader
      timing := ⟨interval, header, announcement, dti, now, none, none⟩ }
  noteAt now (.intervalStarted interval header announcement dti)
  let s ← if dti = s.air.slots.dti then pure s else s.adjust now dti
  let next : Wakeup ←
    if 0 < announcement then
      pure ⟨← now.after (header - announcement), .announcementStart⟩
    else
      pure ⟨← now.after header, .dataTransferStart⟩
  return (next, { s with pending := some next })

def startAnnouncement (s : Scheduler) (now : Time) : Noted (Wakeup × Scheduler) := do
  noteAt now .announcementStarted
  let time ← now.after s.timing.announcement
  return (⟨time, .dataTransferStart⟩,
    { s with
      phase := .announcement
      timing := { s.timing with announcementStart := some now } })

def startDataTransfer (s : Scheduler) (now : Time) : Noted (Wakeup × Scheduler) := do
  noteAt now (.dataTransferStarted s.published.length)
  let time ← now.after s.timing.dti
  return (⟨time, .intervalEnd⟩,
    { s with
      phase := .dataTransfer
      timing := { s.timing with dataTransferStart := some now } })

def decideAll (policy : Policy) (terms : Terms) (now : Time) (air : Airtime) :
    List AdmissionRequest → Noted (List AdmissionResponse × Airtime)
  | [] => return ([], air)
  | request :: rest => do
      let (outcome, air) ← policy.decide terms now request air
      noteAt now (.decided request.key outcome)
      let (responses, air) ← decideAll policy terms now air rest
      return (⟨request.key, request.spec, outcome, now⟩ :: responses, air)

def noteInconsistency (s : Scheduler) : Noted Unit := do
  let occupied ← Registry.occupied s.limits.guard s.air.registry
  match s.air.slots.checkPartition occupied with
  | .ok () => return ()
  | .error e => note (.inconsistentSlots e)

/-- Ends the interval: what has expired is dropped, the queue is decided on in the order of
arrival, and the schedule of the next beacon is published. -/
def endInterval (s : Scheduler) (now : Time) : Noted Scheduler := do
  noteAt now (.intervalEnded s.queue.length)
  let s ← s.cleanUp now
  let (responses, air) ← decideAll s.policy s.terms now s.air s.queue
  let s ← refresh { s with air, queue := [], responses := s.responses ++ responses }
  let s := { s with phase := .beaconHeader }
  s.noteInconsistency
  let accepted := responses.countP (·.outcome.isAccepted)
  return { s with
    statistics :=
      { s.statistics with
        intervals := s.statistics.intervals + 1
        accepted := s.statistics.accepted + accepted
        rejected := s.statistics.rejected + (responses.length - accepted) } }

/-- Makes the pending phase change, if it is the given one and due. Gives the next one, or
none when the interval has ended; anything else changes nothing and gives the pending one. -/
def handle (s : Scheduler) (now : Time) (change : PhaseChange) :
    Noted (Option Wakeup × Scheduler) := do
  match s.pending with
  | none =>
      noteAt now (.changeWithoutWakeup change s.phase)
      return (none, s)
  | some pending =>
      if change ≠ pending.change ∨ now < pending.time ∨ ¬ s.phase.allows change then
        noteAt now (.changeIgnored change s.phase pending)
        return (some pending, s)
      match change with
      | .announcementStart =>
          let (next, s) ← s.startAnnouncement now
          return (some next, { s with pending := some next })
      | .dataTransferStart =>
          let (next, s) ← s.startDataTransfer now
          return (some next, { s with pending := some next })
      | .intervalEnd =>
          let s ← s.endInterval now
          return (none, { s with pending := none })

/-! ## Requests -/

def request (s : Scheduler) (now : Time) (source : Aid) (spec : TrafficSpec) :
    Noted Scheduler := do
  noteAt now (.requestQueued (spec.key source) s.phase)
  return { s with queue := s.queue.push ⟨source, spec, now⟩ }

def delete (s : Scheduler) (now : Time) (key : Allocation.Key) :
    Noted (DeletionResponse × Scheduler) := do
  match s.air.registry.find? key with
  | none =>
      noteAt now (.deletionUnknown key)
      return (⟨key, .notFound, now⟩, s)
  | some a =>
      note (.removed a)
      let (result, air) ← Airtime.giveBack s.terms a { s.air with registry := s.air.registry.erase key }
      if let .error e := result then
        noteAt now (.airtimeNotReturned key e)
      noteAt now (.deletionReleased key)
      return (⟨key, .found, now⟩,
        { s with
          air
          statistics := { s.statistics with deleted := s.statistics.deleted + 1 } })

/-- A beamforming training period between coordinator and `peer`; it is in force from the next
beacon on. Gives its start. -/
def train (s : Scheduler) (peer : Aid) (duration : Nat) (beamforming : Allocation.Beamforming) :
    Noted (Option Nat × Scheduler) := do
  let (result, s) ← s.lend (Airtime.reserveTraining · s.coordinator peer duration beamforming ·)
  match result with
  | .ok start => return (some start, s)
  | .error e =>
      note (.noRoomForTraining peer e)
      return (none, s)

def takeResponses (s : Scheduler) : List AdmissionResponse × Scheduler :=
  (s.responses, { s with responses := [] })

end Scheduler
end BeaconScheduler
