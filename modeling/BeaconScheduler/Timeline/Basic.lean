import BeaconScheduler.Cycle.Scheduler

/-!
# The timeline of a scheduler

Beacon intervals of the configured timing follow each other on the virtual clock.
Frames of stations are submitted ahead of time and handed to the scheduler when they
arrive, and observers are told what the scheduler decides.
-/

set_option autoImplicit false

namespace BeaconScheduler
namespace Timeline

inductive Frame where
  | request (source : Aid) (spec : TrafficSpec)
  | deletion (key : Allocation.Key)
deriving DecidableEq, Repr

structure Arrival where
  time : Time
  frame : Frame
deriving DecidableEq, Repr

inductive Observer where
  | everything
  | schedulesOnly
deriving DecidableEq, Repr

inductive Report where
  | schedule (entries : Schedule)
  | admission (response : AdmissionResponse)
  | deletion (response : DeletionResponse)
deriving DecidableEq, Repr

/-- A report to the observer that was registered as number `observer`. -/
structure Delivery where
  observer : Nat
  time : Time
  report : Report
deriving DecidableEq, Repr

end Timeline

structure Timeline where
  beacon : Config.Beacon
  scheduler : Scheduler
  observers : List Timeline.Observer
  /-- By time; frames of one time in the order of their submission. -/
  arrivals : List Timeline.Arrival
  now : Time
  /-- Intervals that have been run; also the index of the next one. -/
  intervals : Nat
  /-- Reports since the last time they were taken. -/
  outbox : List Timeline.Delivery
deriving DecidableEq, Repr

namespace Timeline

open Noted

def start (config : Config) : Noted Timeline := do
  let scheduler ← Scheduler.start config
  return {
    beacon := config.beacon
    scheduler
    observers := []
    arrivals := []
    now := 0
    intervals := 0
    outbox := [] }

def register (t : Timeline) (observer : Observer) : Noted (Nat × Timeline) := do
  note (.observerRegistered t.observers.length)
  return (t.observers.length, { t with observers := t.observers ++ [observer] })

/-! ## Times -/

def intervalStart (t : Timeline) (k : Nat) : Except Fault Time :=
  Counter.mul64 k t.beacon.interval

def dtiWindow (t : Timeline) (k : Nat) : Except Fault (Time × Time) := do
  let start ← t.intervalStart k
  let dtiStart ← start.after (← t.beacon.header)
  let stop ← start.after t.beacon.interval
  return (dtiStart, stop)

/-! ## Reports -/

def Observer.wants : Observer → Report → Bool
  | .everything, _ => true
  | .schedulesOnly, .schedule _ => true
  | .schedulesOnly, _ => false

def deliveries (observers : List Observer) (time : Time) (report : Report) : List Delivery :=
  observers.zipIdx.filterMap fun (observer, index) =>
    if observer.wants report then some ⟨index, time, report⟩ else none

def noteEntries (time : Time) : Schedule → Noted Unit
  | [] => return ()
  | a :: rest => do
      noteAt time (.scheduleEntry a)
      noteEntries time rest

def noteReport (time : Time) : Report → Noted Unit
  | .schedule entries => do
      noteAt time (.scheduleBroadcast entries.length)
      noteEntries time entries
  | .admission response => noteAt time (.admissionAnswered response.key response.outcome)
  | .deletion response => noteAt time (.deletionAnswered response.key response.outcome)

def tell (t : Timeline) (time : Time) (report : Report) : Noted Timeline := do
  noteReport time report
  return { t with outbox := t.outbox ++ deliveries t.observers time report }

def tellAll (time : Time) (t : Timeline) : List Report → Noted Timeline
  | [] => return t
  | report :: rest => do
      let t ← t.tell time report
      tellAll time t rest

def takeOutbox (t : Timeline) : List Delivery × Timeline :=
  (t.outbox, { t with outbox := [] })

/-! ## Arrivals -/

/-- Behind all arrivals that are not later. -/
def insertArrival (a : Arrival) : List Arrival → List Arrival
  | [] => [a]
  | b :: rest => if b.time ≤ a.time then b :: insertArrival a rest else a :: b :: rest

/-- Has a frame arrive at `time`, or as soon as possible if that has passed. -/
def submit (t : Timeline) (time : Time) (frame : Frame) : Noted Timeline := do
  if time < t.now then
    note (.lateArrival time t.now)
  return { t with arrivals := insertArrival ⟨time, frame⟩ t.arrivals }

def receive (t : Timeline) (time : Time) : Frame → Noted Timeline
  | .request source spec => do
      let scheduler ← t.scheduler.request time source spec
      return { t with scheduler }
  | .deletion key => do
      let (response, scheduler) ← t.scheduler.delete time key
      { t with scheduler }.tell time (.deletion response)

def receiveAll (limit : Time) (t : Timeline) : List Arrival → Noted Timeline
  | [] => return { t with arrivals := [] }
  | a :: rest =>
      if a.time < limit then do
        let t ← t.receive (max a.time t.now) a.frame
        receiveAll limit t rest
      else
        return { t with arrivals := a :: rest }

/-- Lets the clock run up to `time`. A frame that arrives at that very time has to wait. -/
def advance (t : Timeline) (time : Time) : Noted Timeline := do
  let t ← receiveAll time t t.arrivals
  return { t with now := time }

/-! ## Intervals -/

/-- An interval has at most this many phase changes: into the announcement period, into the
DTI, and out of it. -/
def maxChanges : Nat := 3

def followChanges : Nat → Wakeup → Timeline → Noted Timeline
  | 0, _, t => return t
  | left + 1, next, t => do
      let t ← t.advance next.time
      let (wakeup, scheduler) ← t.scheduler.handle next.time next.change
      let t := { t with scheduler }
      match wakeup with
      | some next => followChanges left next t
      | none => return t

def runInterval (t : Timeline) : Noted Timeline := do
  let start ← t.intervalStart t.intervals
  let t ← t.advance start
  let header ← t.beacon.header
  let (next, scheduler) ←
    t.scheduler.startInterval start t.beacon.coordinator t.beacon.interval header t.beacon.announcement
  let t ← { t with scheduler }.tell start (.schedule scheduler.published)
  let t ← followChanges maxChanges next t
  let (responses, scheduler) := t.scheduler.takeResponses
  let t ← tellAll t.now { t with scheduler } (responses.map .admission)
  return { t with intervals := t.intervals + 1 }

/-- More intervals than the clock can count. -/
def endOfTime : Nat := UInt64.size

def runLoop (stopAfter : Option Nat) : Nat → Nat → Timeline → Noted (Nat × Timeline)
  | 0, ran, t => return (ran, t)
  | left + 1, ran, t =>
      if stopAfter.any (· ≤ ran) then do
        note (.stopped ran)
        return (ran, t)
      else do
        let t ← t.runInterval
        runLoop stopAfter left (ran + 1) t

/-- Runs intervals up to a number, of which at least one, or without a limit. A request to stop
that is there from the start, or comes during interval number `stopAfter` of the run, ends the
run before the next interval. Gives the number of intervals that were run. -/
def run (t : Timeline) (limit : Option Nat) (stopAfter : Option Nat) : Noted (Nat × Timeline) :=
  match limit with
  | some count => runLoop stopAfter (max count 1) 0 t
  | none => runLoop stopAfter endOfTime 0 t

end Timeline
end BeaconScheduler
