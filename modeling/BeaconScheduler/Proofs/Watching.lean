import BeaconScheduler.Proofs.Intervals

/-!
# Watching a timeline

A watched timeline also tells which frames it hands to the scheduler, when, and what observers
are told.  Watching changes nothing (`watchInterval_eq`), and the reports watched are those
that observers get (`watchInterval_tells`).
-/

set_option autoImplicit false

namespace BeaconScheduler.Timeline

open Counter

structure Handover where
  arrival : Arrival
  time : Time
deriving DecidableEq, Repr

inductive Happening where
  | handed (handover : Handover)
  | told (time : Time) (report : Report)
deriving DecidableEq, Repr

namespace Happening

def handover? : Happening → Option Handover
  | .handed handover => some handover
  | .told .. => none

def admission? : Happening → Option (Time × AdmissionResponse)
  | .told time (.admission response) => some (time, response)
  | _ => none

def deletion? : Happening → Option (Time × DeletionResponse)
  | .told time (.deletion response) => some (time, response)
  | _ => none

def deliveries (observers : List Observer) : Happening → List Delivery
  | .handed _ => []
  | .told time report => Timeline.deliveries observers time report

end Happening

abbrev Log := List Happening

namespace Log

def handed (log : Log) : List Handover :=
  log.filterMap Happening.handover?

def admissions (log : Log) : List (Time × AdmissionResponse) :=
  log.filterMap Happening.admission?

def deletions (log : Log) : List (Time × DeletionResponse) :=
  log.filterMap Happening.deletion?

/-- The log of an interval: what happens before its beacon and after it, and the responses that
are told at its end. -/
def ofInterval (start stop : Time) (before during : Log) (published : Schedule)
    (responses : List AdmissionResponse) : Log :=
  before ++ .told start (.schedule published) ::
    (during ++ responses.map fun response => .told stop (.admission response))

end Log

/-! ## The watched timeline -/

def watchReceive (t : Timeline) (time : Time) (a : Arrival) : Noted (Log × Timeline) :=
  match a.frame with
  | .request source spec => do
      let scheduler ← t.scheduler.request time source spec
      return ([.handed ⟨a, time⟩], { t with scheduler })
  | .deletion key => do
      let (response, scheduler) ← t.scheduler.delete time key
      let t ← { t with scheduler }.tell time (.deletion response)
      return ([.handed ⟨a, time⟩, .told time (.deletion response)], t)

def watchReceiveAll (limit : Time) (t : Timeline) : List Arrival → Noted (Log × Timeline)
  | [] => return ([], { t with arrivals := [] })
  | a :: rest =>
      if a.time < limit then do
        let (first, t) ← t.watchReceive (max a.time t.now) a
        let (others, t) ← watchReceiveAll limit t rest
        return (first ++ others, t)
      else
        return ([], { t with arrivals := a :: rest })

def watchAdvance (t : Timeline) (time : Time) : Noted (Log × Timeline) := do
  let (log, t) ← watchReceiveAll time t t.arrivals
  return (log, { t with now := time })

def watchChanges : Nat → Wakeup → Timeline → Noted (Log × Timeline)
  | 0, _, t => return ([], t)
  | left + 1, next, t => do
      let (log, t) ← t.watchAdvance next.time
      let (wakeup, scheduler) ← t.scheduler.handle next.time next.change
      let t := { t with scheduler }
      match wakeup with
      | some next => do
          let (later, t) ← watchChanges left next t
          return (log ++ later, t)
      | none => return (log, t)

def watchInterval (t : Timeline) : Noted (Log × Timeline) := do
  let start ← t.intervalStart t.intervals
  let (before, t) ← t.watchAdvance start
  let header ← t.beacon.header
  let (next, scheduler) ←
    t.scheduler.startInterval start t.beacon.coordinator t.beacon.interval header
      t.beacon.announcement
  let t ← { t with scheduler }.tell start (.schedule scheduler.published)
  let (during, t) ← watchChanges maxChanges next t
  let (responses, idle) := t.scheduler.takeResponses
  let last ← tellAll t.now { t with scheduler := idle } (responses.map .admission)
  return (.ofInterval start t.now before during scheduler.published responses,
    { last with intervals := last.intervals + 1 })

variable {t middle next : Timeline} {time : Time} {log more : Log}

/-! ## Watching changes nothing -/

theorem watchReceive_eq (t : Timeline) (time : Time) (a : Arrival) :
    t.receive time a.frame = Prod.snd <$> t.watchReceive time a := by
  unfold watchReceive
  cases a.frame <;> simp [receive]

theorem watchReceiveAll_eq (limit : Time) (t : Timeline) (arrivals : List Arrival) :
    receiveAll limit t arrivals = Prod.snd <$> watchReceiveAll limit t arrivals := by
  induction arrivals generalizing t with
  | nil => simp [receiveAll, watchReceiveAll]
  | cons a rest ih =>
      by_cases due : a.time < limit
      · simp [receiveAll, watchReceiveAll, due, watchReceive_eq, ih]
      · simp [receiveAll, watchReceiveAll, due]

theorem watchAdvance_eq (t : Timeline) (time : Time) :
    t.advance time = Prod.snd <$> t.watchAdvance time := by
  simp [advance, watchAdvance, watchReceiveAll_eq]

theorem watchChanges_eq (left : Nat) (wakeup : Wakeup) (t : Timeline) :
    followChanges left wakeup t = Prod.snd <$> watchChanges left wakeup t := by
  induction left generalizing wakeup t with
  | zero => simp [followChanges, watchChanges]
  | succ left ih =>
      simp only [followChanges, watchChanges, watchAdvance_eq, map_bind, bind_map_left]
      refine congrArg _ (funext fun _ => congrArg _ (funext fun handled => ?_))
      cases handled.1 <;> simp [ih]

theorem watchInterval_eq (t : Timeline) :
    t.runInterval = Prod.snd <$> t.watchInterval := by
  simp [runInterval, watchInterval, watchAdvance_eq, watchChanges_eq]

/-! ## What is watched is told -/

/-- The observers get the reports of the log, and nothing else. -/
structure Tells (t : Timeline) (log : Log) (next : Timeline) : Prop where
  observers : next.observers = t.observers
  outbox : next.outbox = t.outbox ++ log.flatMap (Happening.deliveries t.observers)

theorem Tells.append (first : Tells t log middle) (second : Tells middle more next) :
    Tells t (log ++ more) next := by
  refine ⟨second.observers.trans first.observers, ?_⟩
  rw [second.outbox, first.outbox, first.observers, List.flatMap_append, List.append_assoc]

theorem watchReceive_tells {a : Arrival}
    (watched : (t.watchReceive time a).value = .ok (log, next)) : Tells t log next := by
  obtain ⟨arrives, frame⟩ := a
  cases frame with
  | request source spec =>
      simp only [watchReceive, Noted.value_bind, bind_eq_ok_iff, Noted.value_pure, Except.ok.injEq,
        Prod.mk.injEq] at watched
      obtain ⟨_, _, rfl, rfl⟩ := watched
      exact ⟨rfl, (List.append_nil _).symm⟩
  | deletion key =>
      simp only [watchReceive, Noted.value_bind, bind_eq_ok_iff, value_tell, Noted.value_pure,
        Except.ok.injEq, Prod.mk.injEq] at watched
      obtain ⟨_, _, _, rfl, rfl, rfl⟩ := watched
      exact ⟨rfl, congrArg (t.outbox ++ ·) (List.append_nil _).symm⟩

theorem watchReceiveAll_tells {limit : Time} {arrivals : List Arrival}
    (watched : (watchReceiveAll limit t arrivals).value = .ok (log, next)) : Tells t log next := by
  induction arrivals generalizing t log with
  | nil =>
      obtain ⟨rfl, rfl⟩ := Prod.mk.inj (Except.ok.inj watched)
      exact ⟨rfl, (List.append_nil _).symm⟩
  | cons a rest ih =>
      unfold watchReceiveAll at watched
      split_ifs at watched
      · simp only [Noted.value_bind, bind_eq_ok_iff, Noted.value_pure, Except.ok.injEq,
          Prod.mk.injEq] at watched
        obtain ⟨_, received, _, receivedRest, rfl, rfl⟩ := watched
        exact (watchReceive_tells received).append (ih receivedRest)
      · obtain ⟨rfl, rfl⟩ := Prod.mk.inj (Except.ok.inj watched)
        exact ⟨rfl, (List.append_nil _).symm⟩

theorem watchAdvance_tells (watched : (t.watchAdvance time).value = .ok (log, next)) :
    Tells t log next := by
  simp only [watchAdvance, Noted.value_bind, bind_eq_ok_iff, Noted.value_pure, Except.ok.injEq,
    Prod.mk.injEq] at watched
  obtain ⟨_, received, rfl, rfl⟩ := watched
  have tells := watchReceiveAll_tells received
  exact ⟨tells.observers, tells.outbox⟩

theorem watchChanges_tells {left : Nat} {wakeup : Wakeup}
    (watched : (watchChanges left wakeup t).value = .ok (log, next)) : Tells t log next := by
  induction left generalizing t wakeup log with
  | zero =>
      obtain ⟨rfl, rfl⟩ := Prod.mk.inj (Except.ok.inj watched)
      exact ⟨rfl, (List.append_nil _).symm⟩
  | succ left ih =>
      simp only [watchChanges, Noted.value_bind, bind_eq_ok_iff] at watched
      obtain ⟨_, advanced, ⟨follows, scheduler⟩, _, watched⟩ := watched
      have tells := watchAdvance_tells advanced
      cases follows with
      | none =>
          obtain ⟨rfl, rfl⟩ := Prod.mk.inj (Except.ok.inj watched)
          exact ⟨tells.observers, tells.outbox⟩
      | some follows =>
          simp only [Noted.value_bind, bind_eq_ok_iff, Noted.value_pure, Except.ok.injEq,
            Prod.mk.injEq] at watched
          obtain ⟨_, watchedRest, rfl, rfl⟩ := watched
          have later := ih watchedRest
          exact tells.append ⟨later.observers, later.outbox⟩

theorem watchInterval_tells (watched : t.watchInterval.value = .ok (log, next)) :
    Tells t log next := by
  simp only [watchInterval, Noted.value_bind, Noted.value_lift, Noted.value_pure, value_tell,
    value_tellAll, ok_bind, bind_eq_ok_iff, Except.ok.injEq, Prod.mk.injEq] at watched
  obtain ⟨start, _, ⟨before, heard⟩, advanced, _, _, ⟨wakeup, scheduler⟩, _, ⟨during, ended⟩,
    changes, rfl, rfl⟩ := watched
  have beacon : Tells heard [.told start (.schedule scheduler.published)]
      { heard with
        scheduler
        outbox := heard.outbox ++
          deliveries heard.observers start (.schedule scheduler.published) } :=
    ⟨rfl, congrArg (heard.outbox ++ ·) (List.append_nil _).symm⟩
  have decisions : Tells ended
      (ended.scheduler.responses.map fun response => .told ended.now (.admission response))
      { ended with
        scheduler := ended.scheduler.takeResponses.2
        outbox := ended.outbox ++ (ended.scheduler.responses.map Report.admission).flatMap
          (deliveries ended.observers ended.now) } := by
    refine ⟨rfl, ?_⟩
    rw [List.flatMap_map, List.flatMap_map]
    rfl
  have tells := (watchAdvance_tells advanced).append
    (beacon.append ((watchChanges_tells changes).append decisions))
  exact ⟨tells.observers, tells.outbox⟩

end BeaconScheduler.Timeline
