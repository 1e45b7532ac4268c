import BeaconScheduler.Proofs.Accounting
import BeaconScheduler.Proofs.Arrivals
import BeaconScheduler.Proofs.Course
import BeaconScheduler.Proofs.Watching

/-!
# What an interval hands over

An interval hands the scheduler the frames that come before its end, in their order, and each
of them at its time, or at once if that has passed.  Requests are decided on at the end, and
deletions are answered as they come (`watchInterval_serves`).
-/

set_option autoImplicit false

namespace BeaconScheduler

open Counter

namespace Timing

variable {timing : Timing} {wakeup follows : Wakeup}

def stop (timing : Timing) (next : Wakeup) : Time :=
  match next.change with
  | .announcementStart => next.time + timing.announcement + timing.dti
  | .dataTransferStart => next.time + timing.dti
  | .intervalEnd => next.time

theorem stop_following (follow : timing.following wakeup = some follows) :
    (timing.stamped wakeup).stop follows = timing.stop wakeup ∧ wakeup.time ≤ follows.time ∧
      Scheduler.changesLeft follows.change < Scheduler.changesLeft wakeup.change := by
  obtain ⟨time, change⟩ := wakeup
  cases change with
  | announcementStart =>
      obtain rfl := Option.some.inj follow
      exact ⟨rfl, Nat.le_add_right _ _, Nat.lt_succ_self _⟩
  | dataTransferStart =>
      obtain rfl := Option.some.inj follow
      exact ⟨rfl, Nat.le_add_right _ _, Nat.lt_succ_self _⟩
  | intervalEnd => cases follow

theorem following_eq_none (none : timing.following wakeup = none) :
    wakeup.change = .intervalEnd := by
  obtain ⟨time, change⟩ := wakeup
  cases change with
  | announcementStart => cases none
  | dataTransferStart => cases none
  | intervalEnd => rfl

end Timing

namespace Timeline

variable {t next begun last : Timeline} {time stop : Time} {log more : Log}

/-! ## What a frame asks for -/

namespace Handover

def request? (handover : Handover) : Option AdmissionRequest :=
  match handover.arrival.frame with
  | .request source spec => some ⟨source, spec, handover.time⟩
  | .deletion _ => none

def deletion? (handover : Handover) : Option (Time × Allocation.Key × Time) :=
  match handover.arrival.frame with
  | .request .. => none
  | .deletion key => some (handover.time, key, handover.time)

end Handover

namespace Log

def requests (log : Log) : List AdmissionRequest :=
  log.handed.filterMap Handover.request?

structure Answers (log : Log) : Prop where
  admissions : log.admissions = []
  deletions : log.deletions.map (fun told => (told.1, told.2.key, told.2.time)) =
    log.handed.filterMap Handover.deletion?

theorem handed_append (log more : Log) :
    handed (log ++ more) = log.handed ++ more.handed := List.filterMap_append

theorem admissions_append (log more : Log) :
    admissions (log ++ more) = log.admissions ++ more.admissions := List.filterMap_append

theorem deletions_append (log more : Log) :
    deletions (log ++ more) = log.deletions ++ more.deletions := List.filterMap_append

theorem requests_append (log more : Log) :
    requests (log ++ more) = log.requests ++ more.requests := by
  rw [requests, handed_append, List.filterMap_append]
  rfl

section OfInterval

variable {start stop : Time} {before during : Log} {published : Schedule}
  {responses : List AdmissionResponse}

theorem filterMap_ofInterval {α : Type} (f : Happening → Option α) :
    (ofInterval start stop before during published responses).filterMap f =
      before.filterMap f ++ ((f (.told start (.schedule published))).toList ++
        (during.filterMap f ++
          responses.filterMap fun response => f (.told stop (.admission response)))) := by
  rw [ofInterval, List.filterMap_append, List.filterMap_cons, List.filterMap_append,
    List.filterMap_map]
  cases f (.told start (.schedule published)) <;> rfl

theorem handed_ofInterval :
    (ofInterval start stop before during published responses).handed =
      handed (before ++ during) := by
  rw [handed, handed, filterMap_ofInterval, List.filterMap_append]
  simp [Happening.handover?]

theorem deletions_ofInterval :
    (ofInterval start stop before during published responses).deletions =
      deletions (before ++ during) := by
  rw [deletions, deletions, filterMap_ofInterval, List.filterMap_append]
  simp [Happening.deletion?]

theorem admissions_ofInterval :
    (ofInterval start stop before during published responses).admissions =
      admissions (before ++ during) ++ responses.map (stop, ·) := by
  rw [admissions, admissions, filterMap_ofInterval, List.filterMap_append]
  simp [Happening.admission?]

end OfInterval

theorem Answers.append (first : log.Answers) (second : more.Answers) :
    Answers (log ++ more) := by
  refine ⟨?_, ?_⟩
  · rw [admissions_append, first.admissions, second.admissions, List.append_nil]
  · rw [deletions_append, handed_append, List.map_append, List.filterMap_append, first.deletions,
      second.deletions]

end Log

/-! ## The clock -/

/-- The frames before `limit` are handed over, the others wait. -/
structure Delivered (t : Timeline) (limit : Time) (log : Log) (next : Timeline) : Prop where
  hears : t.Hears next
  arrivals : next.arrivals = t.arrivals.dropWhile (·.time < limit)
  handed : log.handed =
    (t.arrivals.takeWhile (·.time < limit)).map fun a => ⟨a, max a.time t.now⟩
  queue : next.scheduler.queue = t.scheduler.queue ++ log.requests
  answers : log.Answers

theorem watchReceive_delivers (tiled : t.scheduler.Tiled) (time : Time) (a : Arrival) :
    ∃ log next, (t.watchReceive time a).value = .ok (log, next) ∧ t.Hears next ∧
      next.now = t.now ∧ log.handed = [⟨a, time⟩] ∧
      next.scheduler.queue = t.scheduler.queue ++ log.requests ∧ log.Answers := by
  obtain ⟨arrives, frame⟩ := a
  cases frame with
  | request source spec =>
      refine ⟨_, _, rfl, ⟨rfl, rfl, ⟨_, _, _, rfl⟩, tiled⟩, rfl, rfl, rfl, rfl, rfl⟩
  | deletion key =>
      obtain ⟨outcome, air, statistics, deleted, tiledAir⟩ := Scheduler.delete_ends tiled time key
      simp only [watchReceive, Noted.value_bind, deleted, ok_bind, value_tell, Noted.value_pure]
      refine ⟨_, _, rfl, ⟨rfl, rfl, ⟨_, _, _, rfl⟩, tiledAir⟩, rfl, rfl, ?_, rfl, rfl⟩
      exact (List.append_nil _).symm

theorem watchReceiveAll_delivers (tiled : t.scheduler.Tiled) (limit : Time)
    (arrivals : List Arrival) :
    ∃ log next, (watchReceiveAll limit t arrivals).value = .ok (log, next) ∧
      Delivered { t with arrivals } limit log next ∧ next.now = t.now := by
  induction arrivals generalizing t with
  | nil =>
      refine ⟨[], _, rfl, ⟨⟨rfl, rfl, ⟨_, _, _, rfl⟩, tiled⟩, rfl, rfl, ?_, rfl, rfl⟩, rfl⟩
      exact (List.append_nil _).symm
  | cons a rest ih =>
      by_cases due : a.time < limit
      · obtain ⟨first, middle, received, hears, now, handed, queue, answers⟩ :=
          watchReceive_delivers tiled (max a.time t.now) a
        obtain ⟨others, next, receivedRest, delivered, nowNext⟩ := ih hears.tiled
        refine ⟨first ++ others, next, ?_, ⟨?_, ?_, ?_, ?_, answers.append delivered.answers⟩,
          nowNext.trans now⟩
        · rw [watchReceiveAll, if_pos due]
          simp only [Noted.value_bind, received, receivedRest, ok_bind, Noted.value_pure]
        · have heard := delivered.hears
          exact Hears.trans ⟨hears.beacon, hears.intervals, hears.scheduler, hears.tiled⟩
            ⟨heard.beacon, heard.intervals, heard.scheduler, heard.tiled⟩
        · rw [delivered.arrivals, List.dropWhile_cons_of_pos (by simpa using due)]
        · rw [Log.handed_append, handed, delivered.handed,
            List.takeWhile_cons_of_pos (by simpa using due), now]
          rfl
        · rw [delivered.queue, Log.requests_append, ← List.append_assoc]
          exact congrArg (· ++ _) queue
      · rw [watchReceiveAll, if_neg due]
        refine ⟨[], _, rfl, ⟨⟨rfl, rfl, ⟨_, _, _, rfl⟩, tiled⟩, ?_, ?_, ?_, rfl, rfl⟩, rfl⟩
        · rw [List.dropWhile_cons_of_neg (by simpa using due)]
        · rw [List.takeWhile_cons_of_neg (by simpa using due)]
          rfl
        · exact (List.append_nil _).symm

theorem watchAdvance_delivers (tiled : t.scheduler.Tiled)
    (watched : (t.watchAdvance time).value = .ok (log, next)) :
    Delivered t time log next ∧ next.now = time := by
  obtain ⟨log, heard, received, delivered, _⟩ := watchReceiveAll_delivers tiled time t.arrivals
  simp only [watchAdvance, Noted.value_bind, received, ok_bind, Noted.value_pure, Except.ok.injEq,
    Prod.mk.injEq] at watched
  obtain ⟨rfl, rfl⟩ := watched
  have hears := delivered.hears
  exact ⟨⟨⟨hears.beacon, hears.intervals, hears.scheduler, hears.tiled⟩, delivered.arrivals,
    delivered.handed, delivered.queue, delivered.answers⟩, rfl⟩

/-! ## One interval -/

/-- Between intervals nothing waits for a decision, and no decision waits to be taken. -/
structure Idle (t : Timeline) : Prop where
  tiled : t.scheduler.Tiled
  queue : t.scheduler.queue = []
  responses : t.scheduler.responses = []

/-- An interval on its way: the frames before now have been handed over. -/
structure Progress (begun : Timeline) (log : Log) (t : Timeline) : Prop where
  beacon : t.beacon = begun.beacon
  intervals : t.intervals = begun.intervals
  clock : begun.now ≤ t.now
  arrivals : t.arrivals = begun.arrivals.dropWhile (·.time < t.now)
  handed : log.handed =
    (begun.arrivals.takeWhile (·.time < t.now)).map fun a => ⟨a, max a.time begun.now⟩
  queue : t.scheduler.queue = log.requests
  responses : t.scheduler.responses = []
  answers : log.Answers

theorem Hears.responses (hears : t.Hears next) :
    next.scheduler.responses = t.scheduler.responses := by
  obtain ⟨_, _, _, scheduler⟩ := hears.scheduler
  rw [scheduler]

theorem Idle.progress (idle : t.Idle) (delivered : Delivered t t.now log next)
    (now : next.now = t.now) : Progress t log next := by
  refine ⟨delivered.hears.beacon, delivered.hears.intervals, Nat.le_of_eq now.symm, ?_, ?_, ?_, ?_,
    delivered.answers⟩
  · rw [delivered.arrivals, now]
  · rw [delivered.handed, now]
  · rw [delivered.queue, idle.queue, List.nil_append]
  · rw [delivered.hears.responses, idle.responses]

theorem Progress.advance (sorted : begun.arrivals.Pairwise fun a b => a.time ≤ b.time)
    (progress : Progress begun log t) (delivered : Delivered t time more next)
    (now : next.now = time) (later : t.now ≤ time) : Progress begun (log ++ more) next := by
  have before : ∀ a : Arrival, decide (a.time < t.now) = true → decide (a.time < time) = true := by
    intro a earlier
    rw [decide_eq_true_eq] at earlier ⊢
    exact Nat.lt_of_lt_of_le earlier later
  have left : ∀ a ∈ t.arrivals, t.now ≤ a.time := by
    intro a waits
    rw [progress.arrivals, (split_of_sorted sorted _).2, List.mem_filter] at waits
    simpa using waits.2
  refine ⟨delivered.hears.beacon.trans progress.beacon,
    delivered.hears.intervals.trans progress.intervals, ?_, ?_, ?_, ?_, ?_,
    progress.answers.append delivered.answers⟩
  · rw [now]
    exact Nat.le_trans progress.clock later
  · rw [delivered.arrivals, progress.arrivals, now, dropWhile_of_imp before]
  · have onTime : ∀ a ∈ t.arrivals.takeWhile (·.time < time),
        (⟨a, max a.time t.now⟩ : Handover) = ⟨a, max a.time begun.now⟩ := by
      intro a taken
      have due := left a (List.takeWhile_subset _ taken)
      rw [Nat.max_eq_left due, Nat.max_eq_left (Nat.le_trans progress.clock due)]
    rw [Log.handed_append, delivered.handed, List.map_congr_left onTime, progress.handed,
      ← List.map_append, progress.arrivals, now, ← takeWhile_of_imp before]
  · rw [delivered.queue, progress.queue, Log.requests_append]
  · rw [delivered.hears.responses, progress.responses]

theorem Progress.scheduled {scheduler : Scheduler} {outbox : List Delivery}
    (progress : Progress begun log t) (same : t.scheduler.SameBooks scheduler) :
    Progress begun log { t with scheduler, outbox } :=
  ⟨progress.beacon, progress.intervals, progress.clock, progress.arrivals, progress.handed,
    same.queue.trans progress.queue, same.responses.trans progress.responses, progress.answers⟩

theorem watchChanges_progress {left : Nat} {wakeup : Wakeup} {timing : Timing}
    (sorted : begun.arrivals.Pairwise fun a b => a.time ≤ b.time)
    (progress : Progress begun log t) (underway : t.Underway wakeup timing)
    (later : t.now ≤ wakeup.time) (enough : Scheduler.changesLeft wakeup.change ≤ left)
    (watched : (watchChanges left wakeup t).value = .ok (more, last)) :
    ∃ boundary result scheduler, Progress begun (log ++ more) boundary ∧
      boundary.now = timing.stop wakeup ∧ boundary.scheduler.Tiled ∧
      (boundary.scheduler.makeChange (timing.stop wakeup) .intervalEnd).value =
        .ok (result, scheduler) ∧
      last = { boundary with scheduler } := by
  induction left generalizing t wakeup timing log more with
  | zero =>
      cases change : wakeup.change <;> rw [change] at enough <;> cases enough
  | succ left ih =>
      simp only [watchChanges, Noted.value_bind, bind_eq_ok_iff] at watched
      obtain ⟨⟨first, heard⟩, advanced, ⟨result, scheduler⟩, handled, watched⟩ := watched
      obtain ⟨delivered, now⟩ := watchAdvance_delivers underway.tiled advanced
      have progressHeard := progress.advance sorted delivered now later
      have underwayHeard := underway.hears delivered.hears
      obtain rfl := underwayHeard.timing
      rw [underwayHeard.awaits.value_handle] at handled
      cases follow : heard.scheduler.timing.following wakeup with
      | some follows =>
          obtain ⟨stops, after, fewer⟩ := Timing.stop_following follow
          obtain ⟨_, rfl, rfl⟩ := (Scheduler.makeChange_follows_iff follow).mp handled
          simp only [Noted.value_bind, bind_eq_ok_iff, Noted.value_pure, Except.ok.injEq,
            Prod.mk.injEq] at watched
          obtain ⟨⟨others, _⟩, watchedRest, rfl, rfl⟩ := watched
          rw [← List.append_assoc, ← stops]
          refine ih ?_ (underwayHeard.changed follow) ?_ (by omega) watchedRest
          · exact progressHeard.scheduled ⟨rfl, rfl, rfl⟩
          · exact Nat.le_trans (Nat.le_of_eq now) after
      | none =>
          have ends := Timing.following_eq_none follow
          have stops : heard.scheduler.timing.stop wakeup = wakeup.time := by
            rw [Timing.stop, ends]
          rw [ends] at handled
          obtain ⟨rfl, _⟩ := Scheduler.intervalEnd_eq_ok underwayHeard.tiled handled
          obtain ⟨rfl, rfl⟩ := Prod.mk.inj (Except.ok.inj watched)
          rw [stops]
          exact ⟨heard, none, scheduler, progressHeard, now, underwayHeard.tiled, handled, rfl⟩

/-- An interval that is over: the frames before `stop` have been handed over, their requests are
decided on at that time, and their deletions have been answered. -/
structure Served (begun : Timeline) (stop : Time) (log : Log) (next : Timeline) : Prop where
  idle : next.Idle
  beacon : next.beacon = begun.beacon
  intervals : next.intervals = begun.intervals + 1
  now : next.now = stop
  arrivals : next.arrivals = begun.arrivals.dropWhile (·.time < stop)
  handed : log.handed =
    (begun.arrivals.takeWhile (·.time < stop)).map fun a => ⟨a, max a.time begun.now⟩
  admissions : log.admissions.map (fun told =>
      (told.1, told.2.key, told.2.spec, told.2.decided)) =
    log.requests.map fun request => (stop, request.key, request.spec, stop)
  deletions : log.deletions.map (fun told => (told.1, told.2.key, told.2.time)) =
    log.handed.filterMap Handover.deletion?

theorem firstWakeup_stop {beacon : Config.Beacon} {header : Nat} {start : Time} {wakeup : Wakeup}
    (regular : beacon.Regular header)
    (first : Scheduler.firstWakeup start header beacon.announcement = .ok wakeup) :
    start ≤ wakeup.time ∧
      (beacon.initialTiming header start).stop wakeup = start + beacon.interval := by
  have whole : header + (beacon.interval - header) = beacon.interval :=
    Nat.add_sub_cancel' (Nat.le_of_lt regular.header)
  obtain ⟨_, rfl⟩ := Scheduler.firstWakeup_eq_ok_iff.mp first
  split_ifs
  · refine ⟨Nat.le_add_right _ _, ?_⟩
    simp only [Timing.stop, Config.Beacon.initialTiming]
    rw [Nat.add_assoc start, Nat.sub_add_cancel regular.announcement, Nat.add_assoc, whole]
  · refine ⟨Nat.le_add_right _ _, ?_⟩
    simp only [Timing.stop, Config.Beacon.initialTiming]
    rw [Nat.add_assoc, whole]

theorem Progress.closes {before during : Log} {boundary : Timeline} {decided : Scheduler}
    {result : Option Wakeup} (progress : Progress begun (before ++ during) boundary)
    (tiled : boundary.scheduler.Tiled)
    (made : (boundary.scheduler.makeChange boundary.now .intervalEnd).value =
      .ok (result, decided)) (start : Time) (published : Schedule) (outbox : List Delivery) :
    Served begun boundary.now
      (.ofInterval start boundary.now before during published decided.responses)
      { boundary with
        scheduler := decided.takeResponses.2
        intervals := boundary.intervals + 1
        outbox } := by
  obtain ⟨_, tiledLast, _⟩ := Scheduler.intervalEnd_eq_ok tiled made
  obtain ⟨responses, queue, kept, answers, _⟩ := Scheduler.intervalEnd_books tiled made
  rw [progress.responses, List.nil_append] at kept
  refine ⟨⟨tiledLast, queue, rfl⟩, progress.beacon, ?_, rfl, progress.arrivals, ?_, ?_, ?_⟩
  · dsimp only
    rw [progress.intervals]
  · rw [Log.handed_ofInterval, progress.handed]
  · rw [Log.admissions_ofInterval, progress.answers.admissions, List.nil_append, List.map_map,
      Log.requests, Log.handed_ofInterval, kept]
    have told := congrArg (List.map fun answer => (boundary.now, answer)) answers
    rw [progress.queue, Log.requests, List.map_map, List.map_map] at told
    exact told
  · rw [Log.deletions_ofInterval, Log.handed_ofInterval, progress.answers.deletions]

theorem watchInterval_serves {header : Nat} (idle : t.Idle) (regular : t.beacon.Regular header)
    (clock : t.now = t.intervals * t.beacon.interval)
    (sorted : t.arrivals.Pairwise fun a b => a.time ≤ b.time)
    (watched : t.watchInterval.value = .ok (log, next)) :
    Served t (t.now + t.beacon.interval) log next := by
  simp only [watchInterval, Noted.value_bind, Noted.value_lift, Noted.value_pure, value_tell,
    value_tellAll, ok_bind, bind_eq_ok_iff, Except.ok.injEq, Prod.mk.injEq] at watched
  obtain ⟨start, starts, ⟨before, heard⟩, advanced, _, counted, ⟨wakeup, scheduler⟩, started,
    ⟨during, ended⟩, changes, rfl, rfl⟩ := watched
  dsimp only at advanced started changes
  obtain rfl : t.now = start := clock.trans (mul_eq_ok_iff.mp starts).2
  obtain ⟨delivered, now⟩ := watchAdvance_delivers idle.tiled advanced
  have hears := delivered.hears
  rw [hears.beacon] at counted started
  obtain rfl := Except.ok.inj (regular.counted.symm.trans counted)
  obtain ⟨tiled, awaits, timing⟩ := Scheduler.startInterval_begins hears.tiled started
  obtain ⟨later, stops⟩ := firstWakeup_stop regular (Scheduler.startInterval_first started)
  generalize heard.outbox ++ deliveries heard.observers t.now (.schedule scheduler.published) =
    outbox at changes
  have underway : Underway { heard with scheduler, outbox } wakeup
      (t.beacon.initialTiming header t.now) := ⟨tiled, awaits, timing⟩
  have progress : Progress t before { heard with scheduler, outbox } :=
    (idle.progress delivered now).scheduled
      (Scheduler.startInterval_sameBooks hears.tiled started)
  have enough : Scheduler.changesLeft wakeup.change ≤ maxChanges := by
    cases wakeup.change <;> decide
  obtain ⟨boundary, _, decided, progress, nowEnd, tiledEnd, made, rfl⟩ :=
    watchChanges_progress sorted progress underway (Nat.le_trans (Nat.le_of_eq now) later) enough
      changes
  rw [← stops, ← nowEnd]
  rw [← nowEnd] at made
  exact progress.closes tiledEnd made t.now scheduler.published _

end Timeline
end BeaconScheduler
