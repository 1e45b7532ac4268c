import BeaconScheduler.Proofs.Handover
import Mathlib.Data.List.Induction

/-!
# Every frame is handed over once

In a run of a timeline each submission belongs to one interval: the one that it arrives in, or
if it comes late the one that is run next.  That interval alone hands it over, and until then it
waits (`drive_hands_over`).
-/

set_option autoImplicit false

namespace BeaconScheduler.Timeline

open Counter

variable {t next : Timeline} {time : Time} {log : Log}

/-! ## Submissions of a run -/

def submissions (k : Nat) : List Action → List Submission
  | [] => []
  | .submit time frame :: rest => ⟨⟨time, frame⟩, k⟩ :: submissions k rest
  | .runInterval :: rest => submissions (k + 1) rest
  | .register _ :: rest => submissions k rest
  | .train .. :: rest => submissions k rest

theorem submissions_append (k : Nat) (past later : List Action) :
    submissions k (past ++ later) =
      submissions k past ++ submissions (k + past.count .runInterval) later := by
  induction past generalizing k with
  | nil => rfl
  | cons first rest ih =>
      cases first with
      | submit time frame => simp [submissions, ih]
      | runInterval => simp [submissions, ih, Nat.add_assoc, Nat.add_comm 1]
      | register observer => simp [submissions, ih]
      | train peer duration beamforming => simp [submissions, ih]

theorem submissions_run (k : Nat) (past : List Action) :
    submissions k (past ++ [.runInterval]) = submissions k past := by
  rw [submissions_append]
  exact List.append_nil _

theorem after_of_mem {k : Nat} {actions : List Action} {s : Submission}
    (member : s ∈ submissions k actions) :
    k ≤ s.after ∧ s.after ≤ k + actions.count .runInterval := by
  induction actions generalizing k with
  | nil => cases member
  | cons first rest ih =>
      cases first with
      | submit time frame =>
          rcases List.mem_cons.mp member with rfl | later
          · exact ⟨Nat.le_refl _, Nat.le_add_right _ _⟩
          · simpa using ih later
      | runInterval =>
          obtain ⟨made, bound⟩ := ih (k := k + 1) member
          rw [List.count_cons_self]
          exact ⟨Nat.le_of_succ_le made, by omega⟩
      | register observer => simpa using ih (k := k) member
      | train peer duration beamforming => simpa using ih (k := k) member

/-- When the frame is handed over: at its time, or as soon as it is submitted. -/
def Submission.handover (length : Nat) (s : Submission) : Handover :=
  ⟨s.arrival, max s.time (s.after * length)⟩

/-- Interval number `k` hands over the chosen submissions in their order.  Each request among
them is decided on at the end of the interval, each deletion is answered at once, and nothing
else is answered. -/
structure Serves (length k : Nat) (chosen : List (Submission × Nat)) (log : Log) : Prop where
  handed : log.handed = chosen.map fun x => x.1.handover length
  admissions : log.admissions.map (fun told =>
      (told.1, told.2.key, told.2.spec, told.2.decided)) =
    log.requests.map fun request =>
      ((k + 1) * length, request.key, request.spec, (k + 1) * length)
  deletions : log.deletions.map (fun told => (told.1, told.2.key, told.2.time)) =
    log.handed.filterMap Handover.deletion?

/-! ## The timeline between intervals -/

/-- After these actions: what waits are the frames of the intervals to come. -/
structure Between (beacon : Config.Beacon) (past : List Action) (t : Timeline) : Prop where
  idle : t.Idle
  configured : t.beacon = beacon
  intervals : t.intervals = past.count .runInterval
  clock : t.now = t.intervals * beacon.interval
  pending : ∃ pending, t.arrivals = waiting pending ∧
    Selects (fun s => t.intervals ≤ s.interval beacon.interval) (submissions 0 past) pending

variable {beacon : Config.Beacon} {past : List Action} {header : Nat}

theorem Between.after_le (between : Between beacon past t) {s : Submission}
    (member : s ∈ submissions 0 past) : s.after ≤ t.intervals := by
  rw [between.intervals, ← Nat.zero_add (past.count _)]
  exact (after_of_mem member).2

theorem Between.keep {action : Action} (between : Between beacon past t)
    (runs : action ≠ .runInterval) (none : submissions t.intervals [action] = [])
    (idle : next.Idle) (same : next.beacon = t.beacon) (intervals : next.intervals = t.intervals)
    (now : next.now = t.now) (arrivals : next.arrivals = t.arrivals) :
    Between beacon (past ++ [action]) next := by
  have submitted : submissions 0 (past ++ [action]) = submissions 0 past := by
    rw [submissions_append, Nat.zero_add, ← between.intervals, none, List.append_nil]
  refine ⟨idle, same.trans between.configured, ?_, ?_, ?_⟩
  · rw [intervals, between.intervals, List.count_append, List.count_singleton,
      if_neg (by simpa using runs), Nat.add_zero]
  · rw [now, between.clock, intervals]
  · rw [submitted, intervals, arrivals]
    exact between.pending

theorem Between.submit {frame : Frame} (between : Between beacon past t) :
    Between beacon (past ++ [.submit time frame])
      { t with arrivals := insertArrival ⟨time, frame⟩ t.arrivals } := by
  have submitted : submissions 0 (past ++ [.submit time frame]) =
      submissions 0 past ++ [⟨⟨time, frame⟩, t.intervals⟩] := by
    rw [submissions_append, Nat.zero_add, ← between.intervals]
    rfl
  have waits : t.intervals ≤
      Submission.interval beacon.interval ⟨⟨time, frame⟩, t.intervals⟩ := Nat.le_max_right _ _
  have idle := between.idle
  refine ⟨⟨idle.tiled, idle.queue, idle.responses⟩, between.configured, ?_, between.clock, ?_⟩
  · rw [List.count_append, between.intervals]
    rfl
  · obtain ⟨pending, arrivals, selects⟩ := between.pending
    obtain ⟨longer, selectsLonger, inserted⟩ := selects.submit waits
    rw [submitted]
    refine ⟨longer, ?_, selectsLonger⟩
    rw [inserted, arrivals]

theorem Between.served (between : Between beacon past t) (regular : beacon.Regular header)
    (watched : t.watchInterval.value = .ok (log, next)) :
    Served t ((t.intervals + 1) * beacon.interval) log next := by
  obtain ⟨pending, arrivals, selects⟩ := between.pending
  have served := watchInterval_serves between.idle (between.configured ▸ regular)
    (between.configured ▸ between.clock) (arrivals ▸ selects.sorted) watched
  rwa [between.configured, between.clock, ← Nat.succ_mul] at served

theorem Between.serves (between : Between beacon past t) (positive : 0 < beacon.interval)
    (served : Served t ((t.intervals + 1) * beacon.interval) log next) :
    ∃ chosen, Selects (fun s => s.interval beacon.interval = t.intervals) (submissions 0 past)
        chosen ∧ Serves beacon.interval t.intervals chosen log := by
  obtain ⟨pending, arrivals, selects⟩ := between.pending
  obtain ⟨chosen, _, leave, _, selectsChosen, _⟩ :=
    selects.split ((t.intervals + 1) * beacon.interval)
  have selectsOwn := selectsChosen.congr fun s member =>
    (Submission.interval_eq_iff positive (between.after_le member)).symm
  refine ⟨chosen, selectsOwn, ?_, served.admissions, served.deletions⟩
  rw [served.handed, arrivals, leave, waiting, List.map_map, between.clock]
  refine List.map_congr_left fun x member => ?_
  have own := ((selectsOwn.mem_iff x).mp member).2
  exact congrArg (Handover.mk x.1.arrival) (Submission.max_time_of_interval positive own)

theorem Between.run (between : Between beacon past t) (positive : 0 < beacon.interval)
    (served : Served t ((t.intervals + 1) * beacon.interval) log next) :
    Between beacon (past ++ [.runInterval]) next := by
  obtain ⟨pending, arrivals, selects⟩ := between.pending
  obtain ⟨_, others, _, stay, _, selectsOthers⟩ :=
    selects.split ((t.intervals + 1) * beacon.interval)
  refine ⟨served.idle, served.beacon.trans between.configured, ?_, ?_, ?_⟩
  · rw [served.intervals, between.intervals, List.count_append]
    rfl
  · rw [served.now, served.intervals]
  · rw [submissions_run, served.intervals, served.arrivals, arrivals, stay]
    refine ⟨others, rfl, selectsOthers.congr ?_⟩
    intro s member
    rw [← Submission.lt_interval_iff positive (between.after_le member)]
    exact and_iff_right_of_imp Nat.le_of_succ_le

theorem Between.late (between : Between beacon (past ++ [.runInterval]) t)
    (positive : 0 < beacon.interval) :
    ∃ pending, t.arrivals = waiting pending ∧
      Selects (fun s => t.now ≤ s.time) (submissions 0 (past ++ [.runInterval])) pending := by
  obtain ⟨pending, arrivals, selects⟩ := between.pending
  have intervals : t.intervals = past.count .runInterval + 1 := by
    rw [between.intervals, List.count_append]
    rfl
  refine ⟨pending, arrivals, selects.congr ?_⟩
  intro s member
  rw [submissions_run] at member
  have made := (after_of_mem member).2
  rw [Nat.zero_add] at made
  rw [between.clock, intervals]
  exact Submission.lt_interval_iff positive made

/-! ## Runs -/

theorem Between.start {config : Config} (started : (Timeline.start config).value = .ok t) :
    (∃ header, config.beacon.Regular header) ∧ Between config.beacon [] t := by
  simp only [Timeline.start, Noted.value_bind, bind_eq_ok_iff, Noted.value_pure,
    Except.ok.injEq] at started
  obtain ⟨scheduler, starts, rfl⟩ := started
  obtain ⟨valid, _, _, _, _, ⟨header, counted, _⟩, _⟩ := Scheduler.start_eq_ok starts
  obtain ⟨shown, shows⟩ := Scheduler.start_shows starts
  have fresh := Scheduler.start_fresh starts
  refine ⟨⟨header, Config.regular valid counted⟩,
    ⟨shows.scheduler_tiled, fresh.queue, fresh.responses⟩, rfl, rfl, ?_, [], rfl, Selects.nil⟩
  exact (Nat.zero_mul _).symm

theorem Between.act {action : Action} (between : Between beacon past t)
    (regular : beacon.Regular header) (acted : (t.act action).value = .ok next) :
    Between beacon (past ++ [action]) next := by
  have idle := between.idle
  cases action with
  | register observer =>
      obtain ⟨_, registered⟩ := Scheduler.snd_eq_ok acted
      simp only [Timeline.register, Noted.value_bind, Noted.value_note, ok_bind,
        Noted.value_pure] at registered
      obtain ⟨rfl, rfl⟩ := Prod.mk.inj (Except.ok.inj registered)
      exact between.keep (by simp) rfl ⟨idle.tiled, idle.queue, idle.responses⟩ rfl rfl rfl rfl
  | submit time frame =>
      obtain rfl := submit_eq_ok acted
      exact between.submit
  | train peer duration beamforming =>
      simp only [Timeline.act, Noted.value_bind, bind_eq_ok_iff, Noted.value_pure,
        Except.ok.injEq] at acted
      obtain ⟨⟨_, scheduler⟩, trained, rfl⟩ := acted
      have tiled := (Scheduler.train_interim idle.tiled trained).tiled
      refine between.keep (by simp) rfl ?_ rfl rfl rfl rfl
      rcases Scheduler.train_cases trained with rfl | ⟨_, _, _, rfl⟩
      · exact ⟨tiled, idle.queue, idle.responses⟩
      · exact ⟨tiled, idle.queue, idle.responses⟩
  | runInterval =>
      rw [Timeline.act, watchInterval_eq] at acted
      obtain ⟨log, watched⟩ := Scheduler.snd_eq_ok acted
      exact between.run (Nat.zero_lt_of_lt regular.header) (between.served regular watched)

variable {config : Config} {actions : List Action}

theorem drive_between (drove : (drive config actions).value = .ok t) :
    (∃ header, config.beacon.Regular header) ∧ Between config.beacon actions t := by
  induction actions using List.reverseRecOn generalizing t with
  | nil =>
      simp only [drive, actAll, bind_pure] at drove
      exact Between.start drove
  | append_singleton past action ih =>
      simp only [drive_append, actAll, bind_pure, Noted.value_bind, bind_eq_ok_iff] at drove
      obtain ⟨middle, drovePast, acted⟩ := drove
      obtain ⟨⟨header, regular⟩, between⟩ := ih drovePast
      exact ⟨⟨header, regular⟩, between.act regular acted⟩

/-- A frame belongs to the interval that it arrives in, or to the next one if it comes late.
That interval alone hands it over, at its time or at once, and among the others of the interval
by time and by submission; observers are told what comes of it.  What waits are the frames of
the intervals to come: after an interval, those that do not come before now. -/
theorem drive_hands_over (drove : (drive config actions).value = .ok t) :
    t.intervals = actions.count .runInterval ∧
    (∃ pending, t.arrivals = waiting pending ∧
      Selects (fun s => t.intervals ≤ s.interval config.beacon.interval)
        (submissions 0 actions) pending) ∧
    ∀ before later, actions = before ++ .runInterval :: later →
      ∃ begun log ended chosen pending,
        (drive config before).value = .ok begun ∧
        (drive config (before ++ [.runInterval])).value = .ok ended ∧
        begun.watchInterval.value = .ok (log, ended) ∧ begun.Tells log ended ∧
        begun.intervals = before.count .runInterval ∧
        ended.now = (begun.intervals + 1) * config.beacon.interval ∧
        Selects (fun s => s.interval config.beacon.interval = begun.intervals)
          (submissions 0 actions) chosen ∧
        Serves config.beacon.interval begun.intervals chosen log ∧
        ended.arrivals = waiting pending ∧
        Selects (fun s => ended.now ≤ s.time) (submissions 0 (before ++ [.runInterval]))
          pending := by
  obtain ⟨⟨header, regular⟩, between⟩ := drive_between drove
  refine ⟨between.intervals, between.pending, ?_⟩
  rintro before later rfl
  simp only [drive_append, actAll, Noted.value_bind, bind_eq_ok_iff] at drove
  obtain ⟨begun, droveBegun, ended, ran, _⟩ := drove
  have droveEnded : (drive config (before ++ [.runInterval])).value = .ok ended := by
    simp only [drive_append, actAll, bind_pure, Noted.value_bind, droveBegun, ok_bind, ran]
  rw [act, watchInterval_eq] at ran
  obtain ⟨log, watched⟩ := Scheduler.snd_eq_ok ran
  have positive : 0 < config.beacon.interval := Nat.zero_lt_of_lt regular.header
  obtain ⟨_, betweenBegun⟩ := drive_between droveBegun
  have served := betweenBegun.served regular watched
  obtain ⟨chosen, selects, serves⟩ := betweenBegun.serves positive served
  obtain ⟨pending, arrivals, late⟩ := (betweenBegun.run positive served).late positive
  refine ⟨begun, log, ended, chosen, pending, droveBegun, droveEnded, watched,
    watchInterval_tells watched, betweenBegun.intervals, served.now, ?_, serves, arrivals, late⟩
  rw [submissions_append]
  apply selects.skip
  -- What is submitted later belongs to a later interval.
  intro s member own
  have made : begun.intervals + 1 ≤ s.after := by
    rw [betweenBegun.intervals, ← Nat.zero_add (before.count _)]
    have madeLater : s ∈ submissions (0 + before.count .runInterval + 1) later := member
    exact (after_of_mem madeLater).1
  have waits : s.after ≤ s.interval config.beacon.interval := Nat.le_max_right _ _
  omega

def mixedConfig : Config :=
  { beacon := { announcement := 500 } }

def mixedSpec : TrafficSpec :=
  ⟨3, .servicePeriod, true, 4, .asynchronous, 2000, 2000, 0, false⟩

/-- Frames of one time, frames that come as an interval ends, and one that is late. -/
def mixedTraffic : List Action :=
  [.submit 102400 (.request 7 mixedSpec), .submit 50 (.request 8 mixedSpec),
    .submit 50 (.request 9 mixedSpec), .runInterval, .submit 20 (.deletion ⟨3, 8, 4⟩),
    .submit 204800 (.deletion ⟨3, 9, 4⟩), .runInterval]

theorem mixedTraffic_handed_over :
    ∃ t first second, (drive mixedConfig mixedTraffic).value = .ok t ∧
      (∃ begun ended, (drive mixedConfig (mixedTraffic.take 3)).value = .ok begun ∧
        begun.watchInterval.value = .ok (first, ended)) ∧
      first.handed =
        [⟨⟨50, .request 8 mixedSpec⟩, 50⟩, ⟨⟨50, .request 9 mixedSpec⟩, 50⟩] ∧
      (∃ begun, (drive mixedConfig (mixedTraffic.take 6)).value = .ok begun ∧
        begun.watchInterval.value = .ok (second, t)) ∧
      second.handed =
        [⟨⟨20, .deletion ⟨3, 8, 4⟩⟩, 102400⟩, ⟨⟨102400, .request 7 mixedSpec⟩, 102400⟩] ∧
      second.admissions.map (fun told => (told.1, told.2.key, told.2.spec, told.2.decided)) =
        [(204800, ⟨3, 7, 4⟩, mixedSpec, 204800)] ∧
      second.deletions.map (fun told => (told.1, told.2.key, told.2.time)) =
        [(102400, ⟨3, 8, 4⟩, 102400)] ∧
      t.arrivals = [⟨204800, .deletion ⟨3, 9, 4⟩⟩] := by
  obtain ⟨t, drove, intervals⟩ := Scheduler.exists_ok
    (x := (drive mixedConfig mixedTraffic).value)
    (f := Timeline.intervals) (b := 2) (by decide +kernel)
  obtain ⟨_, ⟨pending, arrivals, waits⟩, each⟩ := drive_hands_over drove
  rw [intervals] at waits
  obtain rfl : pending = [(⟨⟨204800, .deletion ⟨3, 9, 4⟩⟩, 1⟩, 4)] :=
    waits.unique (by decide +kernel)
  obtain ⟨begun, first, middle, early, _, droveFirst, _, watchedFirst, _, zero, _, selectsEarly,
    servesFirst, _⟩ := each (mixedTraffic.take 3) (mixedTraffic.drop 4) rfl
  obtain ⟨again, second, ended, rest, _, droveSecond, droveEnded, watchedSecond, _, one, _,
    selectsRest, servesSecond, _⟩ := each (mixedTraffic.take 6) [] rfl
  obtain rfl : ended = t := Except.ok.inj (droveEnded.symm.trans drove)
  rw [zero] at selectsEarly
  rw [one] at selectsRest servesSecond
  obtain rfl : early =
      [(⟨⟨50, .request 8 mixedSpec⟩, 0⟩, 1), (⟨⟨50, .request 9 mixedSpec⟩, 0⟩, 2)] :=
    selectsEarly.unique (by decide +kernel)
  obtain rfl : rest =
      [(⟨⟨20, .deletion ⟨3, 8, 4⟩⟩, 1⟩, 3), (⟨⟨102400, .request 7 mixedSpec⟩, 0⟩, 0)] :=
    selectsRest.unique (by decide +kernel)
  refine ⟨ended, first, second, drove, ⟨begun, middle, droveFirst, watchedFirst⟩,
    servesFirst.handed, ⟨again, droveSecond, watchedSecond⟩, servesSecond.handed, ?_, ?_,
    arrivals⟩
  · rw [servesSecond.admissions, Log.requests, servesSecond.handed]
    rfl
  · rw [servesSecond.deletions, servesSecond.handed]
    rfl

end BeaconScheduler.Timeline
