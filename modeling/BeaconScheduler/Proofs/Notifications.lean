import BeaconScheduler.Proofs.Beacons
import BeaconScheduler.Proofs.Closing
import BeaconScheduler.Proofs.Diary

/-!
# The order of notifications

Reports come from three places of an interval: deletions are answered as their frames are handed
over, the schedule is told at the beacon and the decisions at the end.  The records of an
interval are therefore a page of four parts (`Between.page`), which go by time
(`Page.Answers.sorted`), and the pages of a run follow each other (`sorted_of_pages`).  Every
observer that wants all reports gets the same pages (`operateAll_notifies`).
-/

set_option autoImplicit false

namespace BeaconScheduler.Timeline

open Counter

/-! ## Records -/

abbrev Record := Time × Report

def Happening.record? : Happening → Option Record
  | .handed _ => none
  | .told time report => some (time, report)

def Log.records (log : Log) : List Record :=
  log.filterMap Happening.record?

def Delivery.to? (i : Nat) (delivery : Delivery) : Option Record :=
  if delivery.observer = i then some (delivery.time, delivery.report) else none

/-- What has been delivered to observer number `i`. -/
def inbox (t : Timeline) (i : Nat) : List Record :=
  t.outbox.filterMap (Delivery.to? i)

variable {t next fresh : Timeline} {time start stop : Time} {log : Log} {observers : List Observer}
  {i : Nat}

def delivery? (time : Time) (report : Report) (numbered : Observer × Nat) : Option Delivery :=
  if numbered.1.wants report then some ⟨numbered.2, time, report⟩ else none

theorem deliveries_eq (observers : List Observer) (time : Time) (report : Report) :
    deliveries observers time report = observers.zipIdx.filterMap (delivery? time report) :=
  rfl

theorem filterMap_delivery?_of_ne {report : Report} {numbered : List (Observer × Nat)}
    (differ : ∀ x ∈ numbered, x.2 ≠ i) :
    (numbered.filterMap (delivery? time report)).filterMap (Delivery.to? i) = [] := by
  refine List.filterMap_eq_nil_iff.mpr fun delivery member => ?_
  obtain ⟨x, among, wanted⟩ := List.mem_filterMap.mp member
  obtain ⟨_, sent⟩ := Option.ite_none_right_eq_some.mp wanted
  obtain rfl := Option.some.inj sent
  exact if_neg (differ x among)

theorem filterMap_deliveries {observer : Observer} (own : observers[i]? = some observer)
    (time : Time) (report : Report) :
    (deliveries observers time report).filterMap (Delivery.to? i) =
      if observer.wants report then [(time, report)] else [] := by
  obtain ⟨bound, rfl⟩ := List.getElem?_eq_some_iff.mp own
  have numbered : observers.zipIdx = (observers.take i).zipIdx ++
      ([(observers[i], i)] ++ (observers.drop (i + 1)).zipIdx (i + 1)) := by
    have split : observers.take i ++ observers[i] :: observers.drop (i + 1) = observers := by
      rw [List.getElem_cons_drop, List.take_append_drop]
    have length : (observers.take i).length = i := List.length_take_of_le (Nat.le_of_lt bound)
    conv_lhs => rw [← split, List.zipIdx_append, length, Nat.zero_add, List.zipIdx_cons]
    rfl
  have before : ∀ x ∈ (observers.take i).zipIdx, x.2 ≠ i := by
    intro x member
    have below := List.snd_lt_of_mem_zipIdx member
    rw [List.length_take, Nat.add_zero] at below
    exact Nat.ne_of_lt (Nat.lt_of_lt_of_le below (Nat.min_le_left _ _))
  have behind : ∀ x ∈ (observers.drop (i + 1)).zipIdx (i + 1), x.2 ≠ i := fun x member =>
    Nat.ne_of_gt (List.le_snd_of_mem_zipIdx member)
  rw [deliveries_eq, numbered, List.filterMap_append, List.filterMap_append,
    List.filterMap_append, List.filterMap_append, filterMap_delivery?_of_ne before,
    filterMap_delivery?_of_ne behind, List.nil_append, List.append_nil]
  by_cases wanted : observers[i].wants report = true
  · simp [delivery?, wanted, Delivery.to?]
  · simp [delivery?, wanted]

theorem Tells.inbox (tells : Tells t log next) (own : t.observers[i]? = some .everything) :
    next.inbox i = t.inbox i ++ log.records := by
  have each : ∀ happening : Happening,
      (happening.deliveries t.observers).filterMap (Delivery.to? i) =
        happening.record?.toList := by
    intro happening
    cases happening with
    | handed handover => rfl
    | told time report => exact filterMap_deliveries own time report
  rw [Timeline.inbox, tells.outbox, List.filterMap_append, List.filterMap_flatMap,
    funext each, Log.records, List.filterMap_eq_flatMap_toList Happening.record?]
  rfl

/-! ## Answers to deletions -/

theorem Log.records_eq_deletions (undecided : log.admissions = [])
    (unscheduled : log.schedules = []) :
    log.records = log.deletions.map fun told => (told.1, .deletion told.2) := by
  induction log with
  | nil => rfl
  | cons happening rest ih =>
      cases happening with
      | handed handover => exact ih undecided unscheduled
      | told time report =>
          cases report with
          | schedule entries => exact absurd unscheduled (List.cons_ne_nil _ _)
          | admission response => exact absurd undecided (List.cons_ne_nil _ _)
          | deletion response =>
              exact congrArg ((time, .deletion response) :: ·) (ih undecided unscheduled)

theorem Log.Answers.time_eq (answers : log.Answers) {told : Time × DeletionResponse}
    (member : told ∈ log.deletions) : told.1 = told.2.time := by
  have handed := List.mem_map_of_mem (f := fun told => (told.1, told.2.key, told.2.time)) member
  rw [answers.deletions] at handed
  obtain ⟨handover, _, answered⟩ := List.mem_filterMap.mp handed
  unfold Handover.deletion? at answered
  split at answered
  · cases answered
  · obtain ⟨first, rest⟩ := Prod.mk.inj (Option.some.inj answered)
    exact first.symm.trans (congrArg Prod.snd rest)

theorem Log.records_of_answers (answers : log.Answers) (unscheduled : log.schedules = []) :
    log.records = (log.deletions.map Prod.snd).map fun r => (r.time, .deletion r) := by
  rw [records_eq_deletions answers.admissions unscheduled, List.map_map]
  exact List.map_congr_left fun told member => congrArg (·, _) (answers.time_eq member)

theorem Log.records_ofInterval {before during : Log} {published : Schedule}
    {responses : List AdmissionResponse} :
    records (.ofInterval start stop before during published responses) =
      before.records ++ (start, .schedule published) ::
        (during.records ++ responses.map fun response => (stop, .admission response)) := by
  rw [records, filterMap_ofInterval]
  simp [Happening.record?, records]

/-! ## The page of an interval -/

namespace Submission

def withdrawn? (s : Submission) : Option Allocation.Key :=
  match s.arrival.frame with
  | .request .. => none
  | .deletion key => some key

def requested? (s : Submission) : Option (Allocation.Key × TrafficSpec) :=
  match s.arrival.frame with
  | .request source spec => some (spec.key source, spec)
  | .deletion _ => none

end Submission

/-- What observers are told in an interval: answers before its beacon, the schedule that the
beacon carries, answers after it, and the decisions at its end. -/
structure Page where
  early : List DeletionResponse
  entries : Schedule
  answers : List DeletionResponse
  decisions : List AdmissionResponse

namespace Page

variable {page : Page} {late onTime : List (Submission × Nat)}

def records (page : Page) (start stop : Time) : List Record :=
  page.early.map (fun r => (start, .deletion r)) ++ (start, .schedule page.entries) ::
    (page.answers.map (fun r => (r.time, .deletion r)) ++
      page.decisions.map fun r => (stop, .admission r))

/-- The deletions among late frames are answered at the start, those among the others at their
times, and every request is decided on at the end. -/
structure Answers (page : Page) (start stop : Time) (late onTime : List (Submission × Nat)) :
    Prop where
  early : page.early.map (fun r => (r.key, r.time)) =
    late.filterMap fun x => x.1.withdrawn?.map (·, start)
  answers : page.answers.map (fun r => (r.key, r.time)) =
    onTime.filterMap fun x => x.1.withdrawn?.map (·, x.1.time)
  decisions : page.decisions.map (fun r => (r.key, r.spec, r.decided)) =
    (late ++ onTime).filterMap fun x => x.1.requested?.map fun (key, spec) => (key, spec, stop)

theorem time_of_withdrawn {responses : List DeletionResponse} {chosen : List (Submission × Nat)}
    (moment : Submission → Time)
    (withdrawn : responses.map (fun r => (r.key, r.time)) =
      chosen.filterMap fun x => x.1.withdrawn?.map (·, moment x.1)) :
    ∀ r ∈ responses, ∃ x ∈ chosen, r.time = moment x.1 := by
  intro r member
  have told := List.mem_map_of_mem (f := fun r => (r.key, r.time)) member
  rw [withdrawn] at told
  obtain ⟨x, among, answered⟩ := List.mem_filterMap.mp told
  obtain ⟨_, _, same⟩ := Option.map_eq_some_iff.mp answered
  exact ⟨x, among, (congrArg Prod.snd same).symm⟩

theorem Answers.answered (answers : page.Answers start stop late onTime)
    (within : ∀ x ∈ onTime, start ≤ x.1.time ∧ x.1.time < stop)
    (order : onTime.Pairwise Earlier) :
    page.answers.Pairwise (fun a b => a.time ≤ b.time) ∧
      ∀ r ∈ page.answers, start ≤ r.time ∧ r.time ≤ stop := by
  refine ⟨?_, ?_⟩
  · have times : page.answers.map (·.time) =
        onTime.filterMap fun x => x.1.withdrawn?.map fun _ => x.1.time := by
      have own := congrArg (List.map Prod.snd) answers.answers
      rw [List.map_map, List.map_filterMap] at own
      simp only [Option.map_map] at own
      exact own
    rw [← List.pairwise_map, times]
    refine order.filterMap _ fun x y earlier _ ofX _ ofY => ?_
    obtain ⟨_, _, rfl⟩ := Option.map_eq_some_iff.mp ofX
    obtain ⟨_, _, rfl⟩ := Option.map_eq_some_iff.mp ofY
    exact earlier.elim Nat.le_of_lt fun same => Nat.le_of_eq same.1
  · intro r member
    obtain ⟨x, among, same⟩ := time_of_withdrawn Submission.time answers.answers r member
    obtain ⟨first, last⟩ := within x among
    rw [same]
    exact ⟨first, Nat.le_of_lt last⟩

theorem Answers.sorted (answers : page.Answers start stop late onTime) (runs : start ≤ stop)
    (within : ∀ x ∈ onTime, start ≤ x.1.time ∧ x.1.time < stop)
    (order : onTime.Pairwise Earlier) :
    (page.records start stop).Pairwise (fun a b => a.1 ≤ b.1) ∧
      ∀ record ∈ page.records start stop, start ≤ record.1 ∧ record.1 ≤ stop := by
  obtain ⟨ordered, inside⟩ := answers.answered within order
  have times : (page.records start stop).map Prod.fst =
      List.replicate page.early.length start ++ start :: (page.answers.map (·.time) ++
        List.replicate page.decisions.length stop) := by
    simp only [records, List.map_append, List.map_cons, List.map_map, ← List.map_const']
    rfl
  have after : ∀ time ∈ page.answers.map (·.time) ++ List.replicate page.decisions.length stop,
      start ≤ time ∧ time ≤ stop := by
    refine List.forall_mem_append.mpr ⟨List.forall_mem_map.mpr inside, fun time member => ?_⟩
    rw [List.eq_of_mem_replicate member]
    exact ⟨runs, Nat.le_refl _⟩
  have early : ∀ time ∈ List.replicate page.early.length start, time = start := fun _ member =>
    List.eq_of_mem_replicate member
  rw [← List.pairwise_map, ← List.forall_mem_map (P := fun time => start ≤ time ∧ time ≤ stop),
    times]
  constructor
  · refine List.pairwise_append.mpr ⟨List.pairwise_replicate_of_refl, List.pairwise_cons.mpr
      ⟨fun time member => (after time member).1, List.pairwise_append.mpr
        ⟨List.pairwise_map.mpr ordered, List.pairwise_replicate_of_refl, ?_⟩⟩, ?_⟩
    · intro a answered b decided
      rw [List.eq_of_mem_replicate decided]
      exact (after a (List.mem_append_left _ answered)).2
    · intro a first b later
      rw [early a first]
      rcases List.mem_cons.mp later with rfl | behind
      · exact Nat.le_refl _
      · exact (after b behind).1
  · refine List.forall_mem_append.mpr ⟨?_, List.forall_mem_cons.mpr ⟨⟨Nat.le_refl _, runs⟩, after⟩⟩
    intro time member
    rw [early time member]
    exact ⟨Nat.le_refl _, runs⟩

end Page

namespace Submission

variable {s : Submission} {length k : Nat}

/-- The frame comes before interval number `k`, once the intervals before that are over. -/
def Late (length k : Nat) (s : Submission) : Prop :=
  s.after = k ∧ s.time < k * length

/-- The frame comes in interval number `k`, and has been submitted by its start. -/
def OnTime (length k : Nat) (s : Submission) : Prop :=
  s.after ≤ k ∧ k * length ≤ s.time ∧ s.time < (k + 1) * length

instance : Decidable (s.Late length k) :=
  inferInstanceAs (Decidable (_ ∧ _))

instance : Decidable (s.OnTime length k) :=
  inferInstanceAs (Decidable (_ ∧ _))

theorem late_iff (positive : 0 < length) (made : s.after ≤ k) :
    s.Late length k ↔ k ≤ s.interval length ∧ s.time < k * length := by
  refine and_congr_left fun early => ?_
  rw [le_interval_iff positive, or_iff_right (Nat.not_le.mpr early)]
  exact ⟨fun same => Nat.le_of_eq same.symm, Nat.le_antisymm made⟩

theorem onTime_iff (positive : 0 < length) (made : s.after ≤ k) :
    s.OnTime length k ↔
      (k ≤ s.interval length ∧ k * length ≤ s.time) ∧ s.time < (k + 1) * length := by
  rw [and_assoc]
  refine and_congr_left fun ⟨begun, _⟩ => ?_
  exact iff_of_true made ((le_interval_iff positive).mpr (Or.inl begun))

end Submission

theorem Log.Answers.withdrawn {chosen : List (Submission × Nat)} (answers : log.Answers)
    (moment : Submission → Time)
    (handed : log.handed = chosen.map fun x => ⟨x.1.arrival, moment x.1⟩) :
    (log.deletions.map Prod.snd).map (fun r => (r.key, r.time)) =
      chosen.filterMap fun x => x.1.withdrawn?.map (·, moment x.1) := by
  have own := congrArg (List.map Prod.snd) answers.deletions
  rw [List.map_map, handed, List.filterMap_map, List.map_filterMap] at own
  rw [List.map_map]
  refine own.trans (congrArg (List.filterMap · chosen) (funext fun x => ?_))
  obtain ⟨⟨⟨time, frame⟩, after⟩, number⟩ := x
  cases frame <;> rfl

theorem filterMap_requested? (chosen : List (Submission × Nat)) (moment : Submission → Time) :
    ((chosen.map fun x => (⟨x.1.arrival, moment x.1⟩ : Handover)).filterMap Handover.request?).map
        (fun request => (request.key, request.spec, stop)) =
      chosen.filterMap fun x => x.1.requested?.map fun (key, spec) => (key, spec, stop) := by
  rw [List.filterMap_map, List.map_filterMap]
  refine congrArg (List.filterMap · chosen) (funext fun x => ?_)
  obtain ⟨⟨⟨time, frame⟩, after⟩, number⟩ := x
  cases frame <;> rfl

theorem Served.behind {heard : Timeline} {last : Time} {before during : Log}
    {published : Schedule} {responses : List AdmissionResponse}
    (served : Served t stop (.ofInterval start last before during published responses) next)
    (delivered : Delivered t t.now before heard) (runs : t.now ≤ stop) :
    during.handed = ((t.arrivals.dropWhile (·.time < t.now)).takeWhile (·.time < stop)).map
        (fun a => ⟨a, max a.time t.now⟩) ∧
      during.deletions.map (fun told => (told.1, told.2.key, told.2.time)) =
        during.handed.filterMap Handover.deletion? := by
  have earlier : ∀ a : Arrival, decide (a.time < t.now) = true → decide (a.time < stop) = true := by
    intro a early
    rw [decide_eq_true_eq] at early ⊢
    exact Nat.lt_of_lt_of_le early runs
  have handed := served.handed
  have deletions := served.deletions
  rw [Log.handed_ofInterval, Log.handed_append, takeWhile_of_imp earlier, List.map_append,
    delivered.handed] at handed
  rw [Log.deletions_ofInterval, Log.handed_ofInterval, Log.deletions_append, Log.handed_append,
    List.map_append, List.filterMap_append, delivered.answers.deletions] at deletions
  exact ⟨List.append_cancel_left handed, List.append_cancel_left deletions⟩

section Between

variable {beacon : Config.Beacon} {past : List Action} {header : Nat}

/-- What waits between intervals: first the frames that are late, then those of the next
interval. -/
theorem Between.waits (between : Between beacon past t) (positive : 0 < beacon.interval) :
    ∃ late onTime,
      Selects (·.Late beacon.interval t.intervals) (submissions 0 past) late ∧
      Selects (·.OnTime beacon.interval t.intervals) (submissions 0 past) onTime ∧
      t.arrivals.takeWhile (·.time < t.now) = waiting late ∧
      (t.arrivals.dropWhile (·.time < t.now)).takeWhile
        (·.time < (t.intervals + 1) * beacon.interval) = waiting onTime := by
  obtain ⟨pending, arrivals, selects⟩ := between.pending
  obtain ⟨late, others, takes, drops, selectsLate, selectsOthers⟩ := selects.split t.now
  obtain ⟨onTime, _, own, _, selectsOwn, _⟩ :=
    selectsOthers.split ((t.intervals + 1) * beacon.interval)
  rw [between.clock] at selectsLate selectsOwn
  exact ⟨late, onTime,
    selectsLate.congr fun s member => (s.late_iff positive (between.after_le member)).symm,
    selectsOwn.congr fun s member => (s.onTime_iff positive (between.after_le member)).symm,
    by rw [arrivals, takes], by rw [arrivals, drops, own]⟩

theorem Between.page (between : Between beacon past t) (sound : t.Sound)
    (regular : beacon.Regular header) (watched : t.watchInterval.value = .ok (log, next)) :
    ∃ late onTime page,
      Selects (·.Late beacon.interval t.intervals) (submissions 0 past) late ∧
      Selects (·.OnTime beacon.interval t.intervals) (submissions 0 past) onTime ∧
      log.records = Page.records page (t.intervals * beacon.interval)
        ((t.intervals + 1) * beacon.interval) ∧
      page.Answers (t.intervals * beacon.interval) ((t.intervals + 1) * beacon.interval) late
        onTime := by
  have positive : 0 < beacon.interval := Nat.zero_lt_of_lt regular.header
  obtain ⟨late, onTime, selectsLate, selectsOwn, early, own⟩ := between.waits positive
  have served := between.served regular watched
  obtain ⟨start, before, heard, during, boundary, ended, starts, advanced, _, waits, _, rfl, now,
    _⟩ := watchInterval_waits sound between.idle watched
  obtain rfl : start = t.now := by
    rw [between.clock, ← between.configured]
    exact (mul_eq_ok_iff.mp starts).2.symm
  obtain ⟨delivered, _⟩ := watchAdvance_delivers between.idle.tiled advanced
  have stop : boundary.now = (t.intervals + 1) * beacon.interval := now.symm.trans served.now
  have runs : t.now ≤ (t.intervals + 1) * beacon.interval := by
    rw [between.clock]
    exact Nat.mul_le_mul_right _ (Nat.le_succ _)
  have admissions := waits.admissions
  have schedules := waits.schedules
  rw [Log.admissions_append, List.append_eq_nil_iff] at admissions
  rw [Log.schedules_append, List.append_eq_nil_iff] at schedules
  have handedBefore : before.handed = late.map fun x => ⟨x.1.arrival, t.now⟩ := by
    rw [delivered.handed, early, waiting, List.map_map]
    refine List.map_congr_left fun x member => ?_
    have past := ((selectsLate.mem_iff x).mp member).2.2
    rw [← between.clock] at past
    exact congrArg (Handover.mk x.1.arrival) (Nat.max_eq_right (Nat.le_of_lt past))
  obtain ⟨handed, deletions⟩ := served.behind delivered runs
  have handedDuring : Log.handed during = onTime.map fun x => ⟨x.1.arrival, x.1.time⟩ := by
    rw [handed, own, waiting, List.map_map]
    refine List.map_congr_left fun x member => ?_
    have begun := ((selectsOwn.mem_iff x).mp member).2.2.1
    rw [← between.clock] at begun
    exact congrArg (Handover.mk x.1.arrival) (Nat.max_eq_left begun)
  have answersDuring : Log.Answers during := ⟨admissions.2, deletions⟩
  have withdrawn := delivered.answers.withdrawn (fun _ => t.now) handedBefore
  refine ⟨late, onTime, ⟨before.deletions.map Prod.snd, t.scheduler.published,
    (Log.deletions during).map Prod.snd, ended.responses⟩, selectsLate, selectsOwn, ?_, ?_⟩
  · rw [Log.records_ofInterval, Log.records_of_answers delivered.answers schedules.1,
      Log.records_of_answers answersDuring schedules.2, stop, Page.records, ← between.clock]
    refine congrArg (· ++ _) (List.map_congr_left fun r member => ?_)
    obtain ⟨_, _, same⟩ := Page.time_of_withdrawn (fun _ => t.now) withdrawn r member
    rw [same]
  · rw [← between.clock]
    refine ⟨withdrawn, answersDuring.withdrawn Submission.time handedDuring, ?_⟩
    have decided := congrArg (List.map Prod.snd) served.admissions
    rw [Log.admissions_ofInterval, Log.admissions_append, admissions.1, admissions.2,
      Log.requests, Log.handed_ofInterval, Log.handed_append, handedBefore, handedDuring] at decided
    simp only [List.nil_append, List.filterMap_append, List.map_append, List.map_map] at decided
    rw [List.filterMap_append, ← filterMap_requested? late fun _ => t.now,
      ← filterMap_requested? onTime Submission.time]
    exact decided

end Between

/-! ## Whole runs -/

inductive Operation where
  | submit (time : Time) (frame : Frame)
  | runInterval
  | run (limit stopAfter : Option Nat)

def operate (t : Timeline) : Operation → Noted Timeline
  | .submit time frame => t.submit time frame
  | .runInterval => t.runInterval
  | .run limit stopAfter => Prod.snd <$> t.run limit stopAfter

def operateAll (t : Timeline) : List Operation → Noted Timeline
  | [] => return t
  | operation :: rest => do (← t.operate operation).operateAll rest

def Operation.actions : Operation → List Action
  | .submit time frame => [.submit time frame]
  | .runInterval => [.runInterval]
  | .run limit stopAfter => List.replicate (rounds limit stopAfter) .runInterval

theorem value_operate (t : Timeline) (operation : Operation) :
    (t.operate operation).value = (t.actAll operation.actions).value := by
  cases operation with
  | submit time frame => simp only [operate, Operation.actions, actAll, act, bind_pure]
  | runInterval => simp only [operate, Operation.actions, actAll, act, bind_pure]
  | run limit stopAfter =>
      rw [operate, Noted.value_map, value_run, Operation.actions]
      cases (t.actAll (List.replicate (rounds limit stopAfter) .runInterval)).value <;> rfl

theorem value_operateAll (t : Timeline) (operations : List Operation) :
    (t.operateAll operations).value = (t.actAll (operations.flatMap Operation.actions)).value := by
  induction operations generalizing t with
  | nil => rfl
  | cons operation rest ih =>
      rw [operateAll, List.flatMap_cons, actAll_append, Noted.value_bind, Noted.value_bind,
        value_operate]
      exact congrArg _ (funext ih)

theorem registers_of_mem (operations : List Operation) :
    ∀ action ∈ operations.flatMap Operation.actions, action.registers = false := by
  intro action member
  obtain ⟨operation, _, own⟩ := List.mem_flatMap.mp member
  cases operation with
  | submit time frame =>
      rw [List.eq_of_mem_singleton own]
      rfl
  | runInterval =>
      rw [List.eq_of_mem_singleton own]
      rfl
  | run limit stopAfter =>
      rw [List.eq_of_mem_replicate own]
      rfl

theorem count_registrations (observers : List Observer) (later : List Action) :
    (observers.map Action.register ++ later).count .runInterval = later.count .runInterval := by
  induction observers with
  | nil => rfl
  | cons observer rest ih =>
      rw [List.map_cons, List.cons_append, List.count_cons_of_ne (by simp), ih]

theorem submissions_registrations (k : Nat) (observers : List Observer) (later : List Action) :
    submissions k (observers.map .register ++ later) = submissions k later := by
  induction observers with
  | nil => rfl
  | cons observer rest ih => exact ih

theorem diary_page {config : Config} {actions : List Action} {logs : List Log} {k : Nat}
    (drove : (drive config (observers.map .register)).value = .ok fresh)
    (watched : (fresh.diary actions).value = .ok (logs, t)) (found : logs[k]? = some log) :
    ∃ late onTime, ∃ page : Page,
      Selects (·.Late config.beacon.interval k) (submissions 0 actions) late ∧
      Selects (·.OnTime config.beacon.interval k) (submissions 0 actions) onTime ∧
      page.Answers (k * config.beacon.interval) ((k + 1) * config.beacon.interval) late onTime ∧
      log.records = page.records (k * config.beacon.interval)
        ((k + 1) * config.beacon.interval) := by
  obtain ⟨before, later, begun, ended, rfl, rfl, reached, heard⟩ :=
    diary_pages drove watched found
  obtain ⟨sound, _⟩ := drive_origin reached
  obtain ⟨⟨header, regular⟩, between⟩ := drive_between reached
  obtain ⟨late, onTime, page, selectsLate, selectsOwn, told, answers⟩ :=
    between.page sound regular heard
  rw [between.intervals, count_registrations] at selectsLate selectsOwn told answers
  rw [submissions_registrations] at selectsLate selectsOwn
  -- What is submitted later is made after the interval.
  have made : ∀ s ∈ submissions (0 + before.count .runInterval) (.runInterval :: later),
      before.count .runInterval < s.after := by
    intro s member
    rw [Nat.zero_add] at member
    exact (after_of_mem (k := before.count .runInterval + 1) member).1
  rw [submissions_append]
  exact ⟨late, onTime, page,
    selectsLate.skip fun s member own => Nat.ne_of_gt (made s member) own.1,
    selectsOwn.skip fun s member own => Nat.not_le.mpr (made s member) own.1, answers, told⟩

theorem sorted_of_pages {pages : List (List Record)} (length : Nat)
    (each : ∀ k page, pages[k]? = some page → page.Pairwise (fun a b => a.1 ≤ b.1) ∧
      ∀ record ∈ page, k * length ≤ record.1 ∧ record.1 ≤ (k + 1) * length) :
    pages.flatten.Pairwise fun a b => a.1 ≤ b.1 := by
  refine List.pairwise_flatten.mpr ⟨?_, List.pairwise_iff_getElem.mpr ?_⟩
  · intro page member
    obtain ⟨k, found⟩ := List.mem_iff_getElem?.mp member
    exact (each k page found).1
  · intro j k boundJ boundK before a first b second
    have last := ((each j _ (List.getElem?_eq_getElem boundJ)).2 a first).2
    have begun := ((each k _ (List.getElem?_eq_getElem boundK)).2 b second).1
    exact Nat.le_trans last (Nat.le_trans (Nat.mul_le_mul_right _ before) begun)

/-- Every observer that wants all reports gets the records of the intervals that are run, which
go by time.  Those of an interval are the answers to the deletions among late frames, at its
start; its schedule; the answers to the deletions that arrive in it, at their times; and the
decisions on all requests among these frames, at its end. -/
theorem operateAll_notifies {config : Config} {operations : List Operation}
    (drove : (drive config (observers.map .register)).value = .ok fresh)
    (operated : (fresh.operateAll operations).value = .ok t) :
    ∃ logs, (fresh.diary (operations.flatMap Operation.actions)).value = .ok (logs, t) ∧
      logs.length = t.intervals ∧
      (∀ i, observers[i]? = some .everything → t.inbox i = logs.flatMap Log.records) ∧
      (logs.flatMap Log.records).Pairwise (fun a b => a.1 ≤ b.1) ∧
      ∀ k log, logs[k]? = some log → ∃ late onTime, ∃ page : Page,
        Selects (·.Late config.beacon.interval k)
          (submissions 0 (operations.flatMap Operation.actions)) late ∧
        Selects (·.OnTime config.beacon.interval k)
          (submissions 0 (operations.flatMap Operation.actions)) onTime ∧
        page.Answers (k * config.beacon.interval) ((k + 1) * config.beacon.interval) late
          onTime ∧
        log.records = page.records (k * config.beacon.interval)
          ((k + 1) * config.beacon.interval) := by
  rw [value_operateAll] at operated
  have settled := registers_of_mem operations
  generalize operations.flatMap Operation.actions = actions at operated settled ⊢
  obtain ⟨logs, watched⟩ := diary_of_actAll operated
  have whole : (drive config (observers.map .register ++ actions)).value = .ok t := by
    rw [drive_append, Noted.value_bind, drove, ok_bind, operated]
  have tells := diary_tells settled watched
  obtain ⟨scheduler, _, rfl⟩ := drive_registrations_iff.mp drove
  have records : Log.records logs.flatten = logs.flatMap Log.records := List.filterMap_flatten
  refine ⟨logs, watched, ?_, fun i own => ?_, ?_, fun k log found => diary_page drove watched found⟩
  · rw [(drive_between whole).2.intervals, count_registrations, diary_length watched]
  · rw [← records, tells.inbox own]
    rfl
  · refine sorted_of_pages config.beacon.interval fun k records found => ?_
    rw [List.getElem?_map, Option.map_eq_some_iff] at found
    obtain ⟨log, page, rfl⟩ := found
    obtain ⟨late, onTime, page, _, selects, answers, told⟩ := diary_page drove watched page
    rw [told]
    exact answers.sorted (Nat.mul_le_mul_right _ (Nat.le_succ k))
      (fun x member => ((selects.mem_iff x).mp member).2.2) selects.order

def mixedObservers : List Observer :=
  [.everything, .schedulesOnly, .everything]

/-- After an interval, a deletion that is late; then a run of two intervals, with frames that
come at the start of one and at the end of the other. -/
def mixedOperations : List Operation :=
  [.submit 102400 (.request 7 mixedSpec), .submit 50 (.request 8 mixedSpec), .runInterval,
    .submit 20 (.deletion ⟨3, 8, 4⟩), .submit 307200 (.deletion ⟨3, 7, 4⟩),
    .submit 150000 (.deletion ⟨3, 9, 4⟩), .run (some 2) none]

theorem mixedOperations_notify :
    ∃ fresh t, ∃ logs : List Log, ∃ log : Log, ∃ page : Page,
      (drive mixedConfig (mixedObservers.map .register)).value = .ok fresh ∧
      (fresh.operateAll mixedOperations).value = .ok t ∧ t.intervals = 3 ∧
      t.inbox 0 = logs.flatMap Log.records ∧ t.inbox 2 = t.inbox 0 ∧
      (t.inbox 0).Pairwise (fun a b => a.1 ≤ b.1) ∧
      (t.inbox 0).map Prod.fst = [0, 102400, 102400, 102400, 150000, 204800, 204800] ∧
      logs[1]? = some log ∧ log.records = page.records 102400 204800 ∧
      page.early.map (fun r => (r.key, r.time)) = [(⟨3, 8, 4⟩, 102400)] ∧
      page.answers.map (fun r => (r.key, r.time)) = [(⟨3, 9, 4⟩, 150000)] ∧
      page.decisions.map (fun r => (r.key, r.spec, r.decided)) =
        [(⟨3, 7, 4⟩, mixedSpec, 204800)] := by
  obtain ⟨⟨fresh, t⟩, ran, computed⟩ := Scheduler.exists_ok
    (x := (do
      let fresh ← drive mixedConfig (mixedObservers.map .register)
      return (fresh, ← fresh.operateAll mixedOperations) : Noted _).value)
    (f := fun (_, t) => (t.intervals, (t.inbox 0).map Prod.fst))
    (b := (3, [0, 102400, 102400, 102400, 150000, 204800, 204800])) (by decide +kernel)
  simp only [Noted.value_bind, Noted.value_pure, bind_eq_ok_iff, Except.ok.injEq,
    Prod.mk.injEq] at ran computed
  obtain ⟨_, drove, _, operated, rfl, rfl⟩ := ran
  obtain ⟨intervals, times⟩ := computed
  obtain ⟨logs, _, length, inbox, sorted, each⟩ := operateAll_notifies drove operated
  obtain ⟨log, found⟩ : ∃ log, logs[1]? = some log :=
    ⟨_, List.getElem?_eq_getElem (by rw [length, intervals]; decide)⟩
  obtain ⟨late, onTime, page, selectsLate, selectsOwn, answers, told⟩ := each 1 log found
  obtain rfl : late = [(⟨⟨20, .deletion ⟨3, 8, 4⟩⟩, 1⟩, 2)] :=
    selectsLate.unique (by decide +kernel)
  obtain rfl : onTime = [(⟨⟨102400, .request 7 mixedSpec⟩, 0⟩, 0),
      (⟨⟨150000, .deletion ⟨3, 9, 4⟩⟩, 1⟩, 4)] := selectsOwn.unique (by decide +kernel)
  have first := inbox 0 rfl
  rw [← first] at sorted
  exact ⟨_, _, logs, log, page, drove, operated, intervals, first, (inbox 2 rfl).trans first.symm,
    sorted, times, found, told, answers.early, answers.answers, answers.decisions⟩

end BeaconScheduler.Timeline
