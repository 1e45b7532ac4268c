import BeaconScheduler.Proofs.Handover
import BeaconScheduler.Proofs.Keys
import BeaconScheduler.Proofs.Renewal

/-!
# The registry through an interval

Up to the end of an interval only deletions change the registry (`Waits`); the schedule that its
beacon carries has been published before.  At the end what has expired is dropped and the queue
is decided on, which makes the next schedule (`watchInterval_decides`).  Under one key this
leaves no more than there was, unless a request of the key is accepted (`Decides.under_next`).
-/

set_option autoImplicit false

namespace BeaconScheduler

open Counter

/-! ## New grants -/

namespace Scheduler

variable {s next : Scheduler} {now : Time} {policy : Policy} {terms : Terms} {air last : Airtime}
  {queue : List AdmissionRequest} {responses : List AdmissionResponse} {a : Allocation}

/-- The allocations that the decisions on a queue register under keys that had none. -/
def newGrants (policy : Policy) (terms : Terms) (now : Time) (air : Airtime) :
    List AdmissionRequest → Noted (List Allocation)
  | [] => return []
  | request :: rest => do
      let (_, after) ← policy.decide terms now request air
      let later ← newGrants policy terms now after rest
      if air.registry.contains request.key then
        return later
      else
        return (after.registry.find? request.key).toList ++ later

theorem newGrants_of_decided
    (decided : (decideAll policy terms now air queue).value = .ok (responses, last)) :
    ∃ granted, (newGrants policy terms now air queue).value = .ok granted ∧
      ∀ a ∈ granted, (∃ r ∈ responses, r.key = a.key ∧ r.outcome = .granted a) ∧
        ∃ b, last.registry.under a.key = [b] ∧ a.Continues b := by
  induction queue generalizing air responses with
  | nil => exact ⟨[], rfl, fun _ member => absurd member List.not_mem_nil⟩
  | cons request rest ih =>
      obtain ⟨outcome, after, others, own, decidedRest, rfl⟩ := decideAll_cons_eq_ok_iff.mp decided
      obtain ⟨later, grantedRest, each⟩ := ih decidedRest
      have behind : ∀ a ∈ later,
          (∃ r ∈ (⟨request.key, request.spec, outcome, now⟩ : AdmissionResponse) :: others,
            r.key = a.key ∧ r.outcome = .granted a) ∧
          ∃ b, last.registry.under a.key = [b] ∧ a.Continues b := by
        intro a member
        obtain ⟨⟨r, answers, named⟩, registered⟩ := each a member
        exact ⟨⟨r, List.mem_cons_of_mem _ answers, named⟩, registered⟩
      simp only [newGrants, Noted.value_bind, own, grantedRest, ok_bind]
      by_cases registered : air.registry.contains request.key = true
      · rw [if_pos registered]
        exact ⟨later, rfl, behind⟩
      · rw [if_neg registered]
        refine ⟨_, rfl, fun a member => ?_⟩
        rcases List.mem_append.mp member with new | old
        · have found := Option.mem_toList.mp new
          have named : a.key = request.key := Registry.key_of_find? found
          have absent : air.registry.under request.key = [] :=
            Registry.under_eq_nil_iff.mpr (by simpa [Registry.contains] using registered)
          obtain ⟨behindOwn, split⟩ := Registry.under_of_find? found
          rw [named]
          cases Policy.decide_under request.key own with
          | none _ same =>
              rw [same, absent] at split
              cases split
          | first _ _ granted single =>
              obtain ⟨rfl, rfl⟩ := List.cons.inj (single.symm.trans split)
              exact ⟨⟨_, List.mem_cons_self, rfl, granted⟩,
                decideAll_continues decidedRest single⟩
          | shorter _ current =>
              rw [absent] at current
              cases current
        · exact behind a old

theorem endInterval_decides (tiled : s.Tiled) (ended : (s.endInterval now).value = .ok next) :
    ∃ cleaned responses air, (s.cleanUp now).value = .ok cleaned ∧
      cleaned.air.registry = s.air.registry.purge.2 ∧
      (decideAll cleaned.policy cleaned.terms now cleaned.air cleaned.queue).value =
        .ok (responses, air) ∧
      next.Tiled ∧ next.queue = [] ∧ next.responses = s.responses ++ responses ∧
      next.air = air.announced := by
  simp only [endInterval, Noted.value_bind, Noted.value_noteAt, ok_bind, bind_eq_ok_iff] at ended
  obtain ⟨_, cleans, ⟨responses, air⟩, decided, _, refreshed, _, _, last⟩ := ended
  obtain ⟨cleaned, rfl, registry, tiledCleaned⟩ := cleanUp_eq_ok tiled cleans
  have tiledAfter : air.Tiled s.limits.guard s.timing.dti := decideAll_tiled tiledCleaned decided
  obtain rfl := refresh_eq_ok s.limits.guard tiledAfter refreshed
  obtain rfl := Except.ok.inj last
  exact ⟨_, responses, air, cleans, registry, decided, tiledAfter.announced, rfl, rfl, rfl⟩

end Scheduler

namespace Timeline

variable {t middle next last : Timeline} {time : Time} {log more : Log}

/-! ## What is told and taken -/

def Handover.withdrawn? (handover : Handover) : Option Allocation.Key :=
  match handover.arrival.frame with
  | .request .. => none
  | .deletion key => some key

def Happening.schedule? : Happening → Option (Time × Schedule)
  | .told time (.schedule entries) => some (time, entries)
  | _ => none

namespace Log

def withdrawals (log : Log) : List Allocation.Key :=
  log.handed.filterMap Handover.withdrawn?

def schedules (log : Log) : List (Time × Schedule) :=
  log.filterMap Happening.schedule?

def responses (log : Log) : List AdmissionResponse :=
  log.admissions.map Prod.snd

theorem withdrawals_append (log more : Log) :
    withdrawals (log ++ more) = log.withdrawals ++ more.withdrawals := by
  rw [withdrawals, handed_append, List.filterMap_append]
  rfl

theorem schedules_append (log more : Log) :
    schedules (log ++ more) = log.schedules ++ more.schedules := List.filterMap_append

theorem responses_append (log more : Log) :
    responses (log ++ more) = log.responses ++ more.responses := by
  rw [responses, admissions_append, List.map_append]
  rfl

section Told

variable (time : Time) (responses : List AdmissionResponse)

def decisions : Log :=
  responses.map fun response => .told time (.admission response)

theorem handed_decisions : (decisions time responses).handed = [] := by
  rw [decisions, handed, List.filterMap_map]
  exact List.filterMap_eq_nil_iff.mpr fun _ _ => rfl

theorem schedules_decisions : (decisions time responses).schedules = [] := by
  rw [decisions, schedules, List.filterMap_map]
  exact List.filterMap_eq_nil_iff.mpr fun _ _ => rfl

theorem responses_decisions : Log.responses (decisions time responses) = responses := by
  have all : (decisions time responses).admissions = responses.map (time, ·) := by
    rw [decisions, admissions, List.filterMap_map]
    exact congrFun List.filterMap_eq_map responses
  rw [Log.responses, all, List.map_map]
  exact List.map_id _

end Told
end Log

/-! ## Up to the decisions -/

/-- The changes of an interval up to the last one, which is left to be made. -/
def watchBoundary : Nat → Wakeup → Timeline → Noted (Log × Timeline)
  | 0, _, t => return ([], t)
  | left + 1, wakeup, t => do
      let (log, t) ← t.watchAdvance wakeup.time
      if wakeup.change = .intervalEnd then
        return (log, t)
      let (follows, scheduler) ← t.scheduler.handle wakeup.time wakeup.change
      match follows with
      | some follows => do
          let (later, t) ← watchBoundary left follows { t with scheduler }
          return (log ++ later, t)
      | none => return (log, { t with scheduler })

def watchUndecided (t : Timeline) : Noted (Log × Timeline) := do
  let start ← t.intervalStart t.intervals
  let (before, t) ← t.watchAdvance start
  let header ← t.beacon.header
  let (next, scheduler) ←
    t.scheduler.startInterval start t.beacon.coordinator t.beacon.interval header
      t.beacon.announcement
  let t ← { t with scheduler }.tell start (.schedule scheduler.published)
  let (during, t) ← watchBoundary maxChanges next t
  return (before ++ .told start (.schedule scheduler.published) :: during, t)

def grants (t : Timeline) : Noted (List Allocation) := do
  let (_, boundary) ← t.watchUndecided
  let cleaned ← boundary.scheduler.cleanUp boundary.now
  Scheduler.newGrants cleaned.policy cleaned.terms boundary.now cleaned.air cleaned.queue

/-- Nothing is decided or published; deletions take their allocations out. -/
structure Waits (t : Timeline) (log : Log) (next : Timeline) : Prop where
  tiled : next.scheduler.Tiled
  registry : next.scheduler.air.registry =
    log.withdrawals.foldl Registry.erase t.scheduler.air.registry
  published : next.scheduler.published = t.scheduler.published
  responses : next.scheduler.responses = t.scheduler.responses
  admissions : log.admissions = []
  schedules : log.schedules = []

theorem Waits.append (first : Waits t log middle) (second : Waits middle more next) :
    Waits t (log ++ more) next := by
  refine ⟨second.tiled, ?_, second.published.trans first.published,
    second.responses.trans first.responses, ?_, ?_⟩
  · rw [second.registry, first.registry, Log.withdrawals_append, List.foldl_append]
  · rw [Log.admissions_append, first.admissions, second.admissions, List.append_nil]
  · rw [Log.schedules_append, first.schedules, second.schedules, List.append_nil]

theorem Waits.nil (tiled : next.scheduler.Tiled)
    (registry : next.scheduler.air.registry = t.scheduler.air.registry)
    (published : next.scheduler.published = t.scheduler.published)
    (responses : next.scheduler.responses = t.scheduler.responses) : Waits t [] next :=
  ⟨tiled, registry, published, responses, rfl, rfl⟩

theorem watchReceive_waits {a : Arrival} (tiled : t.scheduler.Tiled)
    (watched : (t.watchReceive time a).value = .ok (log, next)) : Waits t log next := by
  obtain ⟨arrives, frame⟩ := a
  cases frame with
  | request source spec =>
      obtain ⟨rfl, rfl⟩ := Prod.mk.inj (Except.ok.inj watched)
      exact ⟨tiled, rfl, rfl, rfl, rfl, rfl⟩
  | deletion key =>
      simp only [watchReceive, Noted.value_bind, bind_eq_ok_iff, value_tell, Noted.value_pure,
        Except.ok.injEq, Prod.mk.injEq] at watched
      obtain ⟨⟨response, scheduler⟩, deleted, _, rfl, rfl, rfl⟩ := watched
      rcases Scheduler.delete_cases tiled deleted with
        ⟨unknown, rfl⟩ | ⟨a, slots, statistics, _, tiling, rfl⟩
      · refine ⟨tiled, ?_, rfl, rfl, rfl, rfl⟩
        exact (List.eraseP_of_forall_not (List.find?_eq_none.mp unknown)).symm
      · exact ⟨tiling, rfl, rfl, rfl, rfl, rfl⟩

theorem watchReceiveAll_waits {limit : Time} {arrivals : List Arrival}
    (tiled : t.scheduler.Tiled)
    (watched : (watchReceiveAll limit t arrivals).value = .ok (log, next)) : Waits t log next := by
  induction arrivals generalizing t log with
  | nil =>
      obtain ⟨rfl, rfl⟩ := Prod.mk.inj (Except.ok.inj watched)
      exact .nil tiled rfl rfl rfl
  | cons a rest ih =>
      unfold watchReceiveAll at watched
      split_ifs at watched
      · simp only [Noted.value_bind, bind_eq_ok_iff, Noted.value_pure, Except.ok.injEq,
          Prod.mk.injEq] at watched
        obtain ⟨_, received, _, receivedRest, rfl, rfl⟩ := watched
        have waits := watchReceive_waits tiled received
        exact waits.append (ih waits.tiled receivedRest)
      · obtain ⟨rfl, rfl⟩ := Prod.mk.inj (Except.ok.inj watched)
        exact .nil tiled rfl rfl rfl

theorem watchAdvance_waits (tiled : t.scheduler.Tiled)
    (watched : (t.watchAdvance time).value = .ok (log, next)) : Waits t log next := by
  simp only [watchAdvance, Noted.value_bind, bind_eq_ok_iff, Noted.value_pure, Except.ok.injEq,
    Prod.mk.injEq] at watched
  obtain ⟨⟨_, heard⟩, received, rfl, rfl⟩ := watched
  have waits := watchReceiveAll_waits tiled received
  exact ⟨waits.tiled, waits.registry, waits.published, waits.responses, waits.admissions,
    waits.schedules⟩

section Boundary

variable {left : Nat} {wakeup follows : Wakeup} {scheduler : Scheduler}

theorem watchBoundary_stops (ends : wakeup.change = .intervalEnd)
    (advanced : (t.watchAdvance wakeup.time).value = .ok (log, middle)) :
    (watchBoundary (left + 1) wakeup t).value = .ok (log, middle) := by
  simp only [watchBoundary, Noted.value_bind, advanced, ok_bind]
  rw [if_pos ends]
  rfl

theorem watchBoundary_follows (goesOn : wakeup.change ≠ .intervalEnd)
    (advanced : (t.watchAdvance wakeup.time).value = .ok (log, middle))
    (handled : (middle.scheduler.handle wakeup.time wakeup.change).value =
      .ok (some follows, scheduler))
    (reached : (watchBoundary left follows { middle with scheduler }).value = .ok (more, next)) :
    (watchBoundary (left + 1) wakeup t).value = .ok (log ++ more, next) := by
  simp only [watchBoundary, Noted.value_bind, advanced, ok_bind]
  rw [if_neg goesOn, Noted.value_bind, handled, ok_bind]
  dsimp only
  rw [Noted.value_bind, reached]
  rfl

end Boundary

theorem watchChanges_decides {left : Nat} {wakeup : Wakeup} {timing : Timing}
    (underway : t.Underway wakeup timing)
    (enough : Scheduler.changesLeft wakeup.change ≤ left)
    (watched : (watchChanges left wakeup t).value = .ok (log, last)) :
    ∃ boundary ended, (watchBoundary left wakeup t).value = .ok (log, boundary) ∧
      Waits t log boundary ∧
      (boundary.scheduler.endInterval boundary.now).value = .ok ended ∧
      last = { boundary with scheduler := { ended with pending := none } } := by
  induction left generalizing t wakeup timing log with
  | zero =>
      cases change : wakeup.change <;> rw [change] at enough <;> cases enough
  | succ left ih =>
      simp only [watchChanges, Noted.value_bind, bind_eq_ok_iff] at watched
      obtain ⟨⟨first, heard⟩, advanced, ⟨result, scheduler⟩, handled, watched⟩ := watched
      have waits := watchAdvance_waits underway.tiled advanced
      obtain ⟨delivered, now⟩ := watchAdvance_delivers underway.tiled advanced
      have underwayHeard := underway.hears delivered.hears
      obtain rfl := underwayHeard.timing
      have due := underwayHeard.awaits.value_handle.symm.trans handled
      cases follow : heard.scheduler.timing.following wakeup with
      | some follows =>
          have goesOn : wakeup.change ≠ .intervalEnd := by
            intro ends
            simp only [Timing.following, ends] at follow
            cases follow
          obtain ⟨_, _, fewer⟩ := Timing.stop_following follow
          obtain ⟨_, rfl, changed⟩ := (Scheduler.makeChange_follows_iff follow).mp due
          have underwayNext := underwayHeard.changed follow
          rw [← changed] at underwayNext
          simp only [Noted.value_bind, bind_eq_ok_iff, Noted.value_pure, Except.ok.injEq,
            Prod.mk.injEq] at watched
          obtain ⟨⟨others, _⟩, watchedRest, rfl, rfl⟩ := watched
          obtain ⟨boundary, ended, reached, waitsRest, ends, closed⟩ :=
            ih underwayNext (by omega) watchedRest
          have waitsLater : Waits heard ([] ++ others) boundary := by
            refine Waits.append (.nil underwayNext.tiled ?_ ?_ ?_) waitsRest
            · rw [changed]
            · rw [changed]
            · rw [changed]
          exact ⟨boundary, ended, watchBoundary_follows goesOn advanced handled reached,
            waits.append waitsLater, ends, closed⟩
      | none =>
          have ends := Timing.following_eq_none follow
          rw [ends] at due
          simp only [Scheduler.makeChange, Noted.value_bind, bind_eq_ok_iff, Noted.value_pure,
            Except.ok.injEq, Prod.mk.injEq] at due
          obtain ⟨ended, closes, rfl, rfl⟩ := due
          obtain ⟨rfl, rfl⟩ := Prod.mk.inj (Except.ok.inj watched)
          rw [← now] at closes
          exact ⟨heard, ended, watchBoundary_stops ends advanced, waits, closes, rfl⟩

/-! ## A whole interval -/

theorem watchInterval_waits (sound : t.Sound) (idle : t.Idle)
    (watched : t.watchInterval.value = .ok (log, next)) :
    ∃ start before heard during boundary ended,
      t.intervalStart t.intervals = .ok start ∧
      (t.watchAdvance start).value = .ok (before, heard) ∧
      t.watchUndecided.value =
        .ok (before ++ .told start (.schedule t.scheduler.published) :: during, boundary) ∧
      Waits t (before ++ during) boundary ∧
      (boundary.scheduler.endInterval boundary.now).value = .ok ended ∧
      log = .ofInterval start boundary.now before during t.scheduler.published ended.responses ∧
      next.now = boundary.now ∧
      next.scheduler = { ended with pending := none, responses := [] } := by
  obtain ⟨header, counted, dti⟩ := sound.dti
  simp only [watchInterval, Noted.value_bind, Noted.value_lift, Noted.value_pure, value_tell,
    value_tellAll, ok_bind, bind_eq_ok_iff, Except.ok.injEq, Prod.mk.injEq] at watched
  obtain ⟨start, starts, ⟨before, heard⟩, advanced, _, countedNow, ⟨wakeup, scheduler⟩, started,
    ⟨during, last⟩, changes, rfl, rfl⟩ := watched
  dsimp only at advanced started changes countedNow
  obtain ⟨delivered, _⟩ := watchAdvance_delivers idle.tiled advanced
  have waits := watchAdvance_waits idle.tiled advanced
  have hears := delivered.hears
  have same : heard.beacon.interval - header = heard.scheduler.timing.dti := by
    obtain ⟨_, _, _, kept⟩ := hears.scheduler
    rw [hears.beacon, kept, dti]
  obtain rfl : header = _ := Except.ok.inj (counted.symm.trans (hears.beacon ▸ countedNow))
  obtain ⟨tiled, awaits, timing⟩ := Scheduler.startInterval_begins hears.tiled started
  obtain ⟨air, published⟩ := Scheduler.startInterval_keeps hears.tiled same started
  generalize told : heard.outbox ++
    deliveries heard.observers start (.schedule scheduler.published) = outbox at changes
  have waitsBeacon : Waits heard [] { heard with scheduler, outbox } :=
    .nil tiled (congrArg Airtime.registry air) published
      (Scheduler.startInterval_sameBooks hears.tiled started).responses
  have enough : Scheduler.changesLeft wakeup.change ≤ maxChanges := by
    cases wakeup.change <;> decide
  obtain ⟨boundary, ended, reached, waitsDuring, ends, rfl⟩ :=
    watchChanges_decides (t := { heard with scheduler, outbox }) ⟨tiled, awaits, timing⟩ enough
      changes
  have undecided : t.watchUndecided.value =
      .ok (before ++ .told start (.schedule scheduler.published) :: during, boundary) := by
    simp only [watchUndecided, Noted.value_bind, Noted.value_lift, Noted.value_pure, value_tell,
      starts, advanced, countedNow, started, ok_bind, told, reached]
  rw [published, waits.published] at undecided ⊢
  exact ⟨start, before, heard, during, boundary, ended, starts, advanced, undecided,
    waits.append (waitsBeacon.append waitsDuring), ends, rfl, rfl, rfl⟩

/-- An interval whose queue has been decided on in the airtime that the deletions and the
clean-up leave.  What its beacon carries was published before. -/
structure Decides (t : Timeline) (start stop : Time) (undecided : Log) (cleaned : Scheduler)
    (responses : List AdmissionResponse) (air : Airtime) (log : Log) (next : Timeline) : Prop where
  whole : log = undecided ++ Log.decisions stop responses
  admissions : undecided.admissions = []
  schedules : log.schedules = [(start, t.scheduler.published)]
  registry : cleaned.air.registry =
    (undecided.withdrawals.foldl Registry.erase t.scheduler.air.registry).purge.2
  decided : (Scheduler.decideAll cleaned.policy cleaned.terms stop cleaned.air
    cleaned.queue).value = .ok (responses, air)
  idle : next.Idle
  air : next.scheduler.air = air.announced

theorem watchInterval_decides (sound : t.Sound) (idle : t.Idle)
    (watched : t.watchInterval.value = .ok (log, next)) :
    ∃ start stop undecided cleaned responses air,
      t.intervalStart t.intervals = .ok start ∧
      t.grants.value = (Scheduler.newGrants cleaned.policy cleaned.terms stop cleaned.air
        cleaned.queue).value ∧
      Decides t start stop undecided cleaned responses air log next := by
  obtain ⟨start, before, _, during, boundary, ended, starts, _, reached, waits, ends, rfl, _,
    last⟩ := watchInterval_waits sound idle watched
  obtain ⟨cleaned, responses, air, cleans, registry, decided, tiled, queue, told, marked⟩ :=
    Scheduler.endInterval_decides waits.tiled ends
  rw [waits.responses, idle.responses, List.nil_append] at told
  refine ⟨start, boundary.now, before ++ .told start (.schedule t.scheduler.published) :: during,
    cleaned, responses, air, starts, ?_, ?_, ?_, ?_, ?_, decided, ?_, ?_⟩
  · simp only [grants, Noted.value_bind, reached, ok_bind, cleans]
  · rw [Log.ofInterval, List.append_assoc, List.cons_append, Log.decisions, told]
  · have none := waits.admissions
    rw [Log.admissions_append] at none ⊢
    exact none
  · have none := waits.schedules
    rw [Log.schedules_append, List.append_eq_nil_iff] at none
    rw [Log.ofInterval, Log.schedules_append, none.1, List.nil_append]
    change (start, _) :: Log.schedules (during ++ Log.decisions _ _) = _
    rw [Log.schedules_append, none.2, Log.schedules_decisions]
    rfl
  · rw [registry, waits.registry, Log.withdrawals_append, Log.withdrawals_append]
    rfl
  · refine ⟨?_, ?_, ?_⟩
    · rw [last]
      exact tiled
    · rw [last]
      exact queue
    · rw [last]
  · rw [last]
    exact marked

/-! ## Under one key -/

variable {start stop : Time} {undecided : Log} {cleaned : Scheduler}
  {responses : List AdmissionResponse} {air : Airtime} {key : Allocation.Key}

theorem Decides.under_cleaned
    (decides : Decides t start stop undecided cleaned responses air log next)
    (key : Allocation.Key) :
    cleaned.air.registry.under key =
      ((t.scheduler.air.registry.under key).drop (undecided.withdrawals.count key)).filter
        fun a => !Registry.expired a := by
  rw [decides.registry, Registry.under_purge, Registry.under_eraseAll]

theorem Decides.under_next
    (decides : Decides t start stop undecided cleaned responses air log next)
    (key : Allocation.Key) :
    next.scheduler.air.registry.under key = (air.registry.under key).markAnnounced := by
  rw [decides.air]
  exact Registry.under_markAnnounced key air.registry

theorem Decides.withdrawals_eq
    (decides : Decides t start stop undecided cleaned responses air log next) :
    log.withdrawals = undecided.withdrawals := by
  rw [decides.whole, Log.withdrawals_append]
  rw [Log.withdrawals, Log.withdrawals, Log.handed_decisions]
  exact List.append_nil _

theorem Decides.responses_eq
    (decides : Decides t start stop undecided cleaned responses air log next) :
    log.responses = responses := by
  rw [decides.whole, Log.responses_append, Log.responses_decisions, Log.responses,
    decides.admissions]
  rfl

theorem Decides.length_le
    (decides : Decides t start stop undecided cleaned responses air log next)
    (key : Allocation.Key) :
    (next.scheduler.air.registry.under key).length ≤
      max ((t.scheduler.air.registry.under key).length - log.withdrawals.count key) 1 := by
  have left : (cleaned.air.registry.under key).length ≤
      (t.scheduler.air.registry.under key).length - log.withdrawals.count key := by
    rw [decides.under_cleaned, decides.withdrawals_eq, ← List.length_drop]
    exact List.length_filter_le _ _
  rw [decides.under_next, Registry.markAnnounced, List.length_map]
  exact Nat.le_trans (Scheduler.decideAll_length_le decides.decided) (by omega)

theorem Decides.stays {a : Allocation}
    (decides : Decides t start stop undecided cleaned responses air log next)
    (own : t.scheduler.air.registry.under a.key = [a]) (static : a.isStatic = true)
    (kept : a.key ∉ log.withdrawals) :
    ∃ b, next.scheduler.air.registry.under a.key = [b] ∧ a.Continues b := by
  have single : cleaned.air.registry.under a.key = [a] := by
    rw [decides.under_cleaned, own, ← decides.withdrawals_eq, List.count_eq_zero_of_not_mem kept,
      List.drop_zero]
    exact List.filter_cons_of_pos (by simp [Registry.expired, static])
  obtain ⟨b, registered, continues⟩ := Scheduler.decideAll_continues decides.decided single
  refine ⟨{ b with announced := true }, ?_, continues.trans (.marked b)⟩
  rw [decides.under_next, registered]
  rfl

theorem Decides.vacant
    (decides : Decides t start stop undecided cleaned responses air log next)
    (none : cleaned.air.registry.under key = [])
    (refused : ¬ Scheduler.Accepts key log.responses) :
    next.scheduler.air.registry.under key = [] := by
  rw [decides.responses_eq] at refused
  rw [decides.under_next, Scheduler.decideAll_under_of_refused decides.decided refused, none]
  rfl

end Timeline
end BeaconScheduler
