import BeaconScheduler.Proofs.Beacons
import BeaconScheduler.Proofs.Closing
import BeaconScheduler.Proofs.Delivery

/-!
# How long an allocation is listed

A new grant is listed by the next beacon.  A temporary one has had its turn with that; a static
one is listed by every beacon until an interval hands over its deletion, and still by the beacon
of that interval.  After that no beacon lists its key until a request of the key is accepted
again, apart from the contention periods that fill free slots under a key of their own
(`drive_lists_grants`).  `Tenured` carries this from interval to interval along the log.
-/

set_option autoImplicit false

namespace BeaconScheduler

open Counter

/-! ## Schedules -/

/-- A schedule has the allocation, which may have been shortened. -/
def Allocation.Listed (a : Allocation) (entries : Schedule) : Prop :=
  ∃ b ∈ entries, a.Continues b

/-- Whatever a schedule has under the key fills a free slot. -/
def Allocation.Key.Vacant (key : Allocation.Key) (fillings : List Allocation)
    (entries : Schedule) : Prop :=
  ∀ b ∈ entries, b.key = key → b ∈ fillings

theorem Airtime.key_gapFillings (air : Airtime) :
    ∀ b ∈ air.gapFillings, b.key = ⟨0, Aid.broadcast, Aid.broadcast⟩ := by
  intro b member
  obtain ⟨slot, _, rfl⟩ := List.mem_map.mp member
  rfl

namespace Scheduler

variable {s : Scheduler} {shown : Airtime} {a b : Allocation} {key : Allocation.Key}

theorem Shows.announced (shows : s.Shows shown) : ∀ b ∈ s.air.registry, b.announced = true := by
  rw [shows.air]
  intro b member
  obtain ⟨c, _, rfl⟩ := List.mem_map.mp member
  rfl

theorem Shows.under (shows : s.Shows shown) (key : Allocation.Key) :
    s.air.registry.under key = (shown.registry.under key).markAnnounced := by
  rw [shows.air]
  exact Registry.under_markAnnounced key shown.registry

theorem Shows.listed (shows : s.Shows shown) (registered : s.air.registry.under a.key = [b])
    (continues : a.Continues b) : a.Listed s.published := by
  rw [shows.under] at registered
  obtain ⟨c, own, rfl⟩ := List.map_eq_singleton_iff.mp registered
  have member : c ∈ shown.registry.under a.key := by
    rw [own]
    exact List.mem_singleton_self c
  refine ⟨c, ?_, continues.same, continues.shorter⟩
  rw [shows.published]
  exact shown.schedule_perm.mem_iff.mpr
    (List.mem_append_left _ (Registry.mem_under_iff.mp member).1)

theorem Shows.vacant (shows : s.Shows shown) (none : s.air.registry.under key = []) :
    key.Vacant s.air.gapFillings s.published := by
  rw [shows.under] at none
  rw [shows.published, shows.air]
  intro b member own
  rcases List.mem_append.mp (shown.schedule_perm.mem_iff.mp member) with registered | filling
  · have listed := Registry.mem_under_iff.mpr ⟨registered, own⟩
    rw [List.map_eq_nil_iff.mp none] at listed
    cases listed
  · exact filling

end Scheduler

namespace Timeline

variable {t next : Timeline} {log past : Log} {a : Allocation}

/-! ## Watched runs -/

def Action.trains : Action → Bool
  | .train .. => true
  | _ => false

def watchAct (t : Timeline) : Action → Noted (Log × Timeline)
  | .runInterval => t.watchInterval
  | action => do return ([], ← t.act action)

def watchAll (t : Timeline) : List Action → Noted (Log × Timeline)
  | [] => return ([], t)
  | action :: rest => do
      let (log, t) ← t.watchAct action
      let (others, t) ← t.watchAll rest
      return (log ++ others, t)

theorem watchAct_eq (t : Timeline) (action : Action) :
    t.act action = Prod.snd <$> t.watchAct action := by
  cases action with
  | runInterval => exact watchInterval_eq t
  | register observer => simp [watchAct]
  | submit time frame => simp [watchAct]
  | train peer duration beamforming => simp [watchAct]

theorem watchAll_eq (t : Timeline) (actions : List Action) :
    t.actAll actions = Prod.snd <$> t.watchAll actions := by
  induction actions generalizing t with
  | nil => simp [actAll, watchAll]
  | cons action rest ih => simp [actAll, watchAll, watchAct_eq, ih]

theorem watchAct_eq_ok {action : Action} (other : action ≠ .runInterval)
    (watched : (t.watchAct action).value = .ok (log, next)) :
    log = [] ∧ (t.act action).value = .ok next := by
  have plain : t.watchAct action = (do return ([], ← t.act action)) := by
    cases action with
    | runInterval => exact absurd rfl other
    | _ => rfl
  simp only [plain, Noted.value_bind, Noted.value_pure, bind_eq_ok_iff, Except.ok.injEq,
    Prod.mk.injEq] at watched
  obtain ⟨_, acted, rfl, rfl⟩ := watched
  exact ⟨rfl, acted⟩

structure Current (t : Timeline) : Prop where
  sound : t.Sound
  idle : t.Idle
  shows : ∃ shown, t.scheduler.Shows shown

theorem act_scheduler {action : Action} (untrained : action.trains = false)
    (other : action ≠ .runInterval) (acted : (t.act action).value = .ok next) :
    next.scheduler = t.scheduler := by
  cases action with
  | register observer =>
      obtain ⟨_, registered⟩ := Scheduler.snd_eq_ok acted
      simp only [Timeline.register, Noted.value_bind, Noted.value_note, ok_bind,
        Noted.value_pure] at registered
      obtain ⟨_, rfl⟩ := Prod.mk.inj (Except.ok.inj registered)
      rfl
  | submit time frame =>
      obtain rfl := submit_eq_ok acted
      rfl
  | train peer duration beamforming => cases untrained
  | runInterval => exact absurd rfl other

theorem Current.run (sound : t.Sound) (idle : t.Idle)
    (watched : t.watchInterval.value = .ok (log, next)) : next.Current := by
  obtain ⟨_, _, _, _, _, _, _, _, decides⟩ := watchInterval_decides sound idle watched
  have ran : t.runInterval.value = .ok next := by
    rw [watchInterval_eq, Noted.value_map, watched]
    rfl
  obtain ⟨soundNext, shows⟩ := runInterval_shows sound ran
  exact ⟨soundNext, decides.idle, shows⟩

/-! ## The life of a grant -/

/-- What has become of an allocation since it was granted: in the log of the intervals since
then, and in the registry. -/
structure Tenured (a : Allocation) (past : Log) (intervals : Nat) (t : Timeline) : Prop where
  single : (t.scheduler.air.registry.under a.key).length ≤ 1
  held : intervals = 0 ∨ (a.isStatic = true ∧ a.key ∉ past.withdrawals) →
    ∃ b, t.scheduler.air.registry.under a.key = [b] ∧ a.Continues b
  expired : a.isStatic = false → 0 < intervals → ¬ Scheduler.Accepts a.key past.responses →
    t.scheduler.air.registry.under a.key = []
  deleted : ∀ earlier handover later, past = earlier ++ .handed handover :: later →
    handover.withdrawn? = some a.key → ¬ Scheduler.Accepts a.key (Log.responses later) →
    t.scheduler.air.registry.under a.key = []

theorem Tenured.granted {b : Allocation}
    (registered : t.scheduler.air.registry.under a.key = [b]) (continues : a.Continues b) :
    Tenured a [] 0 t := by
  refine ⟨?_, fun _ => ⟨b, registered, continues⟩, fun _ none => absurd none (Nat.lt_irrefl 0),
    ?_⟩
  · rw [registered]
    exact Nat.le_refl 1
  · intro earlier handover later split
    have empty := congrArg List.length split
    simp at empty

variable {start stop : Time} {undecided : Log} {cleaned : Scheduler}
  {responses : List AdmissionResponse} {air : Airtime} {key : Allocation.Key}

theorem Log.split_append {more earlier later : Log} {e : Happening}
    (split : log ++ more = earlier ++ e :: later) :
    (∃ before, earlier = log ++ before ∧ more = before ++ e :: later) ∨
      ∃ rest, log = earlier ++ e :: rest ∧ later = rest ++ more := by
  rcases List.append_eq_append_iff.mp split with ⟨before, first, second⟩ | ⟨since, first, behind⟩
  · exact Or.inl ⟨before, first, second⟩
  · obtain _ | ⟨_, rest⟩ := since
    · rw [List.append_nil] at first
      exact Or.inl ⟨[], by rw [first, List.append_nil], behind.symm⟩
    · rw [List.cons_append] at behind
      obtain ⟨rfl, rfl⟩ := List.cons.inj behind
      exact Or.inr ⟨rest, first, rfl⟩

theorem Log.count_withdrawals {handover : Handover} (withdrawn : handover.withdrawn? = some key)
    (earlier later : Log) :
    (withdrawals (earlier ++ .handed handover :: later)).count key =
      earlier.withdrawals.count key + (later.withdrawals.count key + 1) := by
  have own : withdrawals (.handed handover :: later) = key :: later.withdrawals :=
    List.filterMap_cons_some withdrawn
  rw [withdrawals_append, List.count_append, own, List.count_cons_self]

theorem Decides.responses_later {earlier later : Log} {handover : Handover}
    (decides : Decides t start stop undecided cleaned responses air log next)
    (split : log = earlier ++ .handed handover :: later) :
    Log.responses later = log.responses := by
  rcases Log.split_append (decides.whole.symm.trans split) with ⟨_, _, told⟩ | ⟨rest, whole, rfl⟩
  · have handed := Log.handed_decisions stop responses
    rw [told, Log.handed_append] at handed
    cases (List.append_eq_nil_iff.mp handed).2
  · have admissions := decides.admissions
    rw [whole, Log.admissions_append, List.append_eq_nil_iff] at admissions
    have unanswered : Log.admissions rest = [] := admissions.2
    rw [decides.responses_eq, Log.responses_append, Log.responses_decisions, Log.responses,
      unanswered]
    rfl

theorem Decides.deletes
    (decides : Decides t start stop undecided cleaned responses air log next)
    (enough : (t.scheduler.air.registry.under key).length ≤ log.withdrawals.count key)
    (refused : ¬ Scheduler.Accepts key log.responses) :
    next.scheduler.air.registry.under key = [] := by
  refine decides.vacant ?_ refused
  rw [decides.withdrawals_eq] at enough
  rw [decides.under_cleaned, List.drop_eq_nil_of_le enough]
  rfl

theorem Decides.expires
    (decides : Decides t start stop undecided cleaned responses air log next)
    (expired : ∀ b ∈ t.scheduler.air.registry.under key, Registry.expired b = true)
    (refused : ¬ Scheduler.Accepts key log.responses) :
    next.scheduler.air.registry.under key = [] := by
  refine decides.vacant ?_ refused
  rw [decides.under_cleaned, List.filter_eq_nil_iff]
  intro b member
  simp [expired b (List.mem_of_mem_drop member)]

theorem Tenured.run {intervals : Nat} (tenured : Tenured a past intervals t) (current : t.Current)
    (decides : Decides t start stop undecided cleaned responses air log next) :
    Tenured a (past ++ log) (intervals + 1) next := by
  have single := tenured.single
  refine ⟨Nat.le_trans (decides.length_le a.key) (by omega), ?_, ?_, ?_⟩
  · rintro (none | ⟨static, kept⟩)
    · cases none
    rw [Log.withdrawals_append, List.mem_append, not_or] at kept
    obtain ⟨b, registered, continues⟩ := tenured.held (Or.inr ⟨static, kept.1⟩)
    have own := continues.key
    rw [← own] at registered kept ⊢
    obtain ⟨c, registeredNext, further⟩ :=
      decides.stays registered (continues.isStatic.trans static) kept.2
    exact ⟨c, registeredNext, continues.trans further⟩
  · intro temporary _ refused
    rw [Log.responses_append, Scheduler.accepts_append_iff, not_or] at refused
    obtain ⟨refusedPast, refusedNow⟩ := refused
    refine decides.expires (fun b member => ?_) refusedNow
    rcases Nat.eq_zero_or_pos intervals with none | some
    · obtain ⟨c, registered, continues⟩ := tenured.held (Or.inl none)
      obtain ⟨shown, shows⟩ := current.shows
      have carried := shows.announced b (Registry.mem_under_iff.mp member).1
      rw [registered, List.mem_singleton] at member
      subst member
      simp [Registry.expired, carried, continues.isStatic, temporary]
    · rw [tenured.expired temporary some refusedPast] at member
      cases member
  · -- The deletion is handed over in this interval, or earlier on.
    intro earlier handover later split withdrawn refused
    rcases Log.split_append split with ⟨before, _, splitNow⟩ | ⟨rest, splitPast, rfl⟩
    · rw [decides.responses_later splitNow] at refused
      have counted := Log.count_withdrawals withdrawn before later
      rw [← splitNow] at counted
      exact decides.deletes (by omega) refused
    · rw [Log.responses_append, Scheduler.accepts_append_iff, not_or] at refused
      obtain ⟨refusedPast, refusedNow⟩ := refused
      have gone := tenured.deleted earlier handover rest splitPast withdrawn refusedPast
      refine decides.expires (fun b member => ?_) refusedNow
      rw [gone] at member
      cases member

theorem Tenured.keep {intervals : Nat} (tenured : Tenured a past intervals t)
    (same : next.scheduler = t.scheduler) : Tenured a past intervals next := by
  obtain ⟨single, held, expired, deleted⟩ := tenured
  rw [← same] at single held expired deleted
  exact ⟨single, held, expired, deleted⟩

theorem Current.keep {action : Action} (current : t.Current) (other : action ≠ .runInterval)
    (acted : (t.act action).value = .ok next) (same : next.scheduler = t.scheduler) :
    next.Current := by
  obtain ⟨sound, _⟩ := act_interim current.sound other acted
  have idle := current.idle
  refine ⟨sound, ⟨sound.tiled, ?_, ?_⟩, ?_⟩
  · rw [same]
    exact idle.queue
  · rw [same]
    exact idle.responses
  · rw [same]
    exact current.shows

theorem Current.watchAll {motive : Log → Nat → Timeline → Prop}
    (runs : ∀ {past intervals t log next}, t.Current → motive past intervals t →
      t.watchInterval.value = .ok (log, next) → motive (past ++ log) (intervals + 1) next)
    (keeps : ∀ {past intervals t next}, next.scheduler = t.scheduler →
      motive past intervals t → motive past intervals next)
    (intervals : Nat) {actions : List Action}
    (untrained : ∀ action ∈ actions, action.trains = false) (current : t.Current)
    (holds : motive past intervals t) (watched : (t.watchAll actions).value = .ok (log, next)) :
    next.Current ∧ motive (past ++ log) (intervals + actions.count .runInterval) next := by
  induction actions generalizing t past intervals log with
  | nil =>
      obtain ⟨rfl, rfl⟩ := Prod.mk.inj (Except.ok.inj watched)
      rw [List.append_nil]
      exact ⟨current, holds⟩
  | cons action rest ih =>
      obtain ⟨own, others⟩ := List.forall_mem_cons.mp untrained
      simp only [Timeline.watchAll, Noted.value_bind, bind_eq_ok_iff, Noted.value_pure,
        Except.ok.injEq, Prod.mk.injEq] at watched
      obtain ⟨⟨first, middle⟩, acted, ⟨later, _⟩, watchedRest, rfl, rfl⟩ := watched
      by_cases interval : action = .runInterval
      · subst interval
        rw [List.count_cons_self, Nat.add_comm (rest.count _), ← Nat.add_assoc,
          ← List.append_assoc]
        exact ih (intervals + 1) others (Current.run current.sound current.idle acted)
          (runs current holds acted) watchedRest
      · obtain ⟨rfl, actedPlain⟩ := watchAct_eq_ok interval acted
        have same := act_scheduler own interval actedPlain
        rw [List.count_cons_of_ne interval, List.nil_append]
        exact ih intervals others (current.keep interval actedPlain same) (keeps same holds)
          watchedRest

theorem Tenured.watchAll {intervals : Nat} {actions : List Action}
    (untrained : ∀ action ∈ actions, action.trains = false) (current : t.Current)
    (tenured : Tenured a past intervals t)
    (watched : (t.watchAll actions).value = .ok (log, next)) :
    next.Current ∧ Tenured a (past ++ log) (intervals + actions.count .runInterval) next := by
  refine Current.watchAll ?_ (fun same tenured => tenured.keep same) intervals untrained current
    tenured watched
  intro past intervals t log next current tenured watched
  obtain ⟨_, _, _, _, _, _, _, _, decides⟩ :=
    watchInterval_decides current.sound current.idle watched
  exact tenured.run current decides

/-! ## Runs -/

/-- What a schedule says of an allocation after the log of the intervals since its grant. -/
structure Tenure (a : Allocation) (past : Log) (intervals : Nat) (fillings : List Allocation)
    (entries : Schedule) : Prop where
  next : intervals = 0 → a.Listed entries
  temporary : a.isStatic = false → 0 < intervals → ¬ Scheduler.Accepts a.key past.responses →
    a.key.Vacant fillings entries
  static : a.isStatic = true → a.key ∉ past.withdrawals → a.Listed entries
  deleted : ∀ earlier handover later, past = earlier ++ .handed handover :: later →
    handover.withdrawn? = some a.key → ¬ Scheduler.Accepts a.key (Log.responses later) →
    a.key.Vacant fillings entries

theorem Tenured.tenure {intervals : Nat} (tenured : Tenured a past intervals t)
    (current : t.Current) :
    Tenure a past intervals t.scheduler.air.gapFillings t.scheduler.published := by
  obtain ⟨shown, shows⟩ := current.shows
  have listed : (∃ b, t.scheduler.air.registry.under a.key = [b] ∧ a.Continues b) →
      a.Listed t.scheduler.published := fun ⟨_, registered, continues⟩ =>
    shows.listed registered continues
  exact ⟨fun none => listed (tenured.held (Or.inl none)),
    fun temporary some refused => shows.vacant (tenured.expired temporary some refused),
    fun static kept => listed (tenured.held (Or.inr ⟨static, kept⟩)),
    fun earlier handover later split withdrawn refused =>
      shows.vacant (tenured.deleted earlier handover later split withdrawn refused)⟩

theorem watchInterval_grants (sound : t.Sound) (idle : t.Idle)
    (watched : t.watchInterval.value = .ok (log, next)) :
    ∃ granted, t.grants.value = .ok granted ∧ ∀ a ∈ granted,
      (∃ r ∈ log.responses, r.key = a.key ∧ r.outcome = .granted a) ∧ Tenured a [] 0 next := by
  obtain ⟨_, _, _, _, _, _, _, same, decides⟩ := watchInterval_decides sound idle watched
  obtain ⟨granted, found, each⟩ := Scheduler.newGrants_of_decided decides.decided
  refine ⟨granted, same.trans found, fun a member => ?_⟩
  obtain ⟨answered, b, registered, continues⟩ := each a member
  rw [decides.responses_eq]
  refine ⟨answered, .granted (b := { b with announced := true }) ?_
    (continues.trans (.marked b))⟩
  rw [decides.under_next, registered]
  rfl

variable {config : Config} {before later : List Action} {begun ended : Timeline}
  {during : Log} {granted : List Allocation}

/-- In every run: what an interval grants anew is listed by the next beacon.  A temporary
allocation is listed by no other beacon, a static one by every beacon up to that of the interval
that hands over its deletion, and by none after that; both until a request of the key is
accepted again, and apart from contention periods that fill free slots. -/
theorem drive_lists_grants (drove : (drive config before).value = .ok begun)
    (watched : begun.watchInterval.value = .ok (log, ended))
    (grants : begun.grants.value = .ok granted) (new : a ∈ granted)
    (untrained : ∀ action ∈ later, action.trains = false)
    (continued : (ended.watchAll later).value = .ok (past, t))
    (heard : t.watchInterval.value = .ok (during, next)) :
    (drive config (before ++ .runInterval :: later)).value = .ok t ∧
      t.intervals = begun.intervals + 1 + later.count .runInterval ∧
      (∃ r ∈ log.responses, r.key = a.key ∧ r.outcome = .granted a) ∧
      during.schedules = [(t.intervals * config.beacon.interval, t.scheduler.published)] ∧
      Tells t during next ∧
      (∀ b ∈ t.scheduler.air.gapFillings, b.key = ⟨0, Aid.broadcast, Aid.broadcast⟩) ∧
      Tenure a past (later.count .runInterval) t.scheduler.air.gapFillings
        t.scheduler.published := by
  obtain ⟨_, between⟩ := drive_between drove
  obtain ⟨sound, _⟩ := drive_origin drove
  obtain ⟨_, same, each⟩ := watchInterval_grants sound between.idle watched
  obtain rfl := Except.ok.inj (grants.symm.trans same)
  obtain ⟨answered, start⟩ := each a new
  obtain ⟨current, tenured⟩ :=
    start.watchAll untrained (Current.run sound between.idle watched) continued
  have whole : (drive config (before ++ .runInterval :: later)).value = .ok t := by
    simp only [drive_append, actAll, act, Noted.value_bind, drove, ok_bind, watchInterval_eq,
      watchAll_eq, Noted.value_map, watched, continued, Except.map]
  obtain ⟨_, betweenNow⟩ := drive_between whole
  obtain ⟨_, _, _, _, _, _, starts, _, decides⟩ :=
    watchInterval_decides current.sound current.idle heard
  obtain ⟨_, rfl⟩ := mul_eq_ok_iff.mp starts
  rw [List.nil_append, Nat.zero_add] at tenured
  refine ⟨whole, ?_, answered, ?_, watchInterval_tells heard,
    t.scheduler.air.key_gapFillings, tenured.tenure current⟩
  · rw [betweenNow.intervals, between.intervals, List.count_append, List.count_cons_self]
    omega
  · rw [decides.schedules, betweenNow.configured]

def twoRequests : List Action :=
  [.submit 50000 (.request 7 ⟨3, .servicePeriod, true, 4, .asynchronous, 2000, 2000, 0, false⟩),
    .submit 50000 (.request 8 ⟨3, .servicePeriod, false, 4, .asynchronous, 1000, 1000, 0, false⟩)]

def staticBlock : Allocation :=
  .single ⟨3, 7, 4⟩ .servicePeriod true 0 2000

def temporaryBlock : Allocation :=
  .single ⟨3, 8, 4⟩ .servicePeriod false 2010 1000

def deletion : Action :=
  .submit 150000 (.deletion ⟨3, 7, 4⟩)

theorem twoRequests_listed :
    ∃ (t last : Timeline) (past : Log) (fillings laterFillings : List Allocation),
      (drive {} (twoRequests ++ [.runInterval, deletion])).value = .ok t ∧
      (drive {} (twoRequests ++ [.runInterval, deletion, .runInterval])).value = .ok last ∧
      Tenure staticBlock [] 0 fillings t.scheduler.published ∧
      Tenure temporaryBlock [] 0 fillings t.scheduler.published ∧
      t.scheduler.published.map (·.key) = [⟨3, 7, 4⟩, ⟨3, 8, 4⟩, ⟨0, 255, 255⟩] ∧
      past.withdrawals = [⟨3, 7, 4⟩] ∧ past.responses = [] ∧
      Tenure staticBlock past 1 laterFillings last.scheduler.published ∧
      Tenure temporaryBlock past 1 laterFillings last.scheduler.published ∧
      last.scheduler.published.map (·.key) = [⟨0, 255, 255⟩] := by
  obtain ⟨⟨begun, ⟨log, ended⟩, granted, ⟨none, t⟩, ⟨during, next⟩, ⟨past, last⟩, ⟨later, closed⟩⟩,
    ran, computed⟩ := Scheduler.exists_ok
    (x := (do
      let begun ← drive {} twoRequests
      let watched ← begun.watchInterval
      let granted ← begun.grants
      let soon ← watched.2.watchAll [deletion]
      let heard ← soon.2.watchInterval
      let past ← watched.2.watchAll [deletion, .runInterval]
      return (begun, watched, granted, soon, heard, past, ← past.2.watchInterval) :
        Noted _).value)
    (f := fun (_, _, granted, soon, _, past, _) =>
      decide (granted = [staticBlock, temporaryBlock] ∧ soon.1 = [] ∧
        soon.2.scheduler.published.map (·.key) = [⟨3, 7, 4⟩, ⟨3, 8, 4⟩, ⟨0, 255, 255⟩] ∧
        past.1.withdrawals = [⟨3, 7, 4⟩] ∧ past.1.responses = [] ∧
        past.2.scheduler.published.map (·.key) = [⟨0, 255, 255⟩]))
    (b := true) (by decide +kernel)
  simp only [Noted.value_bind, Noted.value_pure, bind_eq_ok_iff, Except.ok.injEq,
    Prod.mk.injEq, decide_eq_true_eq] at ran computed
  obtain ⟨_, drove, _, watched, _, grants, _, continued, _, heard, _, further, _, heardLater,
    rfl, ⟨rfl, rfl⟩, rfl, ⟨rfl, rfl⟩, ⟨rfl, rfl⟩, ⟨rfl, rfl⟩, ⟨rfl, rfl⟩⟩ := ran
  obtain ⟨rfl, rfl, listed, withdrawn, unanswered, listedLater⟩ := computed
  have static : staticBlock ∈ [staticBlock, temporaryBlock] := List.mem_cons_self
  have temporary : temporaryBlock ∈ [staticBlock, temporaryBlock] :=
    List.mem_cons_of_mem _ List.mem_cons_self
  have untrained : ∀ action ∈ [deletion, .runInterval], action.trains = false := by
    simp [deletion, Action.trains]
  have soon : ∀ action ∈ [deletion], action.trains = false := by
    simp [deletion, Action.trains]
  obtain ⟨drives, _, _, _, _, _, first⟩ :=
    drive_lists_grants drove watched grants static soon continued heard
  obtain ⟨_, _, _, _, _, _, second⟩ :=
    drive_lists_grants drove watched grants temporary soon continued heard
  obtain ⟨drivesOn, _, _, _, _, _, third⟩ :=
    drive_lists_grants drove watched grants static untrained further heardLater
  obtain ⟨_, _, _, _, _, _, fourth⟩ :=
    drive_lists_grants drove watched grants temporary untrained further heardLater
  exact ⟨t, last, past, _, _, drives, drivesOn, first, second, listed, withdrawn, unanswered,
    third, fourth, listedLater⟩

/-- A request for a temporary contention period under the key of those that fill free slots. -/
def broadcastRequest : Action :=
  .submit 50000 (.request 255 ⟨0, .cbap, false, 255, .asynchronous, 2000, 2000, 0, false⟩)

def broadcastBlock : Allocation :=
  .single ⟨0, 255, 255⟩ .cbap false 0 2000

theorem broadcastRequest_listed :
    ∃ (begun ended t next : Timeline) (log past during : Log),
      (drive {} [broadcastRequest]).value = .ok begun ∧
      begun.watchInterval.value = .ok (log, ended) ∧
      begun.grants.value = .ok [broadcastBlock] ∧ broadcastBlock.isStatic = false ∧
      (ended.watchAll [.runInterval]).value = .ok (past, t) ∧ past.responses = [] ∧
      t.watchInterval.value = .ok (during, next) ∧
      during.schedules.map (fun told => told.2.map fun b => (b.key, b.start, b.blockDuration)) =
        [[(broadcastBlock.key, 0, 101400)]] := by
  obtain ⟨⟨begun, ⟨log, ended⟩, granted, ⟨past, t⟩, ⟨during, next⟩⟩, ran, computed⟩ :=
    Scheduler.exists_ok
    (x := (do
      let begun ← drive {} [broadcastRequest]
      let watched ← begun.watchInterval
      let granted ← begun.grants
      let past ← watched.2.watchAll [.runInterval]
      return (begun, watched, granted, past, ← past.2.watchInterval) : Noted _).value)
    (f := fun (_, _, granted, past, during) =>
      decide (granted = [broadcastBlock] ∧ past.1.responses = [] ∧
        during.1.schedules.map (fun told => told.2.map fun b =>
          (b.key, b.start, b.blockDuration)) = [[(broadcastBlock.key, 0, 101400)]]))
    (b := true) (by decide +kernel)
  simp only [Noted.value_bind, Noted.value_pure, bind_eq_ok_iff, Except.ok.injEq,
    Prod.mk.injEq, decide_eq_true_eq] at ran computed
  obtain ⟨_, drove, _, watched, _, grants, _, continued, _, heard, rfl, ⟨rfl, rfl⟩, rfl,
    ⟨rfl, rfl⟩, ⟨rfl, rfl⟩⟩ := ran
  obtain ⟨rfl, unanswered, listed⟩ := computed
  exact ⟨_, _, _, _, _, _, _, drove, watched, grants, rfl, continued, unanswered, heard, listed⟩

end Timeline
end BeaconScheduler
