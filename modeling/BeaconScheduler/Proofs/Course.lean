import BeaconScheduler.Proofs.Boundary
import BeaconScheduler.Proofs.Phases

/-!
# The course of an interval

The loop of an interval has no bound of its own: it ends because every change that it makes is
the pending one, on time, in whatever state the scheduler was left.  `Loops` is that loop.  The
times that the scheduler adds up from change to change are those of the configured timing, so
an interval ends exactly where the next one starts (`runInterval_ends_on_time`).  Only the
decisions at its end can keep it from ending.
-/

set_option autoImplicit false

namespace BeaconScheduler

open Counter

/-! ## The configured timing -/

namespace Config.Beacon

def changes (beacon : Beacon) (header : Nat) (start : Time) : List Wakeup :=
  if 0 < beacon.announcement then
    [⟨start + (header - beacon.announcement), .announcementStart⟩,
      ⟨start + header, .dataTransferStart⟩, ⟨start + beacon.interval, .intervalEnd⟩]
  else
    [⟨start + header, .dataTransferStart⟩, ⟨start + beacon.interval, .intervalEnd⟩]

theorem length_changes (beacon : Beacon) (header : Nat) (start : Time) :
    (beacon.changes header start).length = if beacon.announcement = 0 then 2 else 3 := by
  by_cases announces : 0 < beacon.announcement
  · rw [changes, if_pos announces, if_neg (Nat.ne_of_gt announces)]
    rfl
  · rw [changes, if_neg announces, if_pos (Nat.eq_zero_of_not_pos announces)]
    rfl

def initialTiming (beacon : Beacon) (header : Nat) (start : Time) : Timing where
  interval := beacon.interval
  header := header
  announcement := beacon.announcement
  dti := beacon.interval - header
  start := start
  announcementStart := none
  dataTransferStart := none

def finalTiming (beacon : Beacon) (header : Nat) (start : Time) : Timing :=
  { beacon.initialTiming header start with
    announcementStart :=
      if 0 < beacon.announcement then some (start + (header - beacon.announcement)) else none
    dataTransferStart := some (start + header) }

/-- The lengths of the parts of a beacon fit their counters and the interval. -/
structure Regular (beacon : Beacon) (header : Nat) : Prop where
  counted : beacon.header = .ok header
  announcement : beacon.announcement ≤ header
  header : header < beacon.interval

end Config.Beacon

theorem Config.regular {config : Config} {header : Nat} (valid : config.require = .ok ())
    (counted : config.beacon.header = .ok header) : config.beacon.Regular header := by
  have guard := guard_lt_dti valid counted
  refine ⟨counted, ?_, by omega⟩
  simp only [Beacon.header, bind_eq_ok_iff, add_eq_ok_iff] at counted
  obtain ⟨_, _, _, rfl⟩ := counted
  exact Nat.le_add_left _ _

namespace Timing

/-- The change that comes after one that is made on time. -/
def following (timing : Timing) (made : Wakeup) : Option Wakeup :=
  match made.change with
  | .announcementStart => some ⟨made.time + timing.announcement, .dataTransferStart⟩
  | .dataTransferStart => some ⟨made.time + timing.dti, .intervalEnd⟩
  | .intervalEnd => none

def stamped (timing : Timing) (made : Wakeup) : Timing :=
  match made.change with
  | .announcementStart => { timing with announcementStart := some made.time }
  | .dataTransferStart => { timing with dataTransferStart := some made.time }
  | .intervalEnd => timing

end Timing

theorem Registry.splitBeyond_ends {registry : Registry} {guard : Nat} (dti : Nat)
    (fits : ∀ a ∈ registry, a.Fits guard) : Ends (Registry.splitBeyond dti guard registry) := by
  induction registry with
  | nil => exact ends_ok _
  | cons a rest ih =>
      obtain ⟨own, others⟩ := List.forall_mem_cons.mp fits
      obtain ⟨split, splits⟩ := ih others
      have occupied := Allocation.occupied_eq_ok_iff.mpr ⟨rfl, own⟩
      simp only [Registry.splitBeyond, Registry.exceeds, occupied, splits, ok_bind, pure_bind]
      exact ends_pure _

namespace Scheduler

variable {s next : Scheduler} {now : Time} {wakeup follows : Wakeup}

/-! ## Deletions and starts have a result -/

theorem delete_ends (tiled : s.Tiled) (now : Time) (key : Allocation.Key) :
    ∃ outcome air statistics,
      (s.delete now key).value = .ok (⟨key, outcome, now⟩, { s with air, statistics }) ∧
        air.Tiled s.limits.guard s.timing.dti := by
  unfold delete
  cases found : s.air.registry.find? key with
  | none => exact ⟨.notFound, s.air, s.statistics, rfl, tiled⟩
  | some a =>
      obtain ⟨slots, given, tilingRest⟩ := (tiled.owes found).giveBack s.terms
        { s.air with registry := s.air.registry.erase key }
      refine ⟨.found, ⟨s.air.registry.erase key, slots⟩,
        { s.statistics with deleted := s.statistics.deleted + 1 }, ?_, tilingRest⟩
      simp only [Noted.value_bind, Noted.value_note, Noted.value_noteAt, ok_bind, given,
        Noted.value_pure]

theorem adjust_ends {former dti : Nat} (now : Time) (tiled : s.air.Tiled s.limits.guard former)
    (length : s.timing.dti = dti) (small : dti < 2 ^ 32) : Ends (s.adjust now dti).value := by
  obtain ⟨⟨dropped, kept⟩, split⟩ := Registry.splitBeyond_ends dti tiled.fits
  obtain ⟨perm, inside⟩ := Registry.splitBeyond_eq_ok split
  have tiling := (Tiling.perm tiled perm).complement inside
  have occupied := Registry.occupied_eq_ok_iff.mpr ⟨rfl, tiling.fits⟩
  simp only [adjust, Noted.value_bind, Noted.value_lift, value_noteDropped, split, occupied,
    ok_bind]
  apply refresh_ends
  · rw [Tiled, length]
    exact tiling
  · rw [length]
    exact small

theorem startInterval_ends {interval header announcement : Nat} (coordinator : Aid)
    (tiled : s.Tiled) (small : interval - header < 2 ^ 32)
    (first : firstWakeup now header announcement = .ok wakeup) :
    ∃ next, (s.startInterval now coordinator interval header announcement).value =
      .ok (wakeup, next) := by
  rw [value_startInterval, first]
  by_cases same : interval - header = s.air.slots.dti
  · rw [if_pos same]
    exact ⟨_, rfl⟩
  · rw [if_neg same]
    have adjusts : Ends ((s.begun now coordinator interval header announcement).adjust now
        (interval - header)).value := adjust_ends now tiled rfl small
    obtain ⟨current, adjusted⟩ := adjusts
    rw [adjusted]
    exact ⟨_, rfl⟩

theorem startInterval_begins {coordinator : Aid} {interval header announcement : Nat}
    (tiled : s.Tiled)
    (started : (s.startInterval now coordinator interval header announcement).value =
      .ok (wakeup, next)) :
    next.Tiled ∧ next.Awaits wakeup ∧
      next.timing = ⟨interval, header, announcement, interval - header, now, none, none⟩ := by
  refine ⟨(startInterval_step tiled started).tiled, startInterval_awaits tiled started, ?_⟩
  rcases startInterval_eq_ok tiled started with ⟨_, rfl⟩ | ⟨_, _, _, rfl⟩
  · rfl
  · rfl

/-! ## Phase changes that are due -/

theorem Awaits.value_handle (awaits : s.Awaits wakeup) :
    (s.handle wakeup.time wakeup.change).value =
      (s.makeChange wakeup.time wakeup.change).value := by
  rw [Scheduler.value_handle, if_pos]
  exact ⟨⟨wakeup, awaits.pending, rfl, Nat.le_refl _⟩, awaits.allowed⟩

theorem makeChange_follows_iff {result : Option Wakeup}
    (follow : s.timing.following wakeup = some follows) :
    (s.makeChange wakeup.time wakeup.change).value = .ok (result, next) ↔
      follows.time < 2 ^ 64 ∧ result = some follows ∧
        next = { s with
          phase := target wakeup.change
          timing := s.timing.stamped wakeup
          pending := some follows } := by
  obtain ⟨time, change⟩ := wakeup
  cases change with
  | announcementStart =>
      obtain rfl := Option.some.inj follow
      simp only [value_startAnnouncement, Time.after, bind_eq_ok_iff, add_eq_ok_iff,
        Except.ok.injEq, Prod.mk.injEq]
      constructor
      · rintro ⟨_, ⟨counted, rfl⟩, rfl, rfl⟩
        exact ⟨counted, rfl, rfl⟩
      · rintro ⟨counted, rfl, rfl⟩
        exact ⟨_, ⟨counted, rfl⟩, rfl, rfl⟩
  | dataTransferStart =>
      obtain rfl := Option.some.inj follow
      simp only [value_startDataTransfer, Time.after, bind_eq_ok_iff, add_eq_ok_iff,
        Except.ok.injEq, Prod.mk.injEq]
      constructor
      · rintro ⟨_, ⟨counted, rfl⟩, rfl, rfl⟩
        exact ⟨counted, rfl, rfl⟩
      · rintro ⟨counted, rfl, rfl⟩
        exact ⟨_, ⟨counted, rfl⟩, rfl, rfl⟩
  | intervalEnd => cases follow

theorem target_allows {timing : Timing} (follow : timing.following wakeup = some follows) :
    (target wakeup.change).allows follows.change = true := by
  obtain ⟨time, change⟩ := wakeup
  cases change with
  | announcementStart =>
      obtain rfl := Option.some.inj follow
      rfl
  | dataTransferStart =>
      obtain rfl := Option.some.inj follow
      rfl
  | intervalEnd => cases follow

theorem intervalEnd_ends_iff {now : Time} (tiled : s.Tiled) (small : s.timing.dti < 2 ^ 32)
    {cleaned : Scheduler} (cleans : (s.cleanUp now).value = .ok cleaned) :
    Ends (s.makeChange now .intervalEnd).value ↔
      Ends (decideAll s.policy s.terms now cleaned.air s.queue).value := by
  obtain ⟨air, rfl, _, tiledCleaned⟩ := cleanUp_eq_ok tiled cleans
  have fits : Ends (decideAll s.policy s.terms now air s.queue).value ↔
      QueueFits s.policy s.terms now air s.queue := decideAll_ends_iff tiledCleaned small
  rw [fits, ← endInterval_ends_iff tiled small cleans]
  simp only [makeChange, Noted.value_bind, Noted.value_pure, ends_bind_iff]
  constructor
  · rintro ⟨ended, ends, _⟩
    exact ⟨ended, ends⟩
  · rintro ⟨ended, ends⟩
    exact ⟨ended, ends, ends_ok _⟩

theorem intervalEnd_eq_ok {now : Time} {result : Option Wakeup} (tiled : s.Tiled)
    (made : (s.makeChange now .intervalEnd).value = .ok (result, next)) :
    result = none ∧ next.Tiled ∧ next.phase = .beaconHeader ∧ next.pending = none ∧
      next.timing = s.timing := by
  simp only [makeChange, Noted.value_bind, bind_eq_ok_iff, Noted.value_pure, Except.ok.injEq,
    Prod.mk.injEq] at made
  obtain ⟨ended, ends, rfl, rfl⟩ := made
  obtain ⟨_, _, _, _, _, _, _, tiledAir, rfl⟩ := endInterval_eq_ok tiled ends
  exact ⟨rfl, tiledAir.announced, rfl, rfl, rfl⟩

end Scheduler

namespace Timeline

variable {t next middle last boundary : Timeline} {time stop : Time} {wakeup follows : Wakeup}
  {changes : List Wakeup}

/-! ## The clock -/

structure Hears (t next : Timeline) : Prop where
  beacon : next.beacon = t.beacon
  intervals : next.intervals = t.intervals
  scheduler : ∃ air queue statistics, next.scheduler = { t.scheduler with air, queue, statistics }
  tiled : next.scheduler.Tiled

theorem Hears.trans (first : t.Hears middle) (second : middle.Hears last) : t.Hears last := by
  refine ⟨second.beacon.trans first.beacon, second.intervals.trans first.intervals, ?_,
    second.tiled⟩
  obtain ⟨_, _, _, one⟩ := first.scheduler
  obtain ⟨air, queue, statistics, two⟩ := second.scheduler
  exact ⟨air, queue, statistics, by rw [two, one]⟩

theorem receive_ends (tiled : t.scheduler.Tiled) (time : Time) (frame : Frame) :
    ∃ next, (t.receive time frame).value = .ok next ∧ t.Hears next := by
  cases frame with
  | request source spec => exact ⟨_, rfl, rfl, rfl, ⟨_, _, _, rfl⟩, tiled⟩
  | deletion key =>
      obtain ⟨outcome, air, statistics, deleted, tiledAir⟩ :=
        Scheduler.delete_ends tiled time key
      simp only [receive, Noted.value_bind, deleted, ok_bind, value_tell]
      exact ⟨_, rfl, rfl, rfl, ⟨_, _, _, rfl⟩, tiledAir⟩

theorem receiveAll_ends (tiled : t.scheduler.Tiled) (limit : Time) (arrivals : List Arrival) :
    ∃ next, (receiveAll limit t arrivals).value = .ok next ∧ t.Hears next := by
  induction arrivals generalizing t with
  | nil => exact ⟨_, rfl, rfl, rfl, ⟨_, _, _, rfl⟩, tiled⟩
  | cons a rest ih =>
      by_cases due : a.time < limit
      · obtain ⟨middle, received, hears⟩ := receive_ends tiled (max a.time t.now) a.frame
        obtain ⟨next, others, hearsRest⟩ := ih hears.tiled
        refine ⟨next, ?_, hears.trans hearsRest⟩
        rw [receiveAll, if_pos due, Noted.value_bind, received, ok_bind, others]
      · rw [receiveAll, if_neg due]
        exact ⟨_, rfl, rfl, rfl, ⟨_, _, _, rfl⟩, tiled⟩

theorem advance_ends (tiled : t.scheduler.Tiled) (time : Time) :
    ∃ next, (t.advance time).value = .ok next ∧ t.Hears next ∧ next.now = time := by
  obtain ⟨middle, received, hears⟩ := receiveAll_ends tiled time t.arrivals
  rw [advance, Noted.value_bind, received]
  exact ⟨_, rfl, ⟨hears.beacon, hears.intervals, hears.scheduler, hears.tiled⟩, rfl⟩

/-! ## The loop -/

def round (wakeup : Wakeup) (t : Timeline) : Noted (Option Wakeup × Timeline) := do
  let t ← t.advance wakeup.time
  let (next, scheduler) ← t.scheduler.handle wakeup.time wakeup.change
  return (next, { t with scheduler })

/-- The loop of an interval, as long as it may take: the changes it makes, and what it leaves. -/
inductive Loops : Wakeup → Timeline → List Wakeup → Timeline → Prop where
  | last {wakeup : Wakeup} {t last : Timeline}
      (ends : (round wakeup t).value = .ok (none, last)) : Loops wakeup t [wakeup] last
  | more {wakeup follows : Wakeup} {t middle last : Timeline} {changes : List Wakeup}
      (goesOn : (round wakeup t).value = .ok (some follows, middle))
      (rest : Loops follows middle changes last) : Loops wakeup t (wakeup :: changes) last

/-- The loop up to the moment at which the last of the changes is to be made. -/
inductive Approaches : Wakeup → Timeline → List Wakeup → Timeline → Prop where
  | last {wakeup : Wakeup} {t boundary : Timeline}
      (ends : wakeup.change = .intervalEnd)
      (advanced : (t.advance wakeup.time).value = .ok boundary) :
      Approaches wakeup t [wakeup] boundary
  | more {wakeup follows : Wakeup} {t middle boundary : Timeline} {changes : List Wakeup}
      (goesOn : (round wakeup t).value = .ok (some follows, middle))
      (rest : Approaches follows middle changes boundary) :
      Approaches wakeup t (wakeup :: changes) boundary

theorem value_followChanges (left : Nat) (wakeup : Wakeup) (t : Timeline) :
    (followChanges (left + 1) wakeup t).value =
      (round wakeup t).value >>= fun made =>
        match made.1 with
        | some follows => (followChanges left follows made.2).value
        | none => .ok made.2 := by
  simp only [followChanges, round, Noted.value_bind, Noted.value_pure, bind_assoc, ok_bind]
  refine congrArg _ (funext fun _ => congrArg _ (funext fun handled => ?_))
  cases handled.1 <;> rfl

theorem Loops.followChanges (loops : Loops wakeup t changes last) {left : Nat}
    (enough : changes.length ≤ left) : (followChanges left wakeup t).value = .ok last := by
  induction loops generalizing left with
  | last ends =>
      obtain ⟨left, rfl⟩ := Nat.exists_eq_succ_of_ne_zero (Nat.ne_of_gt enough)
      rw [value_followChanges, ends]
      rfl
  | more goesOn rest ih =>
      rw [List.length_cons] at enough
      obtain ⟨left, rfl⟩ := Nat.exists_eq_succ_of_ne_zero (Nat.ne_of_gt (Nat.zero_lt_of_lt enough))
      rw [value_followChanges, goesOn]
      exact ih (Nat.le_of_succ_le_succ enough)

theorem advance_now (advanced : (t.advance time).value = .ok next) : next.now = time := by
  simp only [advance, Noted.value_bind, bind_eq_ok_iff, Noted.value_pure, Except.ok.injEq]
    at advanced
  obtain ⟨_, _, rfl⟩ := advanced
  rfl

theorem Approaches.loops {scheduler : Scheduler} (approaches : Approaches wakeup t changes boundary)
    (made : (boundary.scheduler.handle boundary.now .intervalEnd).value = .ok (none, scheduler)) :
    Loops wakeup t changes { boundary with scheduler } := by
  induction approaches with
  | @last wakeup t boundary ends advanced =>
      rw [advance_now advanced] at made
      refine .last ?_
      simp only [round, Noted.value_bind, advanced, ok_bind, ends, made, Noted.value_pure]
  | more goesOn rest ih => exact .more goesOn (ih made)

theorem Approaches.handle_ends {left : Nat} (approaches : Approaches wakeup t changes boundary)
    (enough : changes.length ≤ left) (ends : Ends (followChanges left wakeup t).value) :
    Ends (boundary.scheduler.handle boundary.now .intervalEnd).value := by
  induction approaches generalizing left with
  | @last wakeup t boundary change advanced =>
      obtain ⟨left, rfl⟩ := Nat.exists_eq_succ_of_ne_zero (Nat.ne_of_gt enough)
      rw [advance_now advanced, ← change]
      simp only [value_followChanges, round, Noted.value_bind, advanced, ok_bind, bind_assoc,
        ends_bind_iff] at ends
      obtain ⟨result, handled, _⟩ := ends
      exact ⟨result, handled⟩
  | more goesOn rest ih =>
      rw [List.length_cons] at enough
      obtain ⟨left, rfl⟩ := Nat.exists_eq_succ_of_ne_zero (Nat.ne_of_gt (Nat.zero_lt_of_lt enough))
      rw [value_followChanges, goesOn] at ends
      exact ih (Nat.le_of_succ_le_succ enough) ends

/-! ## One change after the other -/

/-- The timeline is underway in an interval of this timing. -/
structure Underway (t : Timeline) (wakeup : Wakeup) (timing : Timing) : Prop where
  tiled : t.scheduler.Tiled
  awaits : t.scheduler.Awaits wakeup
  timing : t.scheduler.timing = timing

theorem Underway.hears {timing : Timing} (underway : t.Underway wakeup timing)
    (hears : t.Hears next) : next.Underway wakeup timing := by
  obtain ⟨_, _, _, scheduler⟩ := hears.scheduler
  refine ⟨hears.tiled, ⟨?_, ?_⟩, ?_⟩
  · rw [scheduler]
    exact underway.awaits.pending
  · rw [scheduler]
    exact underway.awaits.allowed
  · rw [scheduler]
    exact underway.timing

theorem Underway.changed {timing : Timing} (underway : t.Underway wakeup timing)
    (follow : timing.following wakeup = some follows) :
    Underway { t with scheduler := { t.scheduler with
      phase := Scheduler.target wakeup.change
      timing := timing.stamped wakeup
      pending := some follows } } follows (timing.stamped wakeup) := by
  have dti : (timing.stamped wakeup).dti = t.scheduler.timing.dti := by
    rw [underway.timing]
    unfold Timing.stamped
    cases wakeup.change <;> rfl
  refine ⟨?_, ⟨rfl, Scheduler.target_allows follow⟩, rfl⟩
  rw [Scheduler.Tiled]
  dsimp only
  rw [dti]
  exact underway.tiled

theorem Underway.round {timing : Timing} (underway : t.Underway wakeup timing)
    (follow : timing.following wakeup = some follows) (counted : follows.time < 2 ^ 64) :
    ∃ middle, (round wakeup t).value = .ok (some follows, middle) ∧
      middle.beacon = t.beacon ∧ middle.intervals = t.intervals ∧
      middle.Underway follows (timing.stamped wakeup) := by
  obtain ⟨heard, advanced, hears, _⟩ := advance_ends underway.tiled wakeup.time
  have underwayHeard := underway.hears hears
  obtain rfl := underwayHeard.timing
  have made := (Scheduler.makeChange_follows_iff follow).mpr ⟨counted, rfl, rfl⟩
  refine ⟨_, ?_, ?_, ?_, underwayHeard.changed follow⟩
  · simp only [Timeline.round, Noted.value_bind, advanced, ok_bind,
      underwayHeard.awaits.value_handle, made, Noted.value_pure]
  · exact hears.beacon
  · exact hears.intervals

/-- The loop gets to its last change, at `stop` and with this timing. -/
structure Nears (wakeup : Wakeup) (t : Timeline) (changes : List Wakeup) (stop : Time)
    (timing : Timing) (boundary : Timeline) : Prop where
  approaches : Approaches wakeup t changes boundary
  beacon : boundary.beacon = t.beacon
  intervals : boundary.intervals = t.intervals
  now : boundary.now = stop
  underway : boundary.Underway ⟨stop, .intervalEnd⟩ timing

theorem Underway.nears_end {timing : Timing} (underway : t.Underway ⟨stop, .intervalEnd⟩ timing) :
    ∃ boundary, Nears ⟨stop, .intervalEnd⟩ t [⟨stop, .intervalEnd⟩] stop timing boundary := by
  obtain ⟨boundary, advanced, hears, now⟩ := advance_ends underway.tiled stop
  exact ⟨boundary, .last rfl advanced, hears.beacon, hears.intervals, now, underway.hears hears⟩

theorem Underway.nears_more {timing ended : Timing} (underway : t.Underway wakeup timing)
    (follow : timing.following wakeup = some follows) (counted : follows.time < 2 ^ 64)
    (rest : ∀ middle : Timeline, middle.Underway follows (timing.stamped wakeup) →
      ∃ boundary, Nears follows middle changes stop ended boundary) :
    ∃ boundary, Nears wakeup t (wakeup :: changes) stop ended boundary := by
  obtain ⟨middle, goesOn, beacon, intervals, underwayNext⟩ := underway.round follow counted
  obtain ⟨boundary, nears⟩ := rest middle underwayNext
  exact ⟨boundary, .more goesOn nears.approaches, nears.beacon.trans beacon,
    nears.intervals.trans intervals, nears.now, nears.underway⟩

variable {begun : Timeline} {start : Time} {header : Nat}

theorem Underway.nears_transfer {beacon : Config.Beacon} {timing : Timing}
    (regular : beacon.Regular header) (length : timing.dti = beacon.interval - header)
    (counted : start + beacon.interval < 2 ^ 64)
    (underway : t.Underway ⟨start + header, .dataTransferStart⟩ timing) :
    ∃ boundary, Nears ⟨start + header, .dataTransferStart⟩ t
      [⟨start + header, .dataTransferStart⟩, ⟨start + beacon.interval, .intervalEnd⟩]
      (start + beacon.interval) { timing with dataTransferStart := some (start + header) }
      boundary := by
  have whole : start + header + timing.dti = start + beacon.interval := by
    rw [length, Nat.add_assoc, Nat.add_sub_cancel' (Nat.le_of_lt regular.header)]
  have follow : timing.following ⟨start + header, .dataTransferStart⟩ =
      some ⟨start + beacon.interval, .intervalEnd⟩ := by
    rw [Timing.following, whole]
  exact underway.nears_more follow counted (fun _ => Underway.nears_end)

theorem Underway.nears {beacon : Config.Beacon} (regular : beacon.Regular header)
    (underway : t.Underway wakeup (beacon.initialTiming header start))
    (first : Scheduler.firstWakeup start header beacon.announcement = .ok wakeup)
    (counted : start + beacon.interval < 2 ^ 64) :
    ∃ boundary, Nears wakeup t (beacon.changes header start) (start + beacon.interval)
      (beacon.finalTiming header start) boundary := by
  obtain ⟨_, rfl⟩ := Scheduler.firstWakeup_eq_ok_iff.mp first
  rw [Config.Beacon.changes, Config.Beacon.finalTiming]
  by_cases announces : 0 < beacon.announcement
  · rw [if_pos announces] at underway
    simp only [if_pos announces]
    have upTo : start + (header - beacon.announcement) + beacon.announcement = start + header := by
      rw [Nat.add_assoc, Nat.sub_add_cancel regular.announcement]
    have follow : (beacon.initialTiming header start).following
        ⟨start + (header - beacon.announcement), .announcementStart⟩ =
          some ⟨start + header, .dataTransferStart⟩ := by
      rw [Timing.following, Config.Beacon.initialTiming, upTo]
    refine underway.nears_more follow ?_ fun _ => Underway.nears_transfer regular rfl counted
    exact Nat.lt_of_le_of_lt (Nat.add_le_add_left (Nat.le_of_lt regular.header) start) counted
  · rw [if_neg announces] at underway
    simp only [if_neg announces]
    exact underway.nears_transfer regular rfl counted

/-! ## A whole interval -/

def beginInterval (t : Timeline) : Noted (Wakeup × Timeline) := do
  let (start, next, t) ← t.reachBeacon
  let t ← t.tell start (.schedule t.scheduler.published)
  return (next, t)

theorem runInterval_eq_begin (t : Timeline) :
    t.runInterval = t.beginInterval >>= fun (next, t) => leaveBeacon next t := by
  simp only [runInterval_eq, beginInterval, bind_assoc, pure_bind]

theorem firstWakeup_ends (regular : t.beacon.Regular header)
    (counted : start + t.beacon.interval < 2 ^ 64) :
    ∃ wakeup, Scheduler.firstWakeup start header t.beacon.announcement = .ok wakeup := by
  have small : ∀ part, part ≤ header → start + part < 2 ^ 64 := by
    intro part bound
    have inside : part ≤ t.beacon.interval := Nat.le_trans bound (Nat.le_of_lt regular.header)
    exact Nat.lt_of_le_of_lt (Nat.add_le_add_left inside start) counted
  refine ⟨_, Scheduler.firstWakeup_eq_ok_iff.mpr ⟨?_, rfl⟩⟩
  split_ifs
  · exact small _ (Nat.sub_le _ _)
  · exact small _ (Nat.le_refl _)

theorem beginInterval_ends (tiled : t.scheduler.Tiled) (regular : t.beacon.Regular header)
    (small : t.beacon.interval < 2 ^ 32) (starts : t.intervalStart t.intervals = .ok start)
    (first : Scheduler.firstWakeup start header t.beacon.announcement = .ok wakeup) :
    ∃ begun, t.beginInterval.value = .ok (wakeup, begun) ∧ begun.beacon = t.beacon ∧
      begun.intervals = t.intervals ∧
      begun.Underway wakeup (t.beacon.initialTiming header start) := by
  have dti : t.beacon.interval - header < 2 ^ 32 := Nat.lt_of_le_of_lt (Nat.sub_le _ _) small
  obtain ⟨heard, advanced, hears, _⟩ := advance_ends tiled start
  obtain ⟨scheduler, started⟩ :=
    Scheduler.startInterval_ends t.beacon.coordinator hears.tiled dti first
  obtain ⟨tiledNow, awaits, timing⟩ := Scheduler.startInterval_begins hears.tiled started
  simp only [beginInterval, reachBeacon, Noted.value_bind, Noted.value_lift, starts, advanced,
    hears.beacon, regular.counted, started, ok_bind, value_tell, Noted.value_pure]
  exact ⟨_, rfl, rfl, hears.intervals, tiledNow, awaits, timing⟩

/-! ## Sessions -/

/-- What is done to a timeline, or past it to its scheduler. -/
inductive Interaction where
  | act (action : Action)
  | command (command : Scheduler.Command)
deriving DecidableEq, Repr

def interact (t : Timeline) : Interaction → Noted Timeline
  | .act action => t.act action
  | .command command => do return { t with scheduler := ← t.scheduler.perform command }

def interactAll (t : Timeline) : List Interaction → Noted Timeline
  | [] => return t
  | interaction :: rest => do (← t.interact interaction).interactAll rest

def session (config : Config) (interactions : List Interaction) : Noted Timeline := do
  (← Timeline.start config).interactAll interactions

theorem runInterval_tiled (tiled : t.scheduler.Tiled) (ran : t.runInterval.value = .ok next) :
    next.beacon = t.beacon ∧ next.scheduler.Tiled := by
  simp only [runInterval_eq_begin, beginInterval, reachBeacon, Noted.value_bind, Noted.value_lift,
    Noted.value_pure, value_tell, ok_bind, bind_eq_ok_iff, Except.ok.injEq] at ran
  obtain ⟨_, ⟨_, ⟨start, _, heard, advanced, header, _, ⟨wakeup, scheduler⟩, started, rfl⟩, rfl⟩,
    left⟩ := ran
  have delivers := advance_delivers tiled advanced
  obtain ⟨tiledNow, awaits, _⟩ := Scheduler.startInterval_begins delivers.interim.tiled started
  obtain ⟨beacon, _, shown, shows⟩ :=
    leaveBeacon_shows
      (t := { heard with
        scheduler
        outbox := heard.outbox ++
          deliveries heard.observers start (.schedule scheduler.published) })
      tiledNow awaits left
  exact ⟨beacon.trans delivers.beacon, shows.scheduler_tiled⟩

theorem interact_tiled {interaction : Interaction} (tiled : t.scheduler.Tiled)
    (interacted : (t.interact interaction).value = .ok next) :
    next.beacon = t.beacon ∧ next.scheduler.Tiled := by
  cases interaction with
  | act action =>
      by_cases runs : action = .runInterval
      · subst runs
        exact runInterval_tiled tiled interacted
      · obtain ⟨beacon, interim⟩ := act_frame tiled runs interacted
        exact ⟨beacon, interim.tiled⟩
  | command command =>
      simp only [interact, Noted.value_bind, bind_eq_ok_iff, Noted.value_pure,
        Except.ok.injEq] at interacted
      obtain ⟨scheduler, performed, rfl⟩ := interacted
      exact ⟨rfl, (Scheduler.perform_step tiled performed).tiled⟩

theorem interactAll_tiled {interactions : List Interaction} (tiled : t.scheduler.Tiled)
    (interacted : (t.interactAll interactions).value = .ok next) :
    next.beacon = t.beacon ∧ next.scheduler.Tiled := by
  induction interactions generalizing t with
  | nil =>
      obtain rfl := Except.ok.inj interacted
      exact ⟨rfl, tiled⟩
  | cons interaction rest ih =>
      simp only [interactAll, Noted.value_bind, bind_eq_ok_iff] at interacted
      obtain ⟨middle, first, others⟩ := interacted
      obtain ⟨beaconMiddle, tiledMiddle⟩ := interact_tiled tiled first
      obtain ⟨beacon, tiledNext⟩ := ih tiledMiddle others
      exact ⟨beacon.trans beaconMiddle, tiledNext⟩

variable {config : Config} {interactions : List Interaction}

theorem session_tiled (held : (session config interactions).value = .ok t) :
    config.require = .ok () ∧ Ends config.beacon.header ∧ t.beacon = config.beacon ∧
      t.scheduler.Tiled := by
  simp only [session, Timeline.start, Noted.value_bind, Noted.value_pure, bind_eq_ok_iff,
    Except.ok.injEq] at held
  obtain ⟨_, ⟨scheduler, starts, rfl⟩, interacted⟩ := held
  obtain ⟨valid, _, _, _, _, ⟨header, counted, _⟩, _⟩ := Scheduler.start_eq_ok starts
  obtain ⟨shown, shows⟩ := Scheduler.start_shows starts
  obtain ⟨beacon, tiled⟩ := interactAll_tiled (by exact shows.scheduler_tiled) interacted
  exact ⟨valid, ⟨header, counted⟩, beacon, tiled⟩

/-! ## The end of an interval -/

theorem Nears.value_handle {timing : Timing}
    (nears : Nears wakeup begun changes stop timing boundary) :
    (boundary.scheduler.handle boundary.now .intervalEnd).value =
      (boundary.scheduler.makeChange stop .intervalEnd).value := by
  rw [nears.now]
  exact nears.underway.awaits.value_handle

theorem Nears.boundary_ends {timing : Timing} (few : changes.length ≤ maxChanges)
    (begins : t.beginInterval.value = .ok (wakeup, begun))
    (nears : Nears wakeup begun changes stop timing boundary) (ends : Ends t.runInterval.value) :
    Ends (boundary.scheduler.makeChange stop .intervalEnd).value := by
  simp only [runInterval_eq_begin, leaveBeacon, Noted.value_bind, begins, ok_bind,
    ends_bind_iff] at ends
  obtain ⟨ended, followed, _⟩ := ends
  rw [← nears.value_handle]
  exact nears.approaches.handle_ends few ⟨ended, followed⟩

theorem Nears.interval_ends {timing : Timing} {result : Option Wakeup} {scheduler : Scheduler}
    (few : changes.length ≤ maxChanges) (begins : t.beginInterval.value = .ok (wakeup, begun))
    (nears : Nears wakeup begun changes stop timing boundary)
    (made : (boundary.scheduler.makeChange stop .intervalEnd).value = .ok (result, scheduler)) :
    ∃ ended next, Loops wakeup begun changes ended ∧ t.runInterval.value = .ok next ∧
      next.beacon = begun.beacon ∧ next.now = stop ∧ next.intervals = begun.intervals + 1 ∧
      next.scheduler.phase = .beaconHeader ∧ next.scheduler.pending = none ∧
      next.scheduler.timing = timing := by
  obtain ⟨rfl, _, phase, pending, kept⟩ := Scheduler.intervalEnd_eq_ok nears.underway.tiled made
  rw [← nears.value_handle] at made
  have loops := nears.approaches.loops made
  refine ⟨_, { boundary with
    scheduler := scheduler.takeResponses.2
    outbox := boundary.outbox ++
      (scheduler.responses.map Report.admission).flatMap
        (deliveries boundary.observers boundary.now)
    intervals := boundary.intervals + 1 }, loops, ?_, nears.beacon, nears.now, ?_, phase, pending,
    kept.trans nears.underway.timing⟩
  · simp only [runInterval_eq_begin, leaveBeacon, Noted.value_bind, begins, ok_bind,
      loops.followChanges few, value_tellAll, Noted.value_pure]
    rfl
  · rw [nears.intervals]

theorem dtiWindow_ends (regular : t.beacon.Regular header)
    (clock : (t.intervals + 1) * t.beacon.interval < 2 ^ 64) :
    t.intervalStart t.intervals = .ok (t.intervals * t.beacon.interval) ∧
      t.intervalStart (t.intervals + 1) =
        .ok (t.intervals * t.beacon.interval + t.beacon.interval) ∧
      t.dtiWindow t.intervals = .ok (t.intervals * t.beacon.interval + header,
        t.intervals * t.beacon.interval + t.beacon.interval) := by
  have sum : (t.intervals + 1) * t.beacon.interval =
      t.intervals * t.beacon.interval + t.beacon.interval := Nat.succ_mul _ _
  have stops : t.intervalStart (t.intervals + 1) =
      .ok (t.intervals * t.beacon.interval + t.beacon.interval) :=
    mul_eq_ok_iff.mpr ⟨clock, sum⟩
  rw [sum] at clock
  have starts : t.intervalStart t.intervals = .ok (t.intervals * t.beacon.interval) :=
    mul_eq_ok_iff.mpr ⟨Nat.lt_of_le_of_lt (Nat.le_add_right _ _) clock, rfl⟩
  have transfer : Time.after (t.intervals * t.beacon.interval) header =
      .ok (t.intervals * t.beacon.interval + header) := by
    refine add_eq_ok_iff.mpr ⟨Nat.lt_of_le_of_lt (Nat.add_le_add_left ?_ _) clock, rfl⟩
    exact Nat.le_of_lt regular.header
  have ended : Time.after (t.intervals * t.beacon.interval) t.beacon.interval =
      .ok (t.intervals * t.beacon.interval + t.beacon.interval) :=
    add_eq_ok_iff.mpr ⟨clock, rfl⟩
  refine ⟨starts, stops, ?_⟩
  simp only [dtiWindow, starts, regular.counted, transfer, ended, ok_bind]
  rfl

/-- In whatever state a session leaves the scheduler, as long as the clock can tell the end of
the next interval: only the decisions at its boundary can keep it from ending.  It makes the
changes of the configured timing, each at its time, and the next one starts where it ends. -/
theorem runInterval_ends_on_time (held : (session config interactions).value = .ok t)
    (small : config.beacon.interval < 2 ^ 32)
    (clock : (t.intervals + 1) * config.beacon.interval < 2 ^ 64) :
    ∃ header start stop first begun boundary cleaned,
      config.beacon.header = .ok header ∧
      t.intervalStart t.intervals = .ok start ∧ t.intervalStart (t.intervals + 1) = .ok stop ∧
      t.dtiWindow t.intervals = .ok (start + header, stop) ∧
      (config.beacon.changes header start).length =
        (if config.beacon.announcement = 0 then 2 else 3) ∧
      t.beginInterval.value = .ok (first, begun) ∧
      Nears first begun (config.beacon.changes header start) stop
        (config.beacon.finalTiming header start) boundary ∧
      (boundary.scheduler.cleanUp stop).value = .ok cleaned ∧
      (Ends t.runInterval.value → Ends (Scheduler.decideAll cleaned.policy cleaned.terms stop
        cleaned.air cleaned.queue).value) ∧
      (Ends (Scheduler.decideAll cleaned.policy cleaned.terms stop cleaned.air
          cleaned.queue).value →
        ∃ ended next, Loops first begun (config.beacon.changes header start) ended ∧
          t.runInterval.value = .ok next ∧ next.now = stop ∧
          next.intervals = t.intervals + 1 ∧ next.intervalStart next.intervals = .ok stop ∧
          next.scheduler.phase = .beaconHeader ∧ next.scheduler.pending = none ∧
          next.scheduler.timing = config.beacon.finalTiming header start) := by
  obtain ⟨valid, ⟨header, counted⟩, beacon, tiled⟩ := session_tiled held
  have regular := Config.regular valid counted
  rw [← beacon] at small clock regular ⊢
  obtain ⟨starts, stops, window⟩ := dtiWindow_ends regular clock
  rw [Nat.succ_mul] at clock
  obtain ⟨first, firsts⟩ := firstWakeup_ends regular clock
  obtain ⟨begun, begins, beaconBegun, intervals, underway⟩ :=
    beginInterval_ends tiled regular small starts firsts
  obtain ⟨boundary, nears⟩ := underway.nears regular firsts clock
  have tiledBoundary := nears.underway.tiled
  obtain ⟨cleaned, cleans⟩ := Scheduler.cleanUp_ends
    (t.intervals * t.beacon.interval + t.beacon.interval) tiledBoundary
  have length := t.beacon.length_changes header (t.intervals * t.beacon.interval)
  have few : (t.beacon.changes header (t.intervals * t.beacon.interval)).length ≤ maxChanges := by
    rw [length, maxChanges]
    split_ifs <;> decide
  have dti : boundary.scheduler.timing.dti < 2 ^ 32 := by
    rw [nears.underway.timing]
    exact Nat.lt_of_le_of_lt (Nat.sub_le _ _) small
  have decisions := Scheduler.intervalEnd_ends_iff tiledBoundary dti cleans
  obtain ⟨air, rfl, _⟩ := Scheduler.cleanUp_eq_ok tiledBoundary cleans
  refine ⟨header, _, _, first, begun, boundary, _, regular.counted, starts, stops, window, length,
    begins, nears, cleans, ?_, ?_⟩
  · intro ends
    exact decisions.mp (nears.boundary_ends few begins ends)
  · intro decides
    obtain ⟨⟨result, scheduler⟩, made⟩ := decisions.mpr decides
    obtain ⟨ended, next, loops, ran, beaconNext, now, count, idle⟩ :=
      nears.interval_ends few begins made
    rw [intervals] at count
    refine ⟨ended, next, loops, ran, now, count, ?_, idle⟩
    rw [count, intervalStart, beaconNext, beaconBegun]
    exact stops

/-- After an interval, frames from before it are late, and the scheduler is taken into the data
transfer of an interval of another length. -/
def strayedSession : Noted Timeline :=
  session { beacon := { announcement := 500 } }
    [.act (.submit 50
        (.request 7 ⟨3, .servicePeriod, true, 4, .asynchronous, 2000, 2000, 0, false⟩)),
      .act .runInterval,
      .act (.submit 60
        (.request 8 ⟨3, .servicePeriod, true, 4, .asynchronous, 2000, 2000, 0, false⟩)),
      .act (.submit 70 (.deletion ⟨3, 7, 4⟩)),
      .command (.startInterval 110000 3 60000 2000 0),
      .command (.handle 112000 .dataTransferStart)]

theorem strayedSession_ends_on_time :
    ∃ t first begun ended next, strayedSession.value = .ok t ∧
      t.scheduler.phase = .dataTransfer ∧ t.scheduler.pending = some ⟨170000, .intervalEnd⟩ ∧
      t.beginInterval.value = .ok (first, begun) ∧
      Loops first begun [⟨103400, .announcementStart⟩, ⟨103900, .dataTransferStart⟩,
        ⟨204800, .intervalEnd⟩] ended ∧
      t.runInterval.value = .ok next ∧ next.now = 204800 ∧ next.scheduler.pending = none ∧
      next.scheduler.timing =
        ⟨102400, 1500, 500, 100900, 102400, some 103400, some 103900⟩ := by
  obtain ⟨⟨t, last⟩, ran, computed⟩ := Scheduler.exists_ok
    (x := (do let t ← strayedSession; return (t, ← t.runInterval) : Noted _).value)
    (f := fun (t, _) => (t.intervals, t.scheduler.phase, t.scheduler.pending))
    (b := (1, .dataTransfer, some ⟨170000, .intervalEnd⟩)) (by decide +kernel)
  simp only [Noted.value_bind, Noted.value_pure, bind_eq_ok_iff, Except.ok.injEq,
    Prod.mk.injEq] at ran computed
  obtain ⟨_, held, _, runs, rfl, rfl⟩ := ran
  obtain ⟨one, phase, pending⟩ := computed
  obtain ⟨header, start, stop, first, begun, _, _, counted, starts, stops, _, _, begins, _, _,
    decides, ends⟩ := runInterval_ends_on_time held (by decide) (by rw [one]; decide)
  obtain ⟨ended, next, loops, ran, now, _, _, _, idle, timing⟩ := ends (decides ⟨_, runs⟩)
  obtain ⟨_, _, beacon, _⟩ := session_tiled held
  rw [intervalStart, beacon, one] at starts stops
  obtain rfl : 1500 = header := Except.ok.inj counted
  obtain rfl : 102400 = start := Except.ok.inj starts
  obtain rfl : 204800 = stop := Except.ok.inj stops
  exact ⟨_, first, begun, ended, next, held, phase, pending, begins, loops, ran, now, idle, timing⟩

end Timeline
end BeaconScheduler
