import BeaconScheduler.Timeline.Basic
import BeaconScheduler.Proofs.Listing

/-!
# From one published schedule to the next

Between two boundaries a scheduler publishes nothing: frames that arrive, training periods
and phase changes leave it in an `Interim` state, where the airtime succeeds the one that was
published.  An interval that is run to its end publishes the schedule of the airtime it
leaves (`runInterval_shows`), so the schedule that the next beacon carries is always that of
the last interval, or of the activation (`actAll_origin`).
-/

set_option autoImplicit false

namespace BeaconScheduler

open Counter

theorem Airtime.Succeeds.trans {first second third : Airtime} (earlier : first.Succeeds second)
    (later : second.Succeeds third) : first.Succeeds third := by
  intro a member
  rcases later a member with kept | trains
  · exact earlier a kept
  · exact Or.inr trains

theorem Airtime.Succeeds.refl (air : Airtime) : air.Succeeds air :=
  fun _ member => Or.inl member

namespace Scheduler

variable {s next last : Scheduler} {now : Time}

/-- What happens to a scheduler while it publishes nothing. -/
structure Interim (s next : Scheduler) : Prop where
  limits : next.limits = s.limits
  dti : next.timing.dti = s.timing.dti
  published : next.published = s.published
  tiled : next.Tiled
  succeeds : s.air.Succeeds next.air

theorem Interim.trans (first : s.Interim next) (second : next.Interim last) : s.Interim last :=
  ⟨second.limits.trans first.limits, second.dti.trans first.dti,
    second.published.trans first.published, second.tiled,
    first.succeeds.trans second.succeeds⟩

theorem Interim.refl (tiled : s.Tiled) : s.Interim s :=
  ⟨rfl, rfl, rfl, tiled, .refl _⟩

theorem interim_of_air (tiled : s.Tiled) (limits : next.limits = s.limits)
    (dti : next.timing.dti = s.timing.dti) (published : next.published = s.published)
    (air : next.air = s.air) : s.Interim next := by
  refine ⟨limits, dti, published, ?_, ?_⟩
  · rw [Tiled, air, limits, dti]
    exact tiled
  · rw [air]
    exact .refl _

theorem delete_interim {key : Allocation.Key} {response : DeletionResponse} (tiled : s.Tiled)
    (deleted : (s.delete now key).value = .ok (response, next)) :
    s.Interim next ∧ next.pending = s.pending ∧ next.phase = s.phase := by
  rcases delete_cases tiled deleted with ⟨_, rfl⟩ | ⟨a, slots, _, found, tiling, rfl⟩
  · exact ⟨.refl tiled, rfl, rfl⟩
  · refine ⟨⟨rfl, rfl, rfl, tiling, fun b member => Or.inl ?_⟩, rfl, rfl⟩
    obtain ⟨c, kept, rfl⟩ := List.mem_map.mp member
    exact List.mem_map_of_mem (List.mem_of_mem_eraseP kept)

theorem train_interim {peer : Aid} {duration : Nat} {beamforming : Allocation.Beamforming}
    {start : Option Nat} (tiled : s.Tiled)
    (trained : (s.train peer duration beamforming).value = .ok (start, next)) :
    s.Interim next := by
  rcases train_cases trained with rfl | ⟨first, air, adds, rfl⟩
  · exact .refl tiled
  · refine ⟨rfl, rfl, rfl, tiled.add adds, fun b member => ?_⟩
    obtain ⟨c, registered, rfl⟩ := List.mem_map.mp member
    rw [adds.registered] at registered
    rcases List.mem_append.mp registered with old | new
    · exact Or.inl (List.mem_map_of_mem old)
    · rw [List.mem_singleton.mp new]
      exact Or.inr rfl

theorem startInterval_interim {coordinator : Aid} {interval header announcement : Nat}
    {wakeup : Wakeup} (tiled : s.Tiled) (same : interval - header = s.timing.dti)
    (started : (s.startInterval now coordinator interval header announcement).value =
      .ok (wakeup, next)) :
    s.Interim next := by
  rcases startInterval_eq_ok tiled started with ⟨dti, rfl⟩ | ⟨_, differs, _⟩
  · exact interim_of_air tiled rfl dti rfl rfl
  · exact absurd same differs

/-! ## Phase changes that are due -/

theorem firstWakeup_eq_ok_iff {header announcement : Nat} {wakeup : Wakeup} :
    firstWakeup now header announcement = .ok wakeup ↔ wakeup.time < 2 ^ 64 ∧
      wakeup = if 0 < announcement then ⟨now + (header - announcement), .announcementStart⟩
        else ⟨now + header, .dataTransferStart⟩ := by
  unfold firstWakeup
  split_ifs
  all_goals
    simp only [Time.after, bind_eq_ok_iff, add_eq_ok_iff, pure_eq_ok_iff]
    constructor
    · rintro ⟨_, ⟨counted, rfl⟩, rfl⟩
      exact ⟨counted, rfl⟩
    · rintro ⟨counted, rfl⟩
      exact ⟨_, ⟨counted, rfl⟩, rfl⟩

theorem startInterval_first {coordinator : Aid} {interval header announcement : Nat}
    {wakeup : Wakeup}
    (started : (s.startInterval now coordinator interval header announcement).value =
      .ok (wakeup, next)) : firstWakeup now header announcement = .ok wakeup := by
  rw [value_startInterval] at started
  simp only [bind_eq_ok_iff, Except.ok.injEq, Prod.mk.injEq] at started
  obtain ⟨_, _, _, first, rfl, _⟩ := started
  exact first

theorem startInterval_awaits {coordinator : Aid} {interval header announcement : Nat}
    {wakeup : Wakeup} (tiled : s.Tiled)
    (started : (s.startInterval now coordinator interval header announcement).value =
      .ok (wakeup, next)) : next.Awaits wakeup := by
  have changes : Phase.beaconHeader.allows wakeup.change = true := by
    obtain ⟨_, rfl⟩ := firstWakeup_eq_ok_iff.mp (startInterval_first started)
    split_ifs
    · rfl
    · rfl
  rcases startInterval_eq_ok tiled started with ⟨_, rfl⟩ | ⟨_, _, _, rfl⟩
  · exact ⟨rfl, changes⟩
  · exact ⟨rfl, changes⟩

theorem handle_due {wakeup : Wakeup} {result : Option Wakeup} (tiled : s.Tiled)
    (awaits : s.Awaits wakeup)
    (handled : (s.handle wakeup.time wakeup.change).value = .ok (result, next)) :
    (∃ follows, result = some follows ∧ next.Awaits follows ∧ s.Interim next ∧
        changesLeft follows.change < changesLeft wakeup.change) ∨
      (result = none ∧ next.limits = s.limits ∧ next.timing.dti = s.timing.dti ∧
        ∃ shown, next.Shows shown) := by
  rcases handle_cases handled with ⟨_, ignored⟩ |
    ⟨follows, phase, timing, rfl, allowed, fewer, same, _, rfl⟩ | ⟨rfl, ended, ends, rfl⟩
  · exact absurd awaits (ignored wakeup.time (Nat.le_refl _))
  · exact Or.inl ⟨follows, rfl, ⟨rfl, allowed⟩, interim_of_air tiled rfl same rfl rfl, fewer⟩
  · obtain ⟨_, air, _, _, _, _, _, tiledAir, rfl⟩ := endInterval_eq_ok tiled ends
    exact Or.inr ⟨rfl, rfl, rfl, air, tiledAir, rfl, rfl, rfl⟩

end Scheduler

namespace Timeline

variable {t next last : Timeline} {time : Time}

/-! ## Arrivals -/

structure Delivers (t next : Timeline) : Prop where
  beacon : next.beacon = t.beacon
  interim : t.scheduler.Interim next.scheduler
  pending : next.scheduler.pending = t.scheduler.pending
  phase : next.scheduler.phase = t.scheduler.phase

theorem Delivers.refl (tiled : t.scheduler.Tiled) (beacon : next.beacon = t.beacon)
    (scheduler : next.scheduler = t.scheduler) : t.Delivers next := by
  refine ⟨beacon, ?_, by rw [scheduler], by rw [scheduler]⟩
  rw [scheduler]
  exact .refl tiled

theorem Delivers.trans (first : t.Delivers next) (second : next.Delivers last) :
    t.Delivers last :=
  ⟨second.beacon.trans first.beacon, first.interim.trans second.interim,
    second.pending.trans first.pending, second.phase.trans first.phase⟩

theorem Delivers.awaits {wakeup : Wakeup} (delivers : t.Delivers next)
    (awaits : t.scheduler.Awaits wakeup) : next.scheduler.Awaits wakeup :=
  ⟨delivers.pending.trans awaits.pending, delivers.phase ▸ awaits.allowed⟩

theorem value_noteEntries (time : Time) (entries : Schedule) :
    (noteEntries time entries).value = .ok () := by
  induction entries with
  | nil => rfl
  | cons a rest ih => simp only [noteEntries, Noted.value_bind, Noted.value_noteAt, ok_bind, ih]

@[simp] theorem value_noteReport (time : Time) (report : Report) :
    (noteReport time report).value = .ok () := by
  cases report with
  | schedule entries =>
      simp only [noteReport, Noted.value_bind, Noted.value_noteAt, ok_bind, value_noteEntries]
  | admission response => rfl
  | deletion response => rfl

@[simp] theorem value_tell (t : Timeline) (time : Time) (report : Report) :
    (t.tell time report).value =
      .ok { t with outbox := t.outbox ++ deliveries t.observers time report } := by
  simp only [tell, Noted.value_bind, value_noteReport, ok_bind, Noted.value_pure]

@[simp] theorem value_tellAll (time : Time) (t : Timeline) (reports : List Report) :
    (tellAll time t reports).value = .ok { t with
      outbox := t.outbox ++ reports.flatMap (deliveries t.observers time) } := by
  induction reports generalizing t with
  | nil => simp [tellAll]
  | cons report rest ih => simp [tellAll, ih]

theorem receive_delivers {frame : Frame} (tiled : t.scheduler.Tiled)
    (received : (t.receive time frame).value = .ok next) : t.Delivers next := by
  cases frame with
  | request source spec =>
      simp only [receive, Scheduler.request, Noted.value_bind, Noted.value_noteAt, ok_bind,
        Noted.value_pure, Except.ok.injEq] at received
      subst next
      exact ⟨rfl, Scheduler.interim_of_air tiled rfl rfl rfl rfl, rfl, rfl⟩
  | deletion key =>
      simp only [receive, Noted.value_bind, bind_eq_ok_iff, value_tell, Except.ok.injEq]
        at received
      obtain ⟨⟨response, scheduler⟩, deleted, rfl⟩ := received
      obtain ⟨interim, pending, phase⟩ := Scheduler.delete_interim tiled deleted
      exact ⟨rfl, interim, pending, phase⟩

theorem receiveAll_delivers {limit : Time} {arrivals : List Arrival} (tiled : t.scheduler.Tiled)
    (received : (receiveAll limit t arrivals).value = .ok next) : t.Delivers next := by
  induction arrivals generalizing t with
  | nil =>
      obtain rfl := Except.ok.inj received
      exact .refl tiled rfl rfl
  | cons a rest ih =>
      rw [receiveAll] at received
      split_ifs at received with due
      · simp only [Noted.value_bind, bind_eq_ok_iff] at received
        obtain ⟨middle, first, others⟩ := received
        have delivers := receive_delivers tiled first
        exact delivers.trans (ih delivers.interim.tiled others)
      · obtain rfl := Except.ok.inj received
        exact .refl tiled rfl rfl

theorem advance_delivers (tiled : t.scheduler.Tiled)
    (advanced : (t.advance time).value = .ok next) : t.Delivers next := by
  simp only [advance, Noted.value_bind, bind_eq_ok_iff, Noted.value_pure, Except.ok.injEq]
    at advanced
  obtain ⟨middle, received, rfl⟩ := advanced
  obtain ⟨beacon, interim, pending, phase⟩ := receiveAll_delivers tiled received
  exact ⟨beacon, interim, pending, phase⟩

/-! ## A whole interval -/

theorem followChanges_shows {left : Nat} {wakeup : Wakeup} (tiled : t.scheduler.Tiled)
    (awaits : t.scheduler.Awaits wakeup)
    (enough : Scheduler.changesLeft wakeup.change ≤ left)
    (followed : (followChanges left wakeup t).value = .ok last) :
    last.beacon = t.beacon ∧ last.scheduler.timing.dti = t.scheduler.timing.dti ∧
      ∃ shown, last.scheduler.Shows shown := by
  induction left generalizing t wakeup with
  | zero =>
      cases change : wakeup.change <;> rw [change] at enough <;> cases enough
  | succ left ih =>
      simp only [followChanges, Noted.value_bind, bind_eq_ok_iff] at followed
      obtain ⟨middle, advanced, ⟨result, scheduler⟩, handled, followed⟩ := followed
      have delivers := advance_delivers tiled advanced
      rcases Scheduler.handle_due delivers.interim.tiled (delivers.awaits awaits) handled with
        ⟨follows, rfl, awaitsNext, interim, fewer⟩ | ⟨rfl, _, dti, shown, shows⟩
      · obtain ⟨beacon, dti, shows⟩ := ih (t := { middle with scheduler }) interim.tiled awaitsNext
          (by omega) followed
        exact ⟨beacon.trans delivers.beacon,
          dti.trans (interim.dti.trans delivers.interim.dti), shows⟩
      · obtain rfl := Except.ok.inj followed
        exact ⟨delivers.beacon, dti.trans delivers.interim.dti, shown, shows⟩

/-- An interval up to its beacon: frames are delivered until it starts. Gives the time, and the
first phase change. -/
def reachBeacon (t : Timeline) : Noted (Time × Wakeup × Timeline) := do
  let start ← t.intervalStart t.intervals
  let t ← t.advance start
  let header ← t.beacon.header
  let (next, scheduler) ←
    t.scheduler.startInterval start t.beacon.coordinator t.beacon.interval header t.beacon.announcement
  return (start, next, { t with scheduler })

def leaveBeacon (next : Wakeup) (t : Timeline) : Noted Timeline := do
  let t ← followChanges maxChanges next t
  let (responses, scheduler) := t.scheduler.takeResponses
  let t ← tellAll t.now { t with scheduler } (responses.map .admission)
  return { t with intervals := t.intervals + 1 }

theorem runInterval_eq (t : Timeline) :
    t.runInterval = t.reachBeacon >>= fun (start, next, t) =>
      t.tell start (.schedule t.scheduler.published) >>= leaveBeacon next := by
  simp only [runInterval, reachBeacon, bind_assoc, pure_bind]
  rfl

/-- The scheduler of a timeline has the DTI of the configured timing. -/
structure Sound (t : Timeline) : Prop where
  tiled : t.scheduler.Tiled
  dti : ∃ header, t.beacon.header = .ok header ∧
    t.scheduler.timing.dti = t.beacon.interval - header

theorem reachBeacon_interim {start : Time} {wakeup : Wakeup} (sound : t.Sound)
    (reached : t.reachBeacon.value = .ok (start, wakeup, next)) :
    next.beacon = t.beacon ∧ t.scheduler.Interim next.scheduler ∧
      next.scheduler.Awaits wakeup := by
  obtain ⟨header, fits, dti⟩ := sound.dti
  simp only [reachBeacon, Noted.value_bind, Noted.value_lift, bind_eq_ok_iff, Noted.value_pure,
    Except.ok.injEq, Prod.mk.injEq] at reached
  obtain ⟨_, _, middle, advanced, _, fitsNow, ⟨_, scheduler⟩, started, rfl, rfl, rfl⟩ := reached
  have delivers := advance_delivers sound.tiled advanced
  rw [delivers.beacon, fits] at fitsNow
  obtain rfl := Except.ok.inj fitsNow
  have same : middle.beacon.interval - header = middle.scheduler.timing.dti := by
    rw [delivers.beacon, delivers.interim.dti, dti]
  exact ⟨delivers.beacon,
    delivers.interim.trans
      (Scheduler.startInterval_interim delivers.interim.tiled same started),
    Scheduler.startInterval_awaits delivers.interim.tiled started⟩

theorem leaveBeacon_shows {wakeup : Wakeup} (tiled : t.scheduler.Tiled)
    (awaits : t.scheduler.Awaits wakeup) (left : (leaveBeacon wakeup t).value = .ok last) :
    last.beacon = t.beacon ∧ last.scheduler.timing.dti = t.scheduler.timing.dti ∧
      ∃ shown, last.scheduler.Shows shown := by
  simp only [leaveBeacon, Noted.value_bind, bind_eq_ok_iff, value_tellAll, Noted.value_pure,
    Except.ok.injEq] at left
  obtain ⟨ended, followed, _, rfl, rfl⟩ := left
  have enough : Scheduler.changesLeft wakeup.change ≤ maxChanges := by
    cases wakeup.change <;> decide
  obtain ⟨beacon, dti, shown, shows⟩ := followChanges_shows tiled awaits enough followed
  exact ⟨beacon, dti, shown, shows.tiled, shows.air, shows.published, shows.remaining⟩

theorem runInterval_shows (sound : t.Sound) (ran : t.runInterval.value = .ok next) :
    next.Sound ∧ ∃ shown, next.scheduler.Shows shown := by
  simp only [runInterval_eq, Noted.value_bind, bind_eq_ok_iff, value_tell, Except.ok.injEq] at ran
  obtain ⟨⟨start, wakeup, middle⟩, reached, _, rfl, left⟩ := ran
  obtain ⟨beacon, interim, awaits⟩ := reachBeacon_interim sound reached
  obtain ⟨beaconLast, dti, shown, shows⟩ :=
    leaveBeacon_shows
      (t := { middle with
        outbox := middle.outbox ++
          deliveries middle.observers start (.schedule middle.scheduler.published) })
      interim.tiled awaits left
  obtain ⟨header, fits, dtiBefore⟩ := sound.dti
  refine ⟨⟨shows.scheduler_tiled, header, ?_, ?_⟩, shown, shows⟩
  · rw [beaconLast, beacon, fits]
  · rw [dti, beaconLast, beacon, interim.dti, dtiBefore]

/-! ## Runs -/

/-- What is done to a timeline; training periods are asked for between intervals. -/
inductive Action where
  | register (observer : Observer)
  | submit (time : Time) (frame : Frame)
  | train (peer : Aid) (duration : Nat) (beamforming : Allocation.Beamforming)
  | runInterval
deriving DecidableEq, Repr

def act (t : Timeline) : Action → Noted Timeline
  | .register observer => Prod.snd <$> t.register observer
  | .submit time frame => t.submit time frame
  | .train peer duration beamforming => do
      let (_, scheduler) ← t.scheduler.train peer duration beamforming
      return { t with scheduler }
  | .runInterval => t.runInterval

def actAll (t : Timeline) : List Action → Noted Timeline
  | [] => return t
  | action :: rest => do (← t.act action).actAll rest

def drive (config : Config) (actions : List Action) : Noted Timeline := do
  (← start config).actAll actions

theorem actAll_append (t : Timeline) (earlier later : List Action) :
    t.actAll (earlier ++ later) = t.actAll earlier >>= fun t => t.actAll later := by
  induction earlier generalizing t with
  | nil => simp [actAll]
  | cons action rest ih => simp [actAll, ih]

theorem drive_append (config : Config) (earlier later : List Action) :
    drive config (earlier ++ later) = drive config earlier >>= fun t => t.actAll later := by
  simp only [drive, actAll_append, bind_assoc]

theorem submit_eq_ok {frame : Frame} (submitted : (t.submit time frame).value = .ok next) :
    next = { t with arrivals := insertArrival ⟨time, frame⟩ t.arrivals } := by
  unfold submit at submitted
  split_ifs at submitted
  · exact (Except.ok.inj submitted).symm
  · exact (Except.ok.inj submitted).symm

theorem act_frame {action : Action} (tiled : t.scheduler.Tiled) (other : action ≠ .runInterval)
    (acted : (t.act action).value = .ok next) :
    next.beacon = t.beacon ∧ t.scheduler.Interim next.scheduler := by
  cases action with
  | register observer =>
      obtain ⟨_, registered⟩ := Scheduler.snd_eq_ok acted
      simp only [Timeline.register, Noted.value_bind, Noted.value_note, ok_bind,
        Noted.value_pure, Except.ok.injEq, Prod.mk.injEq] at registered
      obtain ⟨_, rfl⟩ := registered
      exact ⟨rfl, .refl tiled⟩
  | submit time frame =>
      obtain rfl := submit_eq_ok acted
      exact ⟨rfl, .refl tiled⟩
  | train peer duration beamforming =>
      simp only [act, Noted.value_bind, bind_eq_ok_iff, Noted.value_pure,
        Except.ok.injEq] at acted
      obtain ⟨⟨_, scheduler⟩, trained, rfl⟩ := acted
      exact ⟨rfl, Scheduler.train_interim tiled trained⟩
  | runInterval => exact absurd rfl other

theorem act_interim {action : Action} (sound : t.Sound) (other : action ≠ .runInterval)
    (acted : (t.act action).value = .ok next) :
    next.Sound ∧ t.scheduler.Interim next.scheduler := by
  obtain ⟨beacon, interim⟩ := act_frame sound.tiled other acted
  obtain ⟨header, fits, dti⟩ := sound.dti
  refine ⟨⟨interim.tiled, header, ?_, ?_⟩, interim⟩
  · rw [beacon, fits]
  · rw [interim.dti, beacon, dti]

theorem actAll_origin {actions : List Action} (sound : t.Sound)
    (acted : (t.actAll actions).value = .ok last) :
    last.Sound ∧ ((.runInterval ∉ actions ∧ t.scheduler.Interim last.scheduler) ∨
      ∃ before later origin shown, actions = before ++ .runInterval :: later ∧
        .runInterval ∉ later ∧ (t.actAll (before ++ [.runInterval])).value = .ok origin ∧
        origin.scheduler.Shows shown ∧ origin.scheduler.Interim last.scheduler) := by
  induction actions generalizing t with
  | nil =>
      obtain rfl := Except.ok.inj acted
      exact ⟨sound, Or.inl ⟨by simp, .refl sound.tiled⟩⟩
  | cons action rest ih =>
      simp only [actAll, Noted.value_bind, bind_eq_ok_iff] at acted
      obtain ⟨middle, first, others⟩ := acted
      by_cases runs : action = .runInterval
      · subst runs
        obtain ⟨soundMiddle, shown, shows⟩ := runInterval_shows sound first
        obtain ⟨soundLast, history⟩ := ih soundMiddle others
        refine ⟨soundLast, Or.inr ?_⟩
        rcases history with ⟨none, interim⟩ |
          ⟨before, later, origin, shownLater, rfl, none, made, showsLater, interim⟩
        · refine ⟨[], rest, middle, shown, rfl, none, ?_, shows, interim⟩
          simp only [List.nil_append, actAll, Noted.value_bind, first, ok_bind, Noted.value_pure]
        · refine ⟨.runInterval :: before, later, origin, shownLater, rfl, none, ?_, showsLater,
            interim⟩
          simp only [List.cons_append, actAll, Noted.value_bind, first, ok_bind, made]
      · obtain ⟨soundMiddle, interimFirst⟩ := act_interim sound runs first
        obtain ⟨soundLast, history⟩ := ih soundMiddle others
        refine ⟨soundLast, history.imp ?_ ?_⟩
        · rintro ⟨none, interim⟩
          refine ⟨?_, interimFirst.trans interim⟩
          simp only [List.mem_cons, not_or]
          exact ⟨fun same => runs same.symm, none⟩
        · rintro ⟨before, later, origin, shown, rfl, none, made, shows, interim⟩
          refine ⟨action :: before, later, origin, shown, rfl, none, ?_, shows, interim⟩
          simp only [List.cons_append, actAll, Noted.value_bind, first, ok_bind, made]

end Timeline
end BeaconScheduler
