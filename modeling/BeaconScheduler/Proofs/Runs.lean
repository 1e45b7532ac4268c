import BeaconScheduler.Proofs.Upkeep

/-!
# Runs of the scheduler

A run performs commands one after another on a started scheduler, in any order and at any
times.  One command keeps the airtime tiled, and either keeps what is published or publishes
the schedule of the airtime it leaves (`perform_step`).  Hence every run keeps the partition
of the DTI (`run_tiled`).
-/

set_option autoImplicit false

namespace BeaconScheduler

open Counter

namespace Scheduler

/-- What can be asked of a scheduler; the last group works on its airtime directly. -/
inductive Command where
  | startInterval (now : Time) (coordinator : Aid) (interval header announcement : Nat)
  | handle (now : Time) (change : PhaseChange)
  | request (now : Time) (source : Aid) (spec : TrafficSpec)
  | delete (now : Time) (key : Allocation.Key)
  | train (peer : Aid) (duration : Nat) (beamforming : Allocation.Beamforming)
  | takeResponses
  | reserve (a : Allocation)
  | reserveBlock (key : Allocation.Key) (kind : Allocation.Kind) (isStatic : Bool)
      (start duration : Nat)
  | reserveBlocks (key : Allocation.Key) (kind : Allocation.Kind) (isStatic : Bool)
      (start duration blocks : Nat)
  | reserveCbap (isStatic : Bool) (start duration : Nat)
  | reserveWholeDti (key : Allocation.Key)
  | reserveTraining (source dest : Aid) (duration : Nat) (beamforming : Allocation.Beamforming)
deriving DecidableEq, Repr

def perform (s : Scheduler) : Command → Noted Scheduler
  | .startInterval now coordinator interval header announcement =>
      Prod.snd <$> s.startInterval now coordinator interval header announcement
  | .handle now change => Prod.snd <$> s.handle now change
  | .request now source spec => s.request now source spec
  | .delete now key => Prod.snd <$> s.delete now key
  | .train peer duration beamforming => Prod.snd <$> s.train peer duration beamforming
  | .takeResponses => pure s.takeResponses.2
  | .reserve a => Prod.snd <$> s.lend fun terms => Airtime.reserve terms a
  | .reserveBlock key kind isStatic start duration =>
      Prod.snd <$> s.lend fun terms => Airtime.reserveBlock terms key kind isStatic start duration
  | .reserveBlocks key kind isStatic start duration blocks =>
      Prod.snd <$> s.lend fun terms =>
        Airtime.reserveBlocks terms key kind isStatic start duration blocks
  | .reserveCbap isStatic start duration =>
      Prod.snd <$> s.lend fun terms => Airtime.reserveCbap terms isStatic start duration
  | .reserveWholeDti key => Prod.snd <$> s.lend fun terms => Airtime.reserveWholeDti terms key
  | .reserveTraining source dest duration beamforming =>
      Prod.snd <$> s.lend fun terms =>
        Airtime.reserveTraining terms source dest duration beamforming

def performAll (s : Scheduler) : List Command → Noted Scheduler
  | [] => return s
  | command :: rest => do (← s.perform command).performAll rest

def run (config : Config) (commands : List Command) : Noted Scheduler := do
  (← start config).performAll commands

/-! ## One command -/

variable {s next : Scheduler} {now : Time}

/-- The airtime of a scheduler divides its DTI. -/
def Tiled (s : Scheduler) : Prop :=
  s.air.Tiled s.limits.guard s.timing.dti

/-- The published schedule is that of `shown`, which is also the airtime apart from the marks of
allocations that have been announced. -/
structure Shows (s : Scheduler) (shown : Airtime) : Prop where
  tiled : shown.Tiled s.limits.guard s.timing.dti
  air : s.air = shown.announced
  published : s.published = shown.schedule
  remaining : s.remaining = shown.slots.freeTime

theorem Shows.scheduler_tiled {shown : Airtime} (shows : s.Shows shown) : s.Tiled := by
  rw [Tiled, shows.air]
  exact shows.tiled.announced

structure Keeps (s next : Scheduler) : Prop where
  tiled : next.Tiled
  dti : next.timing.dti = s.timing.dti
  published : next.published = s.published
  remaining : next.remaining = s.remaining

/-- What a command does: limits and policy stay, the schedule is kept or made anew. -/
structure Step (s next : Scheduler) : Prop where
  limits : next.limits = s.limits
  policy : next.policy = s.policy
  schedule : s.Keeps next ∨ ∃ shown, next.Shows shown

theorem Step.tiled (step : s.Step next) : next.Tiled := by
  rcases step.schedule with keeps | ⟨shown, shows⟩
  · exact keeps.tiled
  · exact shows.scheduler_tiled

theorem step_of_air {air : Airtime} (tiled : air.Tiled s.limits.guard s.timing.dti) :
    s.Step { s with air } :=
  ⟨rfl, rfl, Or.inl ⟨tiled, rfl, rfl, rfl⟩⟩

theorem lend_eq_ok {α : Type} {use : Terms → Airtime → Noted (α × Airtime)} {result : α}
    (lent : (s.lend use).value = .ok (result, next)) :
    ∃ air, (use s.terms s.air).value = .ok (result, air) ∧ next = { s with air } := by
  simp only [lend, Noted.value_bind, bind_eq_ok_iff, Noted.value_pure, Except.ok.injEq,
    Prod.mk.injEq] at lent
  obtain ⟨⟨_, air⟩, used, rfl, rfl⟩ := lent
  exact ⟨air, used, rfl⟩

theorem lend_step {α : Type} {use : Terms → Airtime → Noted (α × Airtime)} {result : α}
    (preserves : ∀ air, (use s.terms s.air).value = .ok (result, air) →
      air.Tiled s.limits.guard s.timing.dti)
    (lent : (s.lend use).value = .ok (result, next)) : s.Step next := by
  obtain ⟨air, used, rfl⟩ := lend_eq_ok lent
  exact step_of_air (preserves air used)

theorem startInterval_step {coordinator : Aid} {interval header announcement : Nat}
    {wakeup : Wakeup} (tiled : s.Tiled)
    (started : (s.startInterval now coordinator interval header announcement).value =
      .ok (wakeup, next)) : s.Step next := by
  rcases startInterval_eq_ok tiled started with ⟨same, rfl⟩ | ⟨air, _, tiledAir, rfl⟩
  · refine ⟨rfl, rfl, Or.inl ⟨?_, same, rfl, rfl⟩⟩
    dsimp only [Tiled]
    rw [same]
    exact tiled
  · exact ⟨rfl, rfl, Or.inr ⟨air, tiledAir, rfl, rfl, rfl⟩⟩

/-- The change that was handed out last, and is possible in the phase. -/
structure Awaits (s : Scheduler) (wakeup : Wakeup) : Prop where
  pending : s.pending = some wakeup
  allowed : s.phase.allows wakeup.change = true

def changesLeft : PhaseChange → Nat
  | .announcementStart => 3
  | .dataTransferStart => 2
  | .intervalEnd => 1

theorem handle_cases {change : PhaseChange} {result : Option Wakeup}
    (handled : (s.handle now change).value = .ok (result, next)) :
    (next = s ∧ ∀ time, time ≤ now → ¬ s.Awaits ⟨time, change⟩) ∨
      (∃ follows phase timing, result = some follows ∧ phase.allows follows.change = true ∧
        changesLeft follows.change < changesLeft change ∧ timing.dti = s.timing.dti ∧
        timing.interval = s.timing.interval ∧
        next = { s with phase, timing, pending := some follows }) ∨
      (result = none ∧ ∃ ended, (s.endInterval now).value = .ok ended ∧
        next = { ended with pending := none }) := by
  unfold handle at handled
  cases awaited : s.pending with
  | none =>
      simp only [awaited, Noted.value_bind, Noted.value_noteAt, ok_bind, Noted.value_pure,
        Except.ok.injEq, Prod.mk.injEq] at handled
      refine Or.inl ⟨handled.2.symm, fun time _ awaits => ?_⟩
      rw [awaits.pending] at awaited
      cases awaited
  | some pending =>
      simp only [awaited] at handled
      split_ifs at handled with ignored
      · simp only [Noted.value_bind, Noted.value_noteAt, ok_bind, Noted.value_pure,
          Except.ok.injEq, Prod.mk.injEq] at handled
        refine Or.inl ⟨handled.2.symm, fun time passed awaits => ?_⟩
        obtain rfl := Option.some.inj (awaits.pending.symm.trans awaited)
        rcases ignored with other | early | impossible
        · exact other rfl
        · exact absurd passed (Nat.not_le.mpr early)
        · exact impossible awaits.allowed
      · refine Or.inr ?_
        cases change with
        | announcementStart =>
            simp only [startAnnouncement, Noted.value_bind, Noted.value_noteAt, ok_bind,
              Noted.value_lift, Noted.value_pure, bind_eq_ok_iff, Except.ok.injEq,
              Prod.mk.injEq] at handled
            obtain ⟨_, ⟨time, _, rfl⟩, rfl, rfl⟩ := handled
            exact Or.inl ⟨⟨time, .dataTransferStart⟩, .announcement,
              { s.timing with announcementStart := some now }, rfl, rfl,
              Nat.lt_succ_self _, rfl, rfl, rfl⟩
        | dataTransferStart =>
            simp only [startDataTransfer, Noted.value_bind, Noted.value_noteAt, ok_bind,
              Noted.value_lift, Noted.value_pure, bind_eq_ok_iff, Except.ok.injEq,
              Prod.mk.injEq] at handled
            obtain ⟨_, ⟨time, _, rfl⟩, rfl, rfl⟩ := handled
            exact Or.inl ⟨⟨time, .intervalEnd⟩, .dataTransfer,
              { s.timing with dataTransferStart := some now }, rfl, rfl,
              Nat.lt_succ_self _, rfl, rfl, rfl⟩
        | intervalEnd =>
            simp only [Noted.value_bind, bind_eq_ok_iff, Noted.value_pure, Except.ok.injEq,
              Prod.mk.injEq] at handled
            obtain ⟨ended, ends, rfl, rfl⟩ := handled
            exact Or.inr ⟨rfl, ended, ends, rfl⟩

theorem handle_step {change : PhaseChange} {result : Option Wakeup} (tiled : s.Tiled)
    (handled : (s.handle now change).value = .ok (result, next)) : s.Step next := by
  rcases handle_cases handled with
    ⟨rfl, _⟩ | ⟨follows, phase, timing, _, _, _, same, _, rfl⟩ | ⟨_, ended, ends, rfl⟩
  · exact step_of_air tiled
  · refine ⟨rfl, rfl, Or.inl ⟨?_, same, rfl, rfl⟩⟩
    dsimp only [Tiled]
    rw [same]
    exact tiled
  · obtain ⟨_, air, _, _, _, _, _, tiledAir, rfl⟩ := endInterval_eq_ok tiled ends
    exact ⟨rfl, rfl, Or.inr ⟨air, tiledAir, rfl, rfl, rfl⟩⟩

theorem delete_cases {key : Allocation.Key} {response : DeletionResponse} (tiled : s.Tiled)
    (deleted : (s.delete now key).value = .ok (response, next)) :
    (s.air.registry.find? key = none ∧ next = s) ∨
      ∃ a slots statistics, s.air.registry.find? key = some a ∧
        Tiling s.limits.guard s.timing.dti slots (s.air.registry.erase key) ∧
        next = { s with air := ⟨s.air.registry.erase key, slots⟩, statistics } := by
  unfold delete at deleted
  cases found : s.air.registry.find? key with
  | none =>
      simp only [found, Noted.value_bind, Noted.value_noteAt, ok_bind, Noted.value_pure,
        Except.ok.injEq, Prod.mk.injEq] at deleted
      exact Or.inl ⟨rfl, deleted.2.symm⟩
  | some a =>
      obtain ⟨slots, given, tilingRest⟩ := (tiled.owes found).giveBack s.terms
        { s.air with registry := s.air.registry.erase key }
      simp only [found, Noted.value_bind, Noted.value_note, Noted.value_noteAt, ok_bind, given,
        Noted.value_pure, Except.ok.injEq, Prod.mk.injEq] at deleted
      exact Or.inr ⟨a, slots, _, rfl, tilingRest, deleted.2.symm⟩

theorem train_reserves {peer : Aid} {duration : Nat} {beamforming : Allocation.Beamforming}
    {start : Option Nat} (trained : (s.train peer duration beamforming).value = .ok (start, next)) :
    ∃ result air, (s.air.reserveTraining s.terms s.coordinator peer duration beamforming).value =
      .ok (result, air) ∧ next = { s with air } := by
  simp only [train, Noted.value_bind, bind_eq_ok_iff] at trained
  obtain ⟨⟨result, after⟩, lent, trained⟩ := trained
  obtain ⟨air, reserved, rfl⟩ := lend_eq_ok lent
  refine ⟨result, air, reserved, ?_⟩
  cases result with
  | error e => exact (Prod.mk.inj (Except.ok.inj trained)).2.symm
  | ok first => exact (Prod.mk.inj (Except.ok.inj trained)).2.symm

theorem train_cases {peer : Aid} {duration : Nat} {beamforming : Allocation.Beamforming}
    {start : Option Nat} (trained : (s.train peer duration beamforming).value = .ok (start, next)) :
    next = s ∨ ∃ first air,
      s.air.Adds s.limits.guard
        (Airtime.training s.coordinator peer first duration beamforming) air ∧
      next = { s with air } := by
  obtain ⟨result, air, reserved, rfl⟩ := train_reserves trained
  rcases Airtime.reserveTraining_cases reserved with ⟨e, rfl, rfl⟩ | ⟨first, rfl, adds⟩
  · exact Or.inl rfl
  · exact Or.inr ⟨first, air, adds, rfl⟩

theorem exists_ok {α β : Type} {x : Except Fault α} {f : α → β} {b : β}
    (found : x.toOption.map f = some b) : ∃ a, x = .ok a ∧ f a = b := by
  obtain ⟨a, own, same⟩ := Option.map_eq_some_iff.mp found
  exact ⟨a, toOption_eq_some_iff.mp own, same⟩

theorem snd_eq_ok {α β : Type} {x : Noted (α × β)} {b : β}
    (mapped : (Prod.snd <$> x).value = .ok b) : ∃ a, x.value = .ok (a, b) := by
  rw [Noted.value_map] at mapped
  cases value : x.value with
  | error fault => simp [value, Except.map] at mapped
  | ok pair =>
      obtain ⟨a, c⟩ := pair
      simp only [value, Except.map, Except.ok.injEq] at mapped
      subst mapped
      exact ⟨a, rfl⟩

theorem perform_step {command : Command} (tiled : s.Tiled)
    (performed : (s.perform command).value = .ok next) : s.Step next := by
  have reserving : ∀ {a result air}, (s.air.reserve s.terms a).value = .ok (result, air) →
      air.Tiled s.limits.guard s.timing.dti := fun reserved =>
    Airtime.Tiled.reserve s.terms tiled reserved
  cases command with
  | startInterval now coordinator interval header announcement =>
      obtain ⟨_, started⟩ := snd_eq_ok performed
      exact startInterval_step tiled started
  | handle now change =>
      obtain ⟨_, handled⟩ := snd_eq_ok performed
      exact handle_step tiled handled
  | request now source spec =>
      obtain rfl := Except.ok.inj performed
      exact ⟨rfl, rfl, Or.inl ⟨tiled, rfl, rfl, rfl⟩⟩
  | delete now key =>
      obtain ⟨_, deleted⟩ := snd_eq_ok performed
      rcases delete_cases tiled deleted with ⟨_, rfl⟩ | ⟨_, slots, _, _, tiling, rfl⟩
      · exact step_of_air tiled
      · exact ⟨rfl, rfl, Or.inl ⟨tiling, rfl, rfl, rfl⟩⟩
  | train peer duration beamforming =>
      obtain ⟨_, trained⟩ := snd_eq_ok performed
      rcases train_cases trained with rfl | ⟨_, air, adds, rfl⟩
      · exact step_of_air tiled
      · exact step_of_air (tiled.add adds)
  | takeResponses =>
      obtain rfl := Except.ok.inj performed
      exact ⟨rfl, rfl, Or.inl ⟨tiled, rfl, rfl, rfl⟩⟩
  | reserve a =>
      obtain ⟨_, lent⟩ := snd_eq_ok performed
      exact lend_step (fun _ reserved => reserving reserved) lent
  | reserveBlock key kind isStatic start duration =>
      obtain ⟨_, lent⟩ := snd_eq_ok performed
      exact lend_step (fun _ reserved => reserving reserved) lent
  | reserveBlocks key kind isStatic start duration blocks =>
      obtain ⟨_, lent⟩ := snd_eq_ok performed
      exact lend_step (fun _ reserved => reserving reserved) lent
  | reserveCbap isStatic start duration =>
      obtain ⟨_, lent⟩ := snd_eq_ok performed
      exact lend_step (fun _ reserved => reserving reserved) lent
  | reserveWholeDti key =>
      obtain ⟨_, lent⟩ := snd_eq_ok performed
      exact lend_step (fun _ reserved =>
        Airtime.Tiled.reserveWholeDti s.terms tiled reserved) lent
  | reserveTraining source dest duration beamforming =>
      obtain ⟨_, lent⟩ := snd_eq_ok performed
      obtain ⟨air, reserved, rfl⟩ := lend_eq_ok lent
      exact step_of_air (Airtime.Tiled.reserveTraining s.terms tiled reserved)

theorem perform_cases {command : Command} (tiled : s.Tiled)
    (performed : (s.perform command).value = .ok next) :
    (∃ now coordinator interval header announcement wakeup,
      command = .startInterval now coordinator interval header announcement ∧
      (s.startInterval now coordinator interval header announcement).value =
        .ok (wakeup, next)) ∨
    (∃ now change result, command = .handle now change ∧
      (s.handle now change).value = .ok (result, next)) ∨
    (next.timing = s.timing ∧ ∀ response ∈ next.responses, response ∈ s.responses) := by
  have lending : ∀ {α : Type} {use : Terms → Airtime → Noted (α × Airtime)},
      (Prod.snd <$> s.lend use).value = .ok next →
        next.timing = s.timing ∧ ∀ response ∈ next.responses, response ∈ s.responses := by
    intro α use lent
    obtain ⟨_, lent⟩ := snd_eq_ok lent
    obtain ⟨_, _, rfl⟩ := lend_eq_ok lent
    exact ⟨rfl, fun _ member => member⟩
  cases command with
  | startInterval now coordinator interval header announcement =>
      obtain ⟨wakeup, started⟩ := snd_eq_ok performed
      exact Or.inl ⟨now, coordinator, interval, header, announcement, wakeup, rfl, started⟩
  | handle now change =>
      obtain ⟨result, handled⟩ := snd_eq_ok performed
      exact Or.inr (Or.inl ⟨now, change, result, rfl, handled⟩)
  | request now source spec =>
      obtain rfl := Except.ok.inj performed
      exact Or.inr (Or.inr ⟨rfl, fun _ member => member⟩)
  | delete now key =>
      obtain ⟨_, deleted⟩ := snd_eq_ok performed
      rcases delete_cases tiled deleted with ⟨_, rfl⟩ | ⟨_, _, _, _, _, rfl⟩
      · exact Or.inr (Or.inr ⟨rfl, fun _ member => member⟩)
      · exact Or.inr (Or.inr ⟨rfl, fun _ member => member⟩)
  | train peer duration beamforming =>
      obtain ⟨_, trained⟩ := snd_eq_ok performed
      rcases train_cases trained with rfl | ⟨_, _, _, rfl⟩
      · exact Or.inr (Or.inr ⟨rfl, fun _ member => member⟩)
      · exact Or.inr (Or.inr ⟨rfl, fun _ member => member⟩)
  | takeResponses =>
      obtain rfl := Except.ok.inj performed
      exact Or.inr (Or.inr ⟨rfl, fun _ member => absurd member List.not_mem_nil⟩)
  | reserve a => exact Or.inr (Or.inr (lending performed))
  | reserveBlock key kind isStatic start duration => exact Or.inr (Or.inr (lending performed))
  | reserveBlocks key kind isStatic start duration blocks =>
      exact Or.inr (Or.inr (lending performed))
  | reserveCbap isStatic start duration => exact Or.inr (Or.inr (lending performed))
  | reserveWholeDti key => exact Or.inr (Or.inr (lending performed))
  | reserveTraining source dest duration beamforming =>
      exact Or.inr (Or.inr (lending performed))

/-! ## Whole runs -/

theorem performAll_tiled {commands : List Command} (tiled : s.Tiled)
    (performed : (s.performAll commands).value = .ok next) :
    next.Tiled ∧ next.limits = s.limits ∧ next.policy = s.policy := by
  induction commands generalizing s with
  | nil =>
      obtain rfl := Except.ok.inj performed
      exact ⟨tiled, rfl, rfl⟩
  | cons command rest ih =>
      simp only [performAll, Noted.value_bind, bind_eq_ok_iff] at performed
      obtain ⟨middle, first, others⟩ := performed
      have step := perform_step tiled first
      obtain ⟨tiledNext, limits, policy⟩ := ih step.tiled others
      exact ⟨tiledNext, limits.trans step.limits, policy.trans step.policy⟩

theorem run_eq_ok {config : Config} {commands : List Command}
    (ran : (run config commands).value = .ok s) :
    ∃ first, (start config).value = .ok first ∧ (first.performAll commands).value = .ok s := by
  rw [run, Noted.value_bind] at ran
  exact bind_eq_ok_iff.mp ran

theorem start_shows {config : Config} (started : (start config).value = .ok s) :
    ∃ shown, s.Shows shown := by
  obtain ⟨_, _, _, _, _, _, air, tiled, marked, published, remaining⟩ := start_eq_ok started
  exact ⟨air, tiled, marked, published, remaining⟩

theorem run_tiled {config : Config} {commands : List Command}
    (ran : (run config commands).value = .ok s) :
    s.Tiled ∧ s.limits = config.limits ∧ s.policy = config.policy := by
  obtain ⟨first, started, performed⟩ := run_eq_ok ran
  obtain ⟨shown, shows⟩ := start_shows started
  obtain ⟨_, limits, policy, _⟩ := start_eq_ok started
  obtain ⟨tiled, limitsKept, policyKept⟩ := performAll_tiled shows.scheduler_tiled performed
  exact ⟨tiled, limitsKept.trans limits, policyKept.trans policy⟩

theorem run_induction {config : Config} {motive : Scheduler → Prop} {Admitted : Command → Prop}
    (initial : ∀ s, (start config).value = .ok s → motive s)
    (preserved : ∀ s next command, s.Tiled → motive s → Admitted command →
      (s.perform command).value = .ok next → motive next)
    {commands : List Command} (admitted : ∀ command ∈ commands, Admitted command)
    (ran : (run config commands).value = .ok s) : motive s := by
  obtain ⟨first, started, performed⟩ := run_eq_ok ran
  obtain ⟨shown, shows⟩ := start_shows started
  have tiled := shows.scheduler_tiled
  have holds := initial first started
  clear started shows ran
  induction commands generalizing first with
  | nil =>
      obtain rfl := Except.ok.inj performed
      exact holds
  | cons command rest ih =>
      obtain ⟨own, others⟩ := List.forall_mem_cons.mp admitted
      simp only [performAll, Noted.value_bind, bind_eq_ok_iff] at performed
      obtain ⟨middle, once, performed⟩ := performed
      exact ih others middle performed (perform_step tiled once).tiled
        (preserved first middle command tiled holds own once)

/-- In every state of every run, free slots and occupied intervals divide the DTI. -/
theorem run_divides {config : Config} {commands : List Command}
    (ran : (run config commands).value = .ok s) :
    ∃ occupied, s.air.Divides config.limits.guard s.timing.dti occupied := by
  obtain ⟨tiled, limits, _⟩ := run_tiled ran
  rw [← limits]
  exact tiled.divides

/-- A static contention period, four blocks for a station, and a training period that is
deleted again. -/
def mixedRun : Noted Scheduler :=
  run { statics := [⟨⟨9, 0, 255⟩, .cbap, 0, 5000, 1⟩] }
    [.startInterval 0 0 102400 1000 0,
      .request 500 7 ⟨3, .servicePeriod, false, 4, .asynchronous, 2000, 2000, 4, false⟩,
      .handle 1000 .dataTransferStart,
      .train 2 3000 ⟨true, false⟩,
      .handle 102400 .intervalEnd,
      .delete 102500 ⟨0, 0, 2⟩]

theorem mixedRun_divides :
    ∃ s occupied, mixedRun.value = .ok s ∧ s.air.registry.length = 2 ∧
      s.air.slots.slots.length = 5 ∧ s.air.Divides 10 s.timing.dti occupied := by
  obtain ⟨s, ran, counts⟩ := exists_ok (x := mixedRun.value) (b := (2, 5))
    (f := fun s => (s.air.registry.length, s.air.slots.slots.length)) (by decide +kernel)
  obtain ⟨registered, free⟩ := Prod.mk.inj counts
  obtain ⟨occupied, divides⟩ := run_divides ran
  exact ⟨s, occupied, ran, registered, free, divides⟩

end Scheduler
end BeaconScheduler
