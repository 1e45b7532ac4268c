import BeaconScheduler.Proofs.Delivery

/-!
# The diary of a run

The diary of a run is the list of the logs of its intervals (`diary_pages`), and what observers
are told in the run is what the logs say (`diary_tells`).  The loop that runs several intervals
is so many intervals one after the other (`value_run`); a limit and a request to stop only settle
their number.
-/

set_option autoImplicit false

namespace BeaconScheduler.Timeline

open Counter

/-- Does the actions one after another, and gives the log of each interval among them. -/
def diary (t : Timeline) : List Action → Noted (List Log × Timeline)
  | [] => return ([], t)
  | .runInterval :: rest => do
      let (log, t) ← t.watchInterval
      let (logs, t) ← t.diary rest
      return (log :: logs, t)
  | action :: rest => do (← t.act action).diary rest

variable {t next : Timeline} {log : Log} {logs : List Log} {actions rest : List Action}
  {action : Action}

theorem actAll_eq_diary (t : Timeline) (actions : List Action) :
    t.actAll actions = Prod.snd <$> t.diary actions := by
  induction actions generalizing t with
  | nil => simp [actAll, diary]
  | cons action rest ih =>
      cases action with
      | runInterval => simp [actAll, diary, act, watchInterval_eq, ih]
      | register observer => simp [actAll, diary, ih]
      | submit time frame => simp [actAll, diary, ih]
      | train peer duration beamforming => simp [actAll, diary, ih]

theorem diary_of_actAll (acted : (t.actAll actions).value = .ok next) :
    ∃ logs, (t.diary actions).value = .ok (logs, next) := by
  rw [actAll_eq_diary] at acted
  exact Scheduler.snd_eq_ok acted

theorem diary_run_iff :
    (t.diary (.runInterval :: rest)).value = .ok (logs, next) ↔
      ∃ log middle later, t.watchInterval.value = .ok (log, middle) ∧
        (middle.diary rest).value = .ok (later, next) ∧ logs = log :: later := by
  simp only [diary, Noted.value_bind, Noted.value_pure, bind_eq_ok_iff, Except.ok.injEq,
    Prod.mk.injEq]
  constructor
  · rintro ⟨⟨log, middle⟩, watched, ⟨later, _⟩, watchedRest, rfl, rfl⟩
    exact ⟨log, middle, later, watched, watchedRest, rfl⟩
  · rintro ⟨log, middle, later, watched, watchedRest, rfl⟩
    exact ⟨(log, middle), watched, (later, next), watchedRest, rfl, rfl⟩

theorem diary_other_iff (other : action ≠ .runInterval) :
    (t.diary (action :: rest)).value = .ok (logs, next) ↔
      ∃ middle, (t.act action).value = .ok middle ∧
        (middle.diary rest).value = .ok (logs, next) := by
  cases action with
  | runInterval => exact absurd rfl other
  | register observer => rw [diary, Noted.value_bind, bind_eq_ok_iff]; simp
  | submit time frame => rw [diary, Noted.value_bind, bind_eq_ok_iff]; simp
  | train peer duration beamforming => rw [diary, Noted.value_bind, bind_eq_ok_iff]; simp

theorem diary_length (watched : (t.diary actions).value = .ok (logs, next)) :
    logs.length = actions.count .runInterval := by
  induction actions generalizing t logs with
  | nil =>
      obtain ⟨rfl, _⟩ := Prod.mk.inj (Except.ok.inj watched)
      rfl
  | cons action rest ih =>
      by_cases runs : action = .runInterval
      · subst runs
        obtain ⟨_, _, _, _, watchedRest, rfl⟩ := diary_run_iff.mp watched
        rw [List.length_cons, ih watchedRest, List.count_cons_self]
      · obtain ⟨_, _, watchedRest⟩ := (diary_other_iff runs).mp watched
        rw [ih watchedRest, List.count_cons_of_ne runs]

theorem diary_pages {config : Config} {past : List Action} {k : Nat}
    (drove : (drive config past).value = .ok t)
    (watched : (t.diary actions).value = .ok (logs, next)) (page : logs[k]? = some log) :
    ∃ before later begun ended, actions = before ++ .runInterval :: later ∧
      before.count .runInterval = k ∧ (drive config (past ++ before)).value = .ok begun ∧
      begun.watchInterval.value = .ok (log, ended) := by
  induction actions generalizing t past logs k with
  | nil =>
      obtain ⟨rfl, _⟩ := Prod.mk.inj (Except.ok.inj watched)
      cases page
  | cons action rest ih =>
      have further : ∀ {middle : Timeline}, (t.act action).value = .ok middle →
          (drive config (past ++ [action])).value = .ok middle := fun acted => by
        simp only [drive_append, actAll, bind_pure, Noted.value_bind, drove, ok_bind, acted]
      by_cases runs : action = .runInterval
      · subst runs
        obtain ⟨first, middle, others, own, watchedRest, rfl⟩ := diary_run_iff.mp watched
        have acted : (t.act .runInterval).value = .ok middle := by
          rw [act, watchInterval_eq, Noted.value_map, own]
          rfl
        cases k with
        | zero =>
            obtain rfl := Option.some.inj page
            exact ⟨[], rest, t, middle, rfl, rfl, by rwa [List.append_nil], own⟩
        | succ k =>
            obtain ⟨before, later, begun, ended, rfl, index, reached, heard⟩ :=
              ih (further acted) watchedRest page
            refine ⟨.runInterval :: before, later, begun, ended, rfl, ?_, ?_, heard⟩
            · rw [List.count_cons_self, index]
            · rwa [List.append_assoc] at reached
      · obtain ⟨middle, acted, watchedRest⟩ := (diary_other_iff runs).mp watched
        obtain ⟨before, later, begun, ended, rfl, index, reached, heard⟩ :=
          ih (further acted) watchedRest page
        refine ⟨action :: before, later, begun, ended, rfl, ?_, ?_, heard⟩
        · rw [List.count_cons_of_ne runs, index]
        · rwa [List.append_assoc] at reached

/-! ## What observers are told -/

theorem actAll_registrations (t : Timeline) (observers : List Observer) :
    (t.actAll (observers.map .register)).value =
      .ok { t with observers := t.observers ++ observers } := by
  induction observers generalizing t with
  | nil => rw [List.append_nil]; rfl
  | cons observer rest ih =>
      have own : (t.act (.register observer)).value =
          .ok { t with observers := t.observers ++ [observer] } := by
        simp only [act, Noted.value_map, Timeline.register, Noted.value_bind, Noted.value_note,
          ok_bind, Noted.value_pure, Except.map]
      rw [List.map_cons, actAll, Noted.value_bind, own, ok_bind, ih, List.append_assoc]
      rfl

theorem drive_registrations_iff {config : Config} {observers : List Observer} {fresh : Timeline} :
    (drive config (observers.map .register)).value = .ok fresh ↔
      ∃ scheduler, (Scheduler.start config).value = .ok scheduler ∧
        fresh = {
          beacon := config.beacon
          scheduler
          observers
          arrivals := []
          now := 0
          intervals := 0
          outbox := [] } := by
  simp only [drive, start, Noted.value_bind, Noted.value_pure, bind_eq_ok_iff,
    actAll_registrations, Except.ok.injEq]
  constructor
  · rintro ⟨_, ⟨scheduler, started, rfl⟩, rfl⟩
    exact ⟨scheduler, started, rfl⟩
  · rintro ⟨scheduler, started, rfl⟩
    exact ⟨_, ⟨scheduler, started, rfl⟩, rfl⟩

def Action.registers : Action → Bool
  | .register _ => true
  | _ => false

theorem act_tells (settled : action.registers = false) (other : action ≠ .runInterval)
    (acted : (t.act action).value = .ok next) : Tells t [] next := by
  cases action with
  | register observer => cases settled
  | submit time frame =>
      obtain rfl := submit_eq_ok acted
      exact ⟨rfl, (List.append_nil _).symm⟩
  | train peer duration beamforming =>
      simp only [act, Noted.value_bind, bind_eq_ok_iff, Noted.value_pure,
        Except.ok.injEq] at acted
      obtain ⟨_, _, rfl⟩ := acted
      exact ⟨rfl, (List.append_nil _).symm⟩
  | runInterval => exact absurd rfl other

theorem diary_tells (settled : ∀ action ∈ actions, action.registers = false)
    (watched : (t.diary actions).value = .ok (logs, next)) : Tells t logs.flatten next := by
  induction actions generalizing t logs with
  | nil =>
      obtain ⟨rfl, rfl⟩ := Prod.mk.inj (Except.ok.inj watched)
      exact ⟨rfl, (List.append_nil _).symm⟩
  | cons action rest ih =>
      obtain ⟨own, others⟩ := List.forall_mem_cons.mp settled
      by_cases runs : action = .runInterval
      · subst runs
        obtain ⟨_, _, _, first, watchedRest, rfl⟩ := diary_run_iff.mp watched
        exact (watchInterval_tells first).append (ih others watchedRest)
      · obtain ⟨_, acted, watchedRest⟩ := (diary_other_iff runs).mp watched
        exact (act_tells own runs acted).append (ih others watchedRest)

/-! ## Several intervals -/

/-- How many intervals a loop runs, of at most `left` after the first `ran`. -/
def turns (stopAfter : Option Nat) (left ran : Nat) : Nat :=
  match stopAfter with
  | none => left
  | some bound => min left (bound - ran)

theorem turns_of_stop {stopAfter : Option Nat} {left ran : Nat}
    (stops : stopAfter.any (· ≤ ran) = true) : turns stopAfter left ran = 0 := by
  cases stopAfter with
  | none => cases stops
  | some bound =>
      have reached : bound ≤ ran := of_decide_eq_true stops
      rw [turns, Nat.sub_eq_zero_of_le reached, Nat.min_zero]

theorem turns_succ {stopAfter : Option Nat} {left ran : Nat}
    (goesOn : ¬ stopAfter.any (· ≤ ran) = true) :
    turns stopAfter (left + 1) ran = turns stopAfter left (ran + 1) + 1 := by
  cases stopAfter with
  | none => rfl
  | some bound =>
      have ahead : ¬ bound ≤ ran := fun reached => goesOn (decide_eq_true reached)
      simp only [turns]
      omega

theorem value_runLoop (stopAfter : Option Nat) (left ran : Nat) (t : Timeline) :
    (runLoop stopAfter left ran t).value =
      (t.actAll (List.replicate (turns stopAfter left ran) .runInterval)).value.map
        fun next => (ran + turns stopAfter left ran, next) := by
  induction left generalizing ran t with
  | zero =>
      have none : turns stopAfter 0 ran = 0 := by
        cases stopAfter with
        | none => rfl
        | some bound => exact Nat.zero_min _
      rw [none]
      rfl
  | succ left ih =>
      unfold runLoop
      by_cases stops : stopAfter.any (· ≤ ran) = true
      · rw [if_pos stops, turns_of_stop stops]
        rfl
      · rw [if_neg stops, turns_succ stops, List.replicate_succ, actAll, act, Noted.value_bind,
          Noted.value_bind]
        cases t.runInterval.value with
        | error fault => rfl
        | ok middle =>
            rw [ok_bind, ok_bind, ih, Nat.add_assoc, Nat.add_comm 1]

def rounds (limit stopAfter : Option Nat) : Nat :=
  turns stopAfter (limit.elim endOfTime (max · 1)) 0

theorem value_run (t : Timeline) (limit stopAfter : Option Nat) :
    (t.run limit stopAfter).value =
      (t.actAll (List.replicate (rounds limit stopAfter) .runInterval)).value.map
        fun next => (rounds limit stopAfter, next) := by
  cases limit with
  | none =>
      rw [run, value_runLoop, Nat.zero_add]
      rfl
  | some count =>
      rw [run, value_runLoop, Nat.zero_add]
      rfl

theorem run_eq_ok_iff {limit stopAfter : Option Nat} {ran : Nat} :
    (t.run limit stopAfter).value = .ok (ran, next) ↔
      (t.actAll (List.replicate (rounds limit stopAfter) .runInterval)).value = .ok next ∧
        ran = rounds limit stopAfter := by
  rw [value_run]
  cases (t.actAll (List.replicate (rounds limit stopAfter) .runInterval)).value with
  | error fault => simp [Except.map]
  | ok last => simp [Except.map, and_comm, eq_comm]

end BeaconScheduler.Timeline
