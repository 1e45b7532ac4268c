import BeaconScheduler.Proofs.Runs

/-!
# Histories

A run only keeps the last scheduler.  The history of a run also keeps, command by command, the
scheduler that was asked and what it answered.  It is the same run (`performAll_eq`), and a
property of histories is proved command by command (`history_induction`).
-/

set_option autoImplicit false

namespace BeaconScheduler

open Counter

namespace Scheduler

inductive Answer where
  | nothing
  | wakeup (next : Option Wakeup)
  | deletion (response : DeletionResponse)
  | admissions (responses : List AdmissionResponse)
deriving DecidableEq, Repr

def ask (s : Scheduler) : Command → Noted (Answer × Scheduler)
  | .startInterval now coordinator interval header announcement => do
      let (next, s) ← s.startInterval now coordinator interval header announcement
      return (.wakeup next, s)
  | .handle now change => do
      let (next, s) ← s.handle now change
      return (.wakeup next, s)
  | .delete now key => do
      let (response, s) ← s.delete now key
      return (.deletion response, s)
  | .takeResponses => pure (.admissions s.takeResponses.1, s.takeResponses.2)
  | command => do return (.nothing, ← s.perform command)

structure Moment where
  before : Scheduler
  command : Command
  answer : Answer
deriving DecidableEq, Repr

def record (s : Scheduler) : List Command → Noted (List Moment × Scheduler)
  | [] => return ([], s)
  | command :: rest => do
      let (answer, next) ← s.ask command
      let (later, last) ← next.record rest
      return (⟨s, command, answer⟩ :: later, last)

/-- A run from the start of a scheduler on, with all its moments. -/
def history (config : Config) (commands : List Command) : Noted (List Moment × Scheduler) := do
  (← start config).record commands

variable {s next last : Scheduler} {now : Time} {command : Command} {answer : Answer}
  {commands : List Command} {moments : List Moment} {config : Config}

/-! ## Histories and runs -/

theorem perform_eq (s : Scheduler) (command : Command) :
    s.perform command = Prod.snd <$> s.ask command := by
  cases command <;> simp [ask, perform]

theorem performAll_eq (s : Scheduler) (commands : List Command) :
    s.performAll commands = Prod.snd <$> s.record commands := by
  induction commands generalizing s with
  | nil => simp [performAll, record]
  | cons command rest ih => simp [performAll, record, perform_eq, ih]

theorem run_eq_history (config : Config) (commands : List Command) :
    run config commands = Prod.snd <$> history config commands := by
  simp [run, history, performAll_eq]

theorem perform_of_ask (asked : (s.ask command).value = .ok (answer, next)) :
    (s.perform command).value = .ok next := by
  rw [perform_eq, Noted.value_map, asked]
  rfl

theorem record_cons_eq_ok_iff :
    (s.record (command :: commands)).value = .ok (moments, last) ↔
      ∃ answer next later, (s.ask command).value = .ok (answer, next) ∧
        (next.record commands).value = .ok (later, last) ∧
        moments = ⟨s, command, answer⟩ :: later := by
  simp only [record, Noted.value_bind, Noted.value_pure, bind_eq_ok_iff, Except.ok.injEq,
    Prod.mk.injEq]
  constructor
  · rintro ⟨⟨answer, next⟩, asked, ⟨later, _⟩, recorded, rfl, rfl⟩
    exact ⟨answer, next, later, asked, recorded, rfl⟩
  · rintro ⟨answer, next, later, asked, recorded, rfl⟩
    exact ⟨(answer, next), asked, (later, last), recorded, rfl, rfl⟩

/-- What holds of a history so far, and after one more command if it held before, holds at the
end, and held at each moment on the way. -/
theorem record_induction {motive : List Moment → Scheduler → Prop}
    (preserved : ∀ past s command answer next, s.Tiled → motive past s →
      (s.ask command).value = .ok (answer, next) →
        motive (past ++ [⟨s, command, answer⟩]) next)
    (past : List Moment) (tiled : s.Tiled) (holds : motive past s)
    (recorded : (s.record commands).value = .ok (moments, last)) :
    motive (past ++ moments) last ∧
      ∀ earlier m later, moments = earlier ++ m :: later →
        motive (past ++ earlier) m.before ∧ m.before.Tiled := by
  induction commands generalizing s moments past with
  | nil =>
      obtain ⟨rfl, rfl⟩ := Prod.mk.inj (Except.ok.inj recorded)
      rw [List.append_nil]
      refine ⟨holds, ?_⟩
      intro earlier m later split
      simp at split
  | cons command rest ih =>
      obtain ⟨answer, next, others, asked, recordedRest, rfl⟩ := record_cons_eq_ok_iff.mp recorded
      have tiledNext := (perform_step tiled (perform_of_ask asked)).tiled
      obtain ⟨final, onTheWay⟩ := ih (past ++ [⟨s, command, answer⟩]) tiledNext
        (preserved past s command answer next tiled holds asked) recordedRest
      rw [List.append_assoc, List.singleton_append] at final
      refine ⟨final, ?_⟩
      intro earlier m later split
      rcases List.cons_eq_append_iff.mp split with ⟨rfl, same⟩ | ⟨between, rfl, splitRest⟩
      · obtain ⟨rfl, rfl⟩ := List.cons.inj same
        rw [List.append_nil]
        exact ⟨holds, tiled⟩
      · have reached := onTheWay between m later splitRest
        rwa [List.append_assoc, List.singleton_append] at reached

theorem history_induction {motive : List Moment → Scheduler → Prop}
    (initial : ∀ s, (start config).value = .ok s → motive [] s)
    (preserved : ∀ past s command answer next, s.Tiled → motive past s →
      (s.ask command).value = .ok (answer, next) →
        motive (past ++ [⟨s, command, answer⟩]) next)
    (recorded : (history config commands).value = .ok (moments, s)) :
    motive moments s ∧
      ∀ earlier m later, moments = earlier ++ m :: later → motive earlier m.before := by
  rw [history, Noted.value_bind] at recorded
  obtain ⟨first, started, recorded⟩ := bind_eq_ok_iff.mp recorded
  obtain ⟨shown, shows⟩ := start_shows started
  obtain ⟨final, onTheWay⟩ := record_induction preserved [] shows.scheduler_tiled
    (initial first started) recorded
  exact ⟨final, fun earlier m later split => (onTheWay earlier m later split).1⟩

/-! ## One moment -/

/-- Commands that only work on the airtime. -/
def Command.lends : Command → Bool
  | .train .. | .reserve _ | .reserveBlock .. | .reserveBlocks .. | .reserveCbap ..
  | .reserveWholeDti _ | .reserveTraining .. => true
  | _ => false

theorem perform_of_lends (lends : command.lends = true)
    (performed : (s.perform command).value = .ok next) : ∃ air, next = { s with air } := by
  have lending : ∀ {α : Type} {use : Terms → Airtime → Noted (α × Airtime)},
      (Prod.snd <$> s.lend use).value = .ok next → ∃ air, next = { s with air } := by
    intro α use lent
    obtain ⟨_, lent⟩ := snd_eq_ok lent
    obtain ⟨air, _, rfl⟩ := lend_eq_ok lent
    exact ⟨air, rfl⟩
  cases command with
  | train peer duration beamforming =>
      obtain ⟨_, trained⟩ := snd_eq_ok performed
      rcases train_cases trained with rfl | ⟨_, air, _, rfl⟩
      · exact ⟨next.air, rfl⟩
      · exact ⟨air, rfl⟩
  | reserve a => exact lending performed
  | reserveBlock key kind isStatic start duration => exact lending performed
  | reserveBlocks key kind isStatic start duration blocks => exact lending performed
  | reserveCbap isStatic start duration => exact lending performed
  | reserveWholeDti key => exact lending performed
  | reserveTraining source dest duration beamforming => exact lending performed
  | startInterval now coordinator interval header announcement => cases lends
  | handle now change => cases lends
  | request now source spec => cases lends
  | delete now key => cases lends
  | takeResponses => cases lends

inductive Effect (s : Scheduler) : Command → Answer → Scheduler → Prop where
  | startInterval {now : Time} {coordinator : Aid} {interval header announcement : Nat}
      {wakeup : Wakeup} {next : Scheduler}
      (started : (s.startInterval now coordinator interval header announcement).value =
        .ok (wakeup, next)) :
      Effect s (.startInterval now coordinator interval header announcement)
        (.wakeup (some wakeup)) next
  | handle {now : Time} {change : PhaseChange} {result : Option Wakeup} {next : Scheduler}
      (handled : (s.handle now change).value = .ok (result, next)) :
      Effect s (.handle now change) (.wakeup result) next
  | request (now : Time) (source : Aid) (spec : TrafficSpec) :
      Effect s (.request now source spec) .nothing
        { s with queue := s.queue ++ [⟨source, spec, now⟩] }
  | delete {now : Time} {key : Allocation.Key} {response : DeletionResponse} {next : Scheduler}
      (deleted : (s.delete now key).value = .ok (response, next)) :
      Effect s (.delete now key) (.deletion response) next
  | takeResponses :
      Effect s .takeResponses (.admissions s.responses) { s with responses := [] }
  | lend {command : Command} (lends : command.lends = true) (air : Airtime) :
      Effect s command .nothing { s with air }

theorem effect_of_ask (asked : (s.ask command).value = .ok (answer, next)) :
    s.Effect command answer next := by
  have lent (lends : command.lends = true)
      (same : s.ask command = (do return (.nothing, ← s.perform command))) :
      s.Effect command answer next := by
    rw [same] at asked
    simp only [Noted.value_bind, Noted.value_pure, bind_eq_ok_iff, Except.ok.injEq,
      Prod.mk.injEq] at asked
    obtain ⟨_, performed, rfl, rfl⟩ := asked
    obtain ⟨air, rfl⟩ := perform_of_lends lends performed
    exact .lend lends air
  cases command with
  | startInterval now coordinator interval header announcement =>
      simp only [ask, Noted.value_bind, Noted.value_pure, bind_eq_ok_iff, Except.ok.injEq,
        Prod.mk.injEq] at asked
      obtain ⟨_, started, rfl, rfl⟩ := asked
      exact .startInterval started
  | handle now change =>
      simp only [ask, Noted.value_bind, Noted.value_pure, bind_eq_ok_iff, Except.ok.injEq,
        Prod.mk.injEq] at asked
      obtain ⟨_, handled, rfl, rfl⟩ := asked
      exact .handle handled
  | request now source spec =>
      obtain ⟨rfl, rfl⟩ := Prod.mk.inj (Except.ok.inj asked)
      exact .request now source spec
  | delete now key =>
      simp only [ask, Noted.value_bind, Noted.value_pure, bind_eq_ok_iff, Except.ok.injEq,
        Prod.mk.injEq] at asked
      obtain ⟨_, deleted, rfl, rfl⟩ := asked
      exact .delete deleted
  | takeResponses =>
      obtain ⟨rfl, rfl⟩ := Prod.mk.inj (Except.ok.inj asked)
      exact .takeResponses
  | train peer duration beamforming => exact lent rfl rfl
  | reserve a => exact lent rfl rfl
  | reserveBlock key kind isStatic start duration => exact lent rfl rfl
  | reserveBlocks key kind isStatic start duration blocks => exact lent rfl rfl
  | reserveCbap isStatic start duration => exact lent rfl rfl
  | reserveWholeDti key => exact lent rfl rfl
  | reserveTraining source dest duration beamforming => exact lent rfl rfl

end Scheduler
end BeaconScheduler
