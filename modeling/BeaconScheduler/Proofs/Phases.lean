import BeaconScheduler.Proofs.History
import BeaconScheduler.Proofs.Intervals

/-!
# Phases

Whatever is asked of a scheduler, in any order and at any times, the phase change it waits for
is one that can end its phase (`run_orderly`).  So a phase change is made exactly if it is the
pending one and its time has come (`Orderly.value_handle`).  Each end of an interval belongs to
a start of its own, and to a start of the data transfer in between (`history_phases`).
-/

set_option autoImplicit false

namespace BeaconScheduler

open Counter

/-- What a scheduler may wait for in a phase; for nothing only before an interval starts. -/
def Phase.mayAwait : Phase → Option PhaseChange → Bool
  | .beaconHeader, none => true
  | .beaconHeader, some .announcementStart => true
  | .beaconHeader, some .dataTransferStart => true
  | .announcement, some .dataTransferStart => true
  | .dataTransfer, some .intervalEnd => true
  | _, _ => false

@[simp] theorem Phase.mayAwait_some (phase : Phase) (change : PhaseChange) :
    phase.mayAwait (some change) = phase.allows change := by
  cases phase <;> cases change <;> rfl

namespace Scheduler

variable {s next last : Scheduler} {now : Time} {change : PhaseChange} {wakeup : Wakeup}
  {result : Option Wakeup}

/-! ## Phase changes -/

/-- The change is the pending one, and its time has come. -/
def Due (s : Scheduler) (now : Time) (change : PhaseChange) : Prop :=
  ∃ wakeup ∈ s.pending, wakeup.change = change ∧ wakeup.time ≤ now

instance (s : Scheduler) (now : Time) (change : PhaseChange) : Decidable (s.Due now change) :=
  inferInstanceAs (Decidable (∃ wakeup ∈ s.pending, _))

/-- The phase change itself, whatever the scheduler waits for. -/
def makeChange (s : Scheduler) (now : Time) : PhaseChange → Noted (Option Wakeup × Scheduler)
  | .announcementStart => do
      let (next, s) ← s.startAnnouncement now
      return (some next, { s with pending := some next })
  | .dataTransferStart => do
      let (next, s) ← s.startDataTransfer now
      return (some next, { s with pending := some next })
  | .intervalEnd => do
      let s ← s.endInterval now
      return (none, { s with pending := none })

theorem value_handle (s : Scheduler) (now : Time) (change : PhaseChange) :
    (s.handle now change).value =
      if s.Due now change ∧ s.phase.allows change = true then (s.makeChange now change).value
      else .ok (s.pending, s) := by
  by_cases made : s.Due now change ∧ s.phase.allows change = true
  · rw [if_pos made]
    obtain ⟨⟨pending, awaited, rfl, passed⟩, allowed⟩ := made
    simp only [handle, Option.mem_def.mp awaited]
    rw [if_neg (by simp [allowed, passed])]
    cases pending.change <;> rfl
  · rw [if_neg made]
    unfold handle
    cases awaited : s.pending with
    | none => rfl
    | some pending =>
        have ignored : change ≠ pending.change ∨ now < pending.time ∨
            ¬ s.phase.allows change = true := by
          by_contra other
          push Not at other
          obtain ⟨rfl, passed, allowed⟩ := other
          exact made ⟨⟨pending, awaited, rfl, passed⟩, allowed⟩
        simp only
        rw [if_pos ignored]
        rfl

theorem value_startAnnouncement (s : Scheduler) (now : Time) :
    (s.makeChange now .announcementStart).value =
      now.after s.timing.announcement >>= fun time =>
        .ok (some ⟨time, .dataTransferStart⟩,
          { s with
            phase := .announcement
            timing := { s.timing with announcementStart := some now }
            pending := some ⟨time, .dataTransferStart⟩ }) := by
  simp only [makeChange, startAnnouncement, Noted.value_bind, Noted.value_noteAt, ok_bind,
    Noted.value_lift, Noted.value_pure, bind_assoc]

theorem value_startDataTransfer (s : Scheduler) (now : Time) :
    (s.makeChange now .dataTransferStart).value =
      now.after s.timing.dti >>= fun time =>
        .ok (some ⟨time, .intervalEnd⟩,
          { s with
            phase := .dataTransfer
            timing := { s.timing with dataTransferStart := some now }
            pending := some ⟨time, .intervalEnd⟩ }) := by
  simp only [makeChange, startDataTransfer, Noted.value_bind, Noted.value_noteAt, ok_bind,
    Noted.value_lift, Noted.value_pure, bind_assoc]

def target : PhaseChange → Phase
  | .announcementStart => .announcement
  | .dataTransferStart => .dataTransfer
  | .intervalEnd => .beaconHeader

theorem makeChange_eq_ok (tiled : s.Tiled)
    (made : (s.makeChange now change).value = .ok (result, next)) :
    next.phase = target change ∧ next.pending = result ∧
      next.phase.mayAwait (result.map (·.change)) = true ∧
      (result = none ↔ change = .intervalEnd) := by
  cases change with
  | announcementStart =>
      rw [value_startAnnouncement, bind_eq_ok_iff] at made
      obtain ⟨time, _, made⟩ := made
      obtain ⟨rfl, rfl⟩ := Prod.mk.inj (Except.ok.inj made)
      exact ⟨rfl, rfl, rfl, by simp⟩
  | dataTransferStart =>
      rw [value_startDataTransfer, bind_eq_ok_iff] at made
      obtain ⟨time, _, made⟩ := made
      obtain ⟨rfl, rfl⟩ := Prod.mk.inj (Except.ok.inj made)
      exact ⟨rfl, rfl, rfl, by simp⟩
  | intervalEnd =>
      simp only [makeChange, Noted.value_bind, bind_eq_ok_iff, Noted.value_pure, Except.ok.injEq,
        Prod.mk.injEq] at made
      obtain ⟨ended, ends, rfl, rfl⟩ := made
      obtain ⟨_, _, _, _, _, _, _, _, rfl⟩ := endInterval_eq_ok tiled ends
      exact ⟨rfl, rfl, rfl, by simp⟩

/-! ## What a scheduler waits for -/

def Orderly (s : Scheduler) : Prop :=
  s.phase.mayAwait (s.pending.map (·.change)) = true

theorem Orderly.allows (orderly : s.Orderly) (pending : s.pending = some wakeup) :
    s.phase.allows wakeup.change = true := by
  rw [Orderly, pending, Option.map_some, Phase.mayAwait_some] at orderly
  exact orderly

theorem Orderly.value_handle (orderly : s.Orderly) (now : Time) (change : PhaseChange) :
    (s.handle now change).value =
      if s.Due now change then (s.makeChange now change).value else .ok (s.pending, s) := by
  rw [Scheduler.value_handle]
  by_cases due : s.Due now change
  · obtain ⟨wakeup, pending, rfl, passed⟩ := due
    rw [if_pos ⟨⟨wakeup, pending, rfl, passed⟩, orderly.allows pending⟩,
      if_pos ⟨wakeup, pending, rfl, passed⟩]
  · rw [if_neg due, if_neg (fun both => due both.1)]

theorem Orderly.handle_cases (orderly : s.Orderly) (tiled : s.Tiled)
    (handled : (s.handle now change).value = .ok (result, next)) :
    (s.Due now change ∧ (s.makeChange now change).value = .ok (result, next) ∧
      next.Orderly ∧ next.phase ≠ s.phase) ∨
    (¬ s.Due now change ∧ result = s.pending ∧ next = s) := by
  rw [orderly.value_handle] at handled
  split_ifs at handled with due
  · obtain ⟨phase, pending, await, _⟩ := makeChange_eq_ok tiled handled
    refine Or.inl ⟨due, handled, ?_, ?_⟩
    · rw [Orderly, pending]
      exact await
    · obtain ⟨wakeup, awaited, rfl, _⟩ := due
      have allowed := orderly.allows awaited
      intro same
      rw [← same, phase] at allowed
      cases change : wakeup.change <;> rw [change] at allowed <;> cases allowed
  · obtain ⟨rfl, rfl⟩ := Prod.mk.inj (Except.ok.inj handled)
    exact Or.inr ⟨due, rfl, rfl⟩

structure Fresh (s : Scheduler) : Prop where
  phase : s.phase = .beaconHeader
  pending : s.pending = none
  queue : s.queue = []
  responses : s.responses = []
  statistics : s.statistics = ⟨0, 0, 0, 0⟩

theorem start_fresh {config : Config} (started : (start config).value = .ok s) : s.Fresh := by
  simp only [Scheduler.start, Noted.value_bind, Noted.value_lift, Noted.value_note, ok_bind,
    bind_eq_ok_iff, Noted.value_pure] at started
  obtain ⟨_, _, header, _, air, placed, _, refreshed, last⟩ := started
  have tiled : air.Tiled config.limits.guard (config.beacon.interval - header) := by
    apply placeStatics_tiled ?_ placed
    exact Tiling.whole _ _
  have shape := refresh_eq_ok config.limits.guard tiled refreshed
  obtain rfl := Except.ok.inj last
  subst shape
  exact ⟨rfl, rfl, rfl, rfl, rfl⟩

theorem startInterval_orderly {coordinator : Aid} {interval header announcement : Nat}
    (tiled : s.Tiled)
    (started : (s.startInterval now coordinator interval header announcement).value =
      .ok (wakeup, next)) :
    next.Orderly ∧ next.phase = .beaconHeader ∧ next.pending = some wakeup := by
  have awaits := startInterval_awaits tiled started
  refine ⟨?_, ?_, awaits.pending⟩
  · rw [Orderly, awaits.pending, Option.map_some, Phase.mayAwait_some]
    exact awaits.allowed
  · rcases startInterval_eq_ok tiled started with ⟨_, rfl⟩ | ⟨_, _, _, rfl⟩
    · rfl
    · rfl

/-! ## Ends of intervals -/

def Command.startsInterval : Command → Bool
  | .startInterval .. => true
  | _ => false

namespace Moment

def makes (change : PhaseChange) (m : Moment) : Bool :=
  match m.command with
  | .handle now asked => asked = change && decide (m.before.Due now asked)
  | _ => false

def Inside (m : Moment) : Prop :=
  m.command.startsInterval = false ∧ m.makes .intervalEnd = false

theorem inside_of_lends {command : Command} {answer : Answer} (lends : command.lends = true) :
    Inside ⟨s, command, answer⟩ := by
  cases command with
  | startInterval now coordinator interval header announcement => cases lends
  | handle now change => cases lends
  | _ => exact ⟨rfl, rfl⟩

end Moment

/-- The interval that was started last has not ended yet; `since` has happened in it. -/
def Underway (past since : List Moment) : Prop :=
  ∃ before start, past = before ++ start :: since ∧ start.command.startsInterval = true ∧
    ∀ m ∈ since, m.Inside

theorem Underway.snoc {past since : List Moment} {m : Moment} (underway : Underway past since)
    (inside : m.Inside) : Underway (past ++ [m]) (since ++ [m]) := by
  obtain ⟨before, start, rfl, starts, allInside⟩ := underway
  refine ⟨before, start, by simp, starts, ?_⟩
  intro other member
  rcases List.mem_append.mp member with old | new
  · exact allInside other old
  · rw [List.mem_singleton.mp new]
    exact inside

/-- A scheduler only waits for something while an interval is underway, and the data transfer
has been started in it. -/
structure OnCourse (past : List Moment) (s : Scheduler) : Prop where
  orderly : s.Orderly
  underway : s.pending.isSome = true → ∃ since, Underway past since ∧
    (s.phase = .dataTransfer → ∃ m ∈ since, m.makes .dataTransferStart = true)

theorem OnCourse.snoc {past : List Moment} {m : Moment} (onCourse : OnCourse past s)
    (inside : m.Inside) (orderly : next.Orderly)
    (pending : next.pending.isSome = true → s.pending.isSome = true)
    (phase : next.phase = .dataTransfer →
      s.phase = .dataTransfer ∨ m.makes .dataTransferStart = true) :
    OnCourse (past ++ [m]) next := by
  refine ⟨orderly, ?_⟩
  intro waits
  obtain ⟨since, underway, transfers⟩ := onCourse.underway (pending waits)
  refine ⟨since ++ [m], underway.snoc inside, ?_⟩
  intro transfer
  rcases phase transfer with before | makes
  · obtain ⟨earlier, member, made⟩ := transfers before
    exact ⟨earlier, List.mem_append_left _ member, made⟩
  · exact ⟨m, by simp, makes⟩

theorem ask_onCourse {past : List Moment} {command : Command} {answer : Answer} (tiled : s.Tiled)
    (onCourse : OnCourse past s) (asked : (s.ask command).value = .ok (answer, next)) :
    OnCourse (past ++ [⟨s, command, answer⟩]) next := by
  cases effect_of_ask asked with
  | startInterval started =>
      obtain ⟨orderly, phase, _⟩ := startInterval_orderly tiled started
      refine ⟨orderly, fun _ => ⟨[], ⟨past, _, rfl, rfl, by simp⟩, ?_⟩⟩
      intro transfer
      rw [phase] at transfer
      cases transfer
  | @handle now change result _ handled =>
      rcases onCourse.orderly.handle_cases tiled handled with
        ⟨due, made, orderly, _⟩ | ⟨ignored, rfl, rfl⟩
      · obtain ⟨phase, pending, _, ends⟩ := makeChange_eq_ok tiled made
        cases change with
        | announcementStart =>
            refine onCourse.snoc ⟨rfl, rfl⟩ orderly (fun _ => ?_) (fun transfer => ?_)
            · obtain ⟨wakeup, awaited, _⟩ := due
              rw [awaited, Option.isSome_some]
            · rw [phase] at transfer
              cases transfer
        | dataTransferStart =>
            refine onCourse.snoc ⟨rfl, rfl⟩ orderly (fun _ => ?_) (fun _ => Or.inr ?_)
            · obtain ⟨wakeup, awaited, _⟩ := due
              rw [awaited, Option.isSome_some]
            · simpa [Moment.makes] using due
        | intervalEnd =>
            refine ⟨orderly, fun waits => ?_⟩
            rw [pending, ends.mpr rfl] at waits
            cases waits
      · have inside : Moment.Inside ⟨next, .handle now change, .wakeup next.pending⟩ := by
          refine ⟨rfl, ?_⟩
          by_cases same : change = .intervalEnd
          · subst same
            simpa [Moment.makes] using ignored
          · simp [Moment.makes, same]
        exact onCourse.snoc inside onCourse.orderly id Or.inl
  | request now source spec => exact onCourse.snoc ⟨rfl, rfl⟩ onCourse.orderly id Or.inl
  | @delete now key response _ deleted =>
      obtain ⟨_, pending, phase⟩ := delete_interim tiled deleted
      have orderly := onCourse.orderly
      rw [Orderly, ← pending, ← phase] at orderly
      exact onCourse.snoc ⟨rfl, rfl⟩ orderly (by rw [pending]; exact id)
        (by rw [phase]; exact Or.inl)
  | takeResponses => exact onCourse.snoc ⟨rfl, rfl⟩ onCourse.orderly id Or.inl
  | lend lends air =>
      exact onCourse.snoc (Moment.inside_of_lends lends) onCourse.orderly id Or.inl

theorem OnCourse.dataTransfer_of_makes {past : List Moment} {m : Moment}
    (onCourse : OnCourse past m.before) (ends : m.makes .intervalEnd = true) :
    m.before.phase = .dataTransfer ∧ m.before.pending.isSome = true := by
  unfold Moment.makes at ends
  split at ends
  · simp only [Bool.and_eq_true, decide_eq_true_eq] at ends
    obtain ⟨rfl, wakeup, pending, change, _⟩ := ends
    have allowed := onCourse.orderly.allows pending
    rw [change] at allowed
    refine ⟨?_, Option.isSome_of_mem pending⟩
    cases phase : m.before.phase with
    | dataTransfer => rfl
    | beaconHeader =>
        rw [phase] at allowed
        cases allowed
    | announcement =>
        rw [phase] at allowed
        cases allowed
  · cases ends

variable {config : Config} {commands : List Command} {moments : List Moment}

theorem Fresh.onCourse (fresh : s.Fresh) : OnCourse [] s := by
  refine ⟨?_, ?_⟩
  · rw [Orderly, fresh.phase, fresh.pending]
    rfl
  · intro waits
    rw [fresh.pending] at waits
    cases waits

theorem history_onCourse (recorded : (history config commands).value = .ok (moments, s)) :
    OnCourse moments s ∧
      ∀ earlier m later, moments = earlier ++ m :: later → OnCourse earlier m.before := by
  refine history_induction ?_ ?_ recorded
  · intro first started
    exact (start_fresh started).onCourse
  · intro past s command answer next tiled onCourse asked
    exact ask_onCourse tiled onCourse asked

/-- In every history the pending change can end the phase, only the pending change is made and
only when it is due, and an interval ends once at most, after its data transfer has started. -/
theorem history_phases (recorded : (history config commands).value = .ok (moments, s)) :
    s.phase.mayAwait (s.pending.map (·.change)) = true ∧
    (∀ wakeup ∈ s.pending, s.phase.allows wakeup.change = true) ∧
    (∀ now change, s.Due now change →
      (s.handle now change).value = (s.makeChange now change).value ∧
      ∀ result next, (s.handle now change).value = .ok (result, next) →
        next.phase = target change ∧ next.phase ≠ s.phase ∧ next.pending = result) ∧
    (∀ now change, ¬ s.Due now change → (s.handle now change).value = .ok (s.pending, s)) ∧
    ∀ earlier m later, moments = earlier ++ m :: later → m.makes .intervalEnd = true →
      ∃ before start between transfer after,
        earlier = before ++ start :: (between ++ transfer :: after) ∧
        start.command.startsInterval = true ∧ transfer.makes .dataTransferStart = true ∧
        ∀ other ∈ between ++ transfer :: after, other.Inside := by
  have ran : (run config commands).value = .ok s := by
    rw [run_eq_history, Noted.value_map, recorded]
    rfl
  obtain ⟨tiled, _⟩ := run_tiled ran
  obtain ⟨final, onTheWay⟩ := history_onCourse recorded
  refine ⟨final.orderly, fun _ pending => final.orderly.allows pending, ?_, ?_, ?_⟩
  · intro now change due
    have made := final.orderly.value_handle now change
    rw [if_pos due] at made
    refine ⟨made, ?_⟩
    intro result next handled
    rcases final.orderly.handle_cases tiled handled with ⟨_, makes, _, differs⟩ | ⟨ignored, _⟩
    · obtain ⟨phase, pending, _⟩ := makeChange_eq_ok tiled makes
      exact ⟨phase, differs, pending⟩
    · exact absurd due ignored
  · intro now change notDue
    rw [final.orderly.value_handle, if_neg notDue]
  · intro earlier m later split ends
    have course := onTheWay earlier m later split
    obtain ⟨phase, waits⟩ := course.dataTransfer_of_makes ends
    obtain ⟨since, ⟨before, start, rfl, starts, inside⟩, transfers⟩ := course.underway waits
    obtain ⟨transfer, member, made⟩ := transfers phase
    obtain ⟨between, after, rfl⟩ := List.append_of_mem member
    exact ⟨before, start, between, transfer, after, rfl, starts, made, inside⟩

/-- An interval that is begun anew before its data transfer, with a phase change that comes too
early, one that is not expected, one that is repeated and one that is late. -/
def restartedHistory : Noted (List Moment × Scheduler) :=
  history {}
    [.startInterval 0 0 102400 1000 0,
      .handle 500 .dataTransferStart,
      .handle 1000 .intervalEnd,
      .startInterval 2000 0 102400 1000 500,
      .handle 2500 .announcementStart,
      .handle 3000 .dataTransferStart,
      .handle 3000 .dataTransferStart,
      .handle 104500 .intervalEnd,
      .handle 104500 .intervalEnd]

theorem restartedHistory_phases :
    ∃ earlier m later s before start between transfer after,
      restartedHistory.value = .ok (earlier ++ m :: later, s) ∧ earlier.length = 7 ∧
      m.makes .intervalEnd = true ∧ s.phase.mayAwait (s.pending.map (·.change)) = true ∧
      earlier = before ++ start :: (between ++ transfer :: after) ∧
      start.command.startsInterval = true ∧ transfer.makes .dataTransferStart = true ∧
      ∀ other ∈ between ++ transfer :: after, other.Inside := by
  obtain ⟨⟨moments, s⟩, recorded, ends⟩ := exists_ok (x := restartedHistory.value)
    (f := fun ran => ran.1.map (·.makes .intervalEnd))
    (b := [false, false, false, false, false, false, false] ++ [true, false]) (by decide +kernel)
  obtain ⟨earlier, rest, rfl, none, one⟩ := List.map_eq_append_iff.mp ends
  obtain ⟨m, later, rfl, made, _⟩ := List.map_eq_cons_iff.mp one
  obtain ⟨await, _, _, _, each⟩ := history_phases recorded
  obtain ⟨before, start, between, transfer, after, split, starts, transfers, inside⟩ :=
    each earlier m later rfl made
  refine ⟨earlier, m, later, s, before, start, between, transfer, after, recorded, ?_, made, await,
    split, starts, transfers, inside⟩
  simpa using congrArg List.length none

end Scheduler
end BeaconScheduler
