import BeaconScheduler.Proofs.Statics
import BeaconScheduler.Proofs.Tenure
import BeaconScheduler.Proofs.Uniqueness

/-!
# What is deleted stays away

A deletion takes one allocation out, the first of its key.  Decisions never give a key a second
one, but a configuration may have several statics under one key, and those go one deletion after
the other.  Once there have been as many deletions as statics, and one at least, no schedule that
is made lists the key until a request of it is accepted, apart from the contention periods that
fill free slots (`drive_withdraws`).
-/

set_option autoImplicit false

namespace BeaconScheduler

open Counter

/-! ## At the start -/

namespace Scheduler

variable {config : Config} {s : Scheduler}

theorem start_length_le (key : Allocation.Key) (started : (start config).value = .ok s) :
    (s.air.registry.under key).length ≤ config.statics.countP (·.key = key) := by
  obtain ⟨_, part, sublist, registered⟩ := start_sublist started
  have counted : (Registry.under key (part.map Config.Static.allocation)).length =
      part.countP (·.key = key) := by
    rw [Registry.under, List.filter_map, List.length_map, ← List.countP_eq_length_filter]
    rfl
  rw [registered, Registry.under_markAnnounced, Registry.markAnnounced, List.length_map, counted]
  exact sublist.countP_le

end Scheduler

namespace Timeline

variable {t next first : Timeline} {log past : Log} {key : Allocation.Key}
  {configured intervals : Nat} {config : Config} {actions : List Action} {handover : Handover}

/-- What the log of the intervals so far says of the allocations of a key, of which there were
`configured` at the start. -/
structure Withdrawn (key : Allocation.Key) (configured : Nat) (past : Log) (t : Timeline) :
    Prop where
  few : (t.scheduler.air.registry.under key).length ≤
    max (configured - past.withdrawals.count key) 1
  gone : ∀ (earlier : Log) (handover : Handover) (later : Log), past = earlier ++ .handed handover :: later →
    handover.withdrawn? = some key → configured ≤ earlier.withdrawals.count key + 1 →
    ¬ Scheduler.Accepts key later.responses → t.scheduler.air.registry.under key = []

theorem Withdrawn.run (withdrawn : Withdrawn key configured past t) (current : t.Current)
    (watched : t.watchInterval.value = .ok (log, next)) :
    Withdrawn key configured (past ++ log) next := by
  obtain ⟨_, _, _, _, _, _, _, _, decides⟩ :=
    watchInterval_decides current.sound current.idle watched
  have few := withdrawn.few
  refine ⟨?_, ?_⟩
  · have fewNext := decides.length_le key
    rw [Log.withdrawals_append, List.count_append]
    omega
  · -- The last deletion is handed over in this interval, or earlier on.
    intro earlier handover later split own enough refused
    rcases Log.split_append split with ⟨before, rfl, splitNow⟩ | ⟨rest, splitPast, rfl⟩
    · have counted := Log.count_withdrawals own before later
      rw [← splitNow] at counted
      rw [Log.withdrawals_append, List.count_append] at enough
      rw [decides.responses_later splitNow] at refused
      exact decides.deletes (by omega) refused
    · rw [Log.responses_append, Scheduler.accepts_append_iff, not_or] at refused
      obtain ⟨refusedPast, refusedNow⟩ := refused
      have none := withdrawn.gone earlier handover rest splitPast own enough refusedPast
      refine decides.deletes ?_ refusedNow
      rw [none]
      exact Nat.zero_le _

theorem Withdrawn.keep (withdrawn : Withdrawn key configured past t)
    (same : next.scheduler = t.scheduler) : Withdrawn key configured past next := by
  obtain ⟨few, gone⟩ := withdrawn
  rw [← same] at few gone
  exact ⟨few, gone⟩

theorem start_current (started : (Timeline.start config).value = .ok first) : first.Current := by
  obtain ⟨sound, shows⟩ := start_sound started
  obtain ⟨_, between⟩ := Between.start started
  exact ⟨sound, between.idle, shows⟩

theorem start_withdrawn (key : Allocation.Key)
    (started : (Timeline.start config).value = .ok first) :
    Withdrawn key (config.statics.countP (·.key = key)) [] first := by
  simp only [Timeline.start, Noted.value_bind, bind_eq_ok_iff, Noted.value_pure,
    Except.ok.injEq] at started
  obtain ⟨scheduler, starts, rfl⟩ := started
  refine ⟨Nat.le_trans (Scheduler.start_length_le key starts) (Nat.le_max_left _ _), ?_⟩
  intro earlier handover later split
  have empty := congrArg List.length split
  simp at empty

/-- In every run: a deletion of a key that is the last it takes, counted against the statics of
the key, leaves it without an allocation.  No schedule that is made from then on lists the key
until a request of it is accepted, apart from contention periods that fill free slots. -/
theorem drive_withdraws {earlier later : Log}
    (started : (Timeline.start config).value = .ok first)
    (untrained : ∀ action ∈ actions, action.trains = false)
    (watched : (first.watchAll actions).value = .ok (past, t))
    (split : past = earlier ++ .handed handover :: later)
    (own : handover.withdrawn? = some key)
    (enough : config.statics.countP (·.key = key) ≤ earlier.withdrawals.count key + 1)
    (refused : ¬ Scheduler.Accepts key later.responses) :
    (drive config actions).value = .ok t ∧
      key.Vacant t.scheduler.air.gapFillings t.scheduler.published ∧
      (∀ b ∈ t.scheduler.air.gapFillings, b.key = ⟨0, Aid.broadcast, Aid.broadcast⟩) ∧
      ∀ during next, t.watchInterval.value = .ok (during, next) →
        during.schedules =
          [(t.intervals * config.beacon.interval, t.scheduler.published)] ∧
        Tells t during next := by
  have drove : (drive config actions).value = .ok t := by
    simp only [drive, Noted.value_bind, started, ok_bind, watchAll_eq, Noted.value_map, watched,
      Except.map]
  have initial := start_withdrawn key started
  generalize config.statics.countP (fun a => a.key = key) = configured at enough initial
  obtain ⟨current, withdrawn⟩ := Current.watchAll
    (motive := fun past _ t => Withdrawn key configured past t)
    (fun current withdrawn watched => withdrawn.run current watched)
    (fun same withdrawn => withdrawn.keep same) 0 untrained (start_current started) initial
    watched
  obtain ⟨shown, shows⟩ := current.shows
  refine ⟨drove, shows.vacant (withdrawn.gone earlier handover later split own enough refused),
    t.scheduler.air.key_gapFillings, fun during next heard => ?_⟩
  obtain ⟨_, between⟩ := drive_between drove
  obtain ⟨_, _, _, _, _, _, starts, _, decides⟩ :=
    watchInterval_decides current.sound current.idle heard
  obtain ⟨_, rfl⟩ := mul_eq_ok_iff.mp starts
  exact ⟨by rw [decides.schedules, between.configured], watchInterval_tells heard⟩

def doubledStatic : Config :=
  { statics :=
      [⟨⟨1, 0, 4⟩, .servicePeriod, 0, 1000, 1⟩, ⟨⟨1, 0, 4⟩, .servicePeriod, 5000, 1000, 1⟩] }

def twoDeletions : List Action :=
  [.submit 50000 (.deletion ⟨1, 0, 4⟩), .runInterval, .submit 150000 (.deletion ⟨1, 0, 4⟩),
    .runInterval, .runInterval]

theorem doubledStatic_withdrawn :
    ∃ first t past, (Timeline.start doubledStatic).value = .ok first ∧
      (first.watchAll twoDeletions).value = .ok (past, t) ∧
      (drive doubledStatic twoDeletions).value = .ok t ∧
      Log.withdrawals (past.take 4) = [⟨1, 0, 4⟩] ∧
      past = past.take 4 ++
        .handed ⟨⟨150000, .deletion ⟨1, 0, 4⟩⟩, 150000⟩ :: past.drop 5 ∧
      t.scheduler.published.map (·.key) = [⟨0, 255, 255⟩] ∧
      Allocation.Key.Vacant ⟨1, 0, 4⟩ t.scheduler.air.gapFillings t.scheduler.published := by
  obtain ⟨⟨first, past, t⟩, ran, computed⟩ := Scheduler.exists_ok
    (x := (do
      let first ← Timeline.start doubledStatic
      return (first, ← first.watchAll twoDeletions) : Noted _).value)
    (f := fun run => decide
      (Log.withdrawals (run.2.1.take 4) = [⟨1, 0, 4⟩] ∧
        run.2.1 = run.2.1.take 4 ++
          .handed ⟨⟨150000, .deletion ⟨1, 0, 4⟩⟩, 150000⟩ :: run.2.1.drop 5 ∧
        ¬ Scheduler.Accepts ⟨1, 0, 4⟩ (Log.responses (run.2.1.drop 5)) ∧
        run.2.2.scheduler.published.map (·.key) = [⟨0, 255, 255⟩]))
    (b := true) (by decide +kernel)
  simp only [Noted.value_bind, Noted.value_pure, bind_eq_ok_iff, Except.ok.injEq,
    Prod.mk.injEq, decide_eq_true_eq] at ran computed
  obtain ⟨_, started, _, watched, rfl, rfl⟩ := ran
  obtain ⟨before, split, refused, listed⟩ := computed
  obtain ⟨drove, vacant, _⟩ := drive_withdraws started
    (by simp [twoDeletions, Action.trains]) watched split rfl (by rw [before]; decide) refused
  exact ⟨_, _, _, started, watched, drove, before, split, listed, vacant⟩

/-- Deletions of the doubled key, and of the key of the contention periods that fill free slots:
no request is accepted, and the next beacon lists both keys. -/
theorem doubledStatic_listed :
    ∃ first t next past during, doubledStatic.validate = .ok (.ok ()) ∧
      (Timeline.start doubledStatic).value = .ok first ∧
      (first.watchAll [.submit 50000 (.deletion ⟨1, 0, 4⟩),
        .submit 60000 (.deletion ⟨0, 255, 255⟩), .runInterval]).value = .ok (past, t) ∧
      past.withdrawals = [⟨1, 0, 4⟩, ⟨0, 255, 255⟩] ∧ past.responses = [] ∧
      t.watchInterval.value = .ok (during, next) ∧
      during.schedules.map (fun told => told.2.map (·.key)) =
        [[⟨0, 255, 255⟩, ⟨1, 0, 4⟩, ⟨0, 255, 255⟩]] := by
  obtain ⟨⟨first, ⟨past, t⟩, ⟨during, next⟩⟩, ran, computed⟩ := Scheduler.exists_ok
    (x := (do
      let first ← Timeline.start doubledStatic
      let past ← first.watchAll [.submit 50000 (.deletion ⟨1, 0, 4⟩),
        .submit 60000 (.deletion ⟨0, 255, 255⟩), .runInterval]
      return (first, past, ← past.2.watchInterval) : Noted _).value)
    (f := fun (_, past, during) => decide
      (past.1.withdrawals = [⟨1, 0, 4⟩, ⟨0, 255, 255⟩] ∧ past.1.responses = [] ∧
        during.1.schedules.map (fun told => told.2.map (·.key)) =
          [[⟨0, 255, 255⟩, ⟨1, 0, 4⟩, ⟨0, 255, 255⟩]]))
    (b := true) (by decide +kernel)
  simp only [Noted.value_bind, Noted.value_pure, bind_eq_ok_iff, Except.ok.injEq,
    Prod.mk.injEq, decide_eq_true_eq] at ran computed
  obtain ⟨_, started, _, watched, _, heard, rfl, rfl, rfl⟩ := ran
  obtain ⟨withdrawn, unanswered, listed⟩ := computed
  exact ⟨_, _, _, _, _, by decide +kernel, started, watched, withdrawn, unanswered, heard, listed⟩

end Timeline
end BeaconScheduler
