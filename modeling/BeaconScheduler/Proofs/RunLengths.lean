import BeaconScheduler.Proofs.Diary

/-!
# How many intervals a run has

The loop of a run looks for a request to stop before each interval, and at the limit behind it.
A request that is there from the start therefore ends the run at once, and a limit of zero does
not: such a run has one interval.  Nothing else sets a run apart from as many intervals as were
asked for (`run_length_iff`), so a run can be split into pieces as long as none of them is empty.
-/

set_option autoImplicit false

namespace BeaconScheduler.Timeline

open Counter

variable {t next : Timeline} {limit first second ran : Nat} {stopAfter : Option Nat}

/-- The number of intervals up to a limit, or to the one in which a request to stop comes. -/
def wanted (limit : Nat) (stopAfter : Option Nat) : Nat :=
  stopAfter.elim limit (min limit)

def runIntervals (t : Timeline) (n : Nat) : Noted Timeline :=
  t.actAll (List.replicate n .runInterval)

def runTwice (t : Timeline) (first second : Nat) : Noted (Nat × Timeline) := do
  let (ran, t) ← t.run (some first) none
  let (more, t) ← t.run (some second) none
  return (ran + more, t)

/-! ## One run -/

theorem rounds_some (limit : Nat) (stopAfter : Option Nat) :
    rounds (some limit) stopAfter = wanted (max limit 1) stopAfter := by
  cases stopAfter <;> rfl

theorem rounds_eq_wanted_iff :
    rounds (some limit) stopAfter = wanted limit stopAfter ↔ 0 < limit ∨ stopAfter = some 0 := by
  rw [rounds_some]
  cases stopAfter with
  | none =>
      simp only [wanted, Option.elim_none, reduceCtorEq, or_false]
      omega
  | some j =>
      simp only [wanted, Option.elim_some, Option.some.injEq]
      omega

theorem value_run_some (t : Timeline) (limit : Nat) (stopAfter : Option Nat) :
    (t.run (some limit) stopAfter).value =
      (t.runIntervals (rounds (some limit) stopAfter)).value.map
        fun next => (rounds (some limit) stopAfter, next) :=
  value_run t (some limit) stopAfter

theorem map_runIntervals_inj {m n : Nat} (ends : Ends (t.runIntervals n).value)
    (same : ((t.runIntervals m).value.map fun next => (m, next)) =
      (t.runIntervals n).value.map fun next => (n, next)) : m = n := by
  obtain ⟨next, ended⟩ := ends
  rw [ended] at same
  cases other : (t.runIntervals m).value with
  | error fault =>
      rw [other] at same
      cases same
  | ok last =>
      rw [other] at same
      exact (Prod.mk.inj (Except.ok.inj same)).1

theorem run_eq_wanted_iff :
    (t.run (some limit) stopAfter).value =
        ((t.runIntervals (wanted limit stopAfter)).value.map
          fun next => (wanted limit stopAfter, next)) ↔
      0 < limit ∨ stopAfter = some 0 := by
  rw [value_run_some, ← rounds_eq_wanted_iff]
  constructor
  · intro same
    rcases Nat.eq_zero_or_pos limit with rfl | positive
    · have none : wanted 0 stopAfter = 0 := by
        cases stopAfter with
        | none => rfl
        | some j => exact Nat.zero_min j
      rw [none] at same ⊢
      exact map_runIntervals_inj ⟨t, rfl⟩ same
    · exact rounds_eq_wanted_iff.mpr (.inl positive)
  · intro same
    rw [same]

/-! ## One run behind another -/

theorem runIntervals_add (t : Timeline) (m n : Nat) :
    t.runIntervals (m + n) = t.runIntervals m >>= fun t => t.runIntervals n := by
  simp only [runIntervals, ← List.replicate_append_replicate, actAll_append]

theorem value_runTwice (t : Timeline) (first second : Nat) :
    (t.runTwice first second).value =
      (t.run (some (max first 1 + max second 1)) none).value := by
  have several : max (max first 1 + max second 1) 1 = max first 1 + max second 1 := by omega
  simp only [runTwice, Noted.value_bind, Noted.value_pure, value_run_some, rounds_some, wanted,
    Option.elim_none, several, runIntervals_add]
  cases (t.runIntervals (max first 1)).value with
  | error fault => rfl
  | ok middle =>
      simp only [Except.map, ok_bind]
      cases (middle.runIntervals (max second 1)).value <;> rfl

theorem runTwice_eq_iff (ended : (t.runTwice first second).value = .ok (ran, next)) :
    (t.run (some (first + second)) none).value = .ok (ran, next) ↔ 0 < first ∧ 0 < second := by
  have unstopped : ∀ n, rounds (some n) none = max n 1 := fun n => rounds_some n none
  rw [value_runTwice, run_eq_ok_iff, unstopped] at ended
  rw [run_eq_ok_iff, unstopped]
  obtain ⟨reached, rfl⟩ := ended
  constructor
  · rintro ⟨_, same⟩
    omega
  · rintro ⟨positive, positiveToo⟩
    have same : max (first + second) 1 = max (max first 1 + max second 1) 1 := by omega
    rw [same]
    exact ⟨reached, rfl⟩

/-- How many intervals there are in one run, and in one behind another.  The limit of zero is the
only one that is not kept to. -/
theorem run_length_iff (t : Timeline) :
    (∀ limit stopAfter,
      (t.run (some limit) stopAfter).value =
          ((t.runIntervals (wanted limit stopAfter)).value.map
            fun next => (wanted limit stopAfter, next)) ↔
        0 < limit ∨ stopAfter = some 0) ∧
    (∀ stopAfter, t.run (some 0) stopAfter = t.run (some 1) stopAfter) ∧
    ∀ first second,
      (t.runTwice first second).value =
        (t.run (some (max first 1 + max second 1)) none).value ∧
      ∀ ran next, (t.runTwice first second).value = .ok (ran, next) →
        ((t.run (some (first + second)) none).value = .ok (ran, next) ↔
          0 < first ∧ 0 < second) :=
  ⟨fun _ _ => run_eq_wanted_iff, fun _ => rfl, fun first second =>
    ⟨value_runTwice t first second, fun _ _ => runTwice_eq_iff⟩⟩

theorem emptyRun_runs :
    ∃ t next, (start {}).value = .ok t ∧ (t.run (some 0) none).value = .ok (1, next) ∧
      t.intervals = 0 ∧ next.intervals = 1 ∧ next.now = 102400 := by
  obtain ⟨⟨t, ran, next⟩, drove, computed⟩ := Scheduler.exists_ok
    (x := (do let t ← start {}; return (t, ← t.run (some 0) none) : Noted _).value)
    (f := fun (t, ran, next) => (ran, t.intervals, next.intervals, next.now))
    (b := (1, 0, 1, 102400)) (by decide +kernel)
  simp only [Noted.value_bind, Noted.value_pure, bind_eq_ok_iff, Except.ok.injEq,
    Prod.mk.injEq] at drove computed
  obtain ⟨_, started, _, ended, rfl, rfl⟩ := drove
  obtain ⟨rfl, before, after, time⟩ := computed
  exact ⟨_, _, started, ended, before, after, time⟩

end BeaconScheduler.Timeline
