import BeaconScheduler.Proofs.Periodicity

/-!
# Requests that are submitted again

A station that hears no answer asks again.  The second decision takes another way through the
policy: what was granted as new is then registered with just the duration that is asked for,
and so is what was shortened.  Both are granted as they are (`decide_of_same_duration`), and a
rejection has changed nothing.  So the answer is the same, and the airtime stays as it is
(`decide_again`), whether or not registry and free slots agree with each other.
-/

set_option autoImplicit false

namespace BeaconScheduler.Policy

open Counter Scheduler

variable {policy : Policy} {terms : Terms} {now later received : Time}
  {request : AdmissionRequest} {outcome : Outcome} {air after : Airtime}

theorem value_decide_later (policy : Policy) (terms : Terms) (now later received : Time)
    (request : AdmissionRequest) (air : Airtime) :
    (policy.decide terms later { request with received } air).value =
      (policy.decide terms now request air).value := by
  unfold decide
  cases request.spec.validate with
  | error problem => rfl
  | ok _ => rfl

theorem valid_of_accepted
    (decided : (policy.decide terms now request air).value = .ok (outcome, after))
    (accepted : outcome.isAccepted = true) :
    request.spec.validate = .ok () ∧ policy ≠ .cbapOnly := by
  unfold decide at decided
  cases valid : request.spec.validate with
  | error problem =>
      simp only [valid, Noted.value_bind, Noted.value_noteAt, ok_bind] at decided
      obtain ⟨reason, rfl, _⟩ := unchanged_of_rejected decided
      cases accepted
  | ok _ =>
      refine ⟨rfl, ?_⟩
      rintro rfl
      simp only [valid, modify, grant] at decided
      split_ifs at decided
      · obtain ⟨reason, rfl, _⟩ := unchanged_of_rejected decided
        cases accepted
      · simp only [Noted.value_bind, Noted.value_note, ok_bind] at decided
        obtain ⟨reason, rfl, _⟩ := unchanged_of_rejected decided
        cases accepted

theorem shorten_of_same_duration {source : Aid} {spec : TrafficSpec} {current : Allocation}
    (found : air.registry.find? (spec.key source) = some current)
    (same : spec.desiredDuration = .ok current.blockDuration) :
    (shorten terms source spec air).value = .ok (.granted current, air) := by
  simp only [shorten, Noted.value_bind, Noted.value_lift, same, ok_bind, found]
  rw [if_neg (Nat.lt_irrefl _), if_pos trivial]
  rfl

theorem decide_of_same_duration {current : Allocation} (valid : request.spec.validate = .ok ())
    (grants : policy ≠ .cbapOnly) (found : air.registry.find? request.key = some current)
    (same : request.spec.desiredDuration = .ok current.blockDuration) :
    (policy.decide terms now request air).value = .ok (.granted current, air) := by
  have registered : air.registry.contains request.key = true := by
    rw [Registry.contains, found]
    rfl
  simp only [decide, valid, registered, if_true, modify_eq_shorten grants]
  exact shorten_of_same_duration found same

/-- Asked again, at any time, a policy gives the same answer and leaves everything as it is. -/
theorem decide_again (decided : (policy.decide terms now request air).value = .ok (outcome, after))
    (later received : Time) :
    (policy.decide terms later { request with received } after).value = .ok (outcome, after) := by
  rw [value_decide_later policy terms now]
  rcases decide_cases decided with ⟨reason, rfl, rfl⟩ | ⟨absent, a, rfl, answers, adds⟩ |
    ⟨current, duration, desired, found, rfl, shortened⟩
  · exact decided
  · obtain ⟨valid, grants⟩ := valid_of_accepted decided rfl
    have unregistered : air.registry.find? request.key = none := by
      simpa [Registry.contains] using absent
    exact decide_of_same_duration valid grants (find?_added unregistered answers.key adds)
      answers.duration
  · obtain ⟨valid, grants⟩ := valid_of_accepted decided rfl
    rcases shortened with ⟨rfl, rfl⟩ | shortens
    · exact decided
    · have own : current.key = request.key := Registry.key_of_find? found
      have registered : after.registry.find? request.key =
          some (current.withDuration duration) := by
        rw [shortens.registered]
        exact Registry.find?_replace found own
      exact decide_of_same_duration valid grants registered desired

theorem fourBlocks_again :
    ∃ s after, waitingRun.value = .ok s ∧
      (s.policy.decide s.terms 102400 fourBlocks s.air).value =
        .ok (.accepted 0 2000 4, after) ∧
      after.registry.length = 1 ∧
      (s.policy.decide s.terms 204800 { fourBlocks with received := 150000 } after).value =
        .ok (.accepted 0 2000 4, after) := by
  obtain ⟨⟨s, outcome, after⟩, ran, found⟩ := exists_ok
    (x := (do
      let s ← waitingRun
      return (s, ← s.policy.decide s.terms 102400 fourBlocks s.air) : Noted _).value)
    (f := fun (_, outcome, after) => (outcome, after.registry.length))
    (b := (.accepted 0 2000 4, 1)) (by decide +kernel)
  simp only [Noted.value_bind, Noted.value_pure, bind_eq_ok_iff, Except.ok.injEq,
    Prod.mk.injEq] at ran found
  obtain ⟨_, waits, _, decided, rfl, rfl⟩ := ran
  obtain ⟨rfl, registered⟩ := found
  exact ⟨_, after, waits, decided, registered, decide_again decided 204800 150000⟩

end BeaconScheduler.Policy
