import BeaconScheduler.Proofs.Runs

/-!
# The period of a request, and what its answer grants

An accepted request whose key is not registered gets what its period asks for: a single
block for none, two blocks or more at a whole fraction of the beacon interval otherwise.
Under a registered key the period plays no part: an acceptance changes the block duration
and nothing else.  `Honours` says both, and `boundary_honours` that every decision at the end
of an interval does.
-/

set_option autoImplicit false

namespace BeaconScheduler

open Counter

namespace Policy

variable {policy : Policy} {terms : Terms} {now : Time} {request : AdmissionRequest}
  {outcome : Outcome} {air after : Airtime}

/-- What an answer says about the allocation of the request's key before and after it. -/
structure Honours (policy : Policy) (terms : Terms) (request : AdmissionRequest)
    (outcome : Outcome) (air after : Airtime) : Prop where
  rejected : outcome.isAccepted = false → after = air
  single : outcome.isAccepted = true → air.registry.find? request.key = none →
    request.spec.period = 0 →
    ∃ a, after.registry.find? request.key = some a ∧ a.blocks = 1 ∧ a.blockPeriod = 0
  periodic : outcome.isAccepted = true → air.registry.find? request.key = none →
    request.spec.period ≠ 0 → policy = .periodic ∧
    ∃ a, after.registry.find? request.key = some a ∧ 2 ≤ a.blocks ∧
      a.blockPeriod = terms.interval / request.spec.period ∧
      a.blockDuration + terms.minBroadcastCbap ≤ a.blockPeriod
  registered : ∀ current, outcome.isAccepted = true →
    air.registry.find? request.key = some current →
    ∃ duration, request.spec.desiredDuration = .ok duration ∧
      duration ≤ current.blockDuration ∧
      after.registry.find? request.key = some { current with blockDuration := duration }

theorem Honours.unchanged (honours : Honours policy terms request outcome air after)
    (unable : policy ≠ .periodic) (unregistered : air.registry.find? request.key = none)
    (periodic : request.spec.period ≠ 0) : outcome.isAccepted = false ∧ after = air := by
  cases accepted : outcome.isAccepted with
  | false => exact ⟨rfl, honours.rejected accepted⟩
  | true => exact absurd (honours.periodic accepted unregistered periodic).1 unable

theorem find?_added {guard : Nat} {key : Allocation.Key} {a : Allocation}
    (unregistered : air.registry.find? key = none) (own : a.key = key)
    (adds : air.Adds guard a after) : after.registry.find? key = some a := by
  rw [adds.registered]
  unfold Registry.find? at unregistered ⊢
  rw [List.find?_append, unregistered]
  simp [own]

theorem decide_honours
    (decided : (policy.decide terms now request air).value = .ok (outcome, after)) :
    Honours policy terms request outcome air after := by
  rcases decide_cases decided with ⟨reason, rfl, rfl⟩ | ⟨absent, a, rfl, answers, adds⟩ |
    ⟨current, duration, desired, found, rfl, shortened⟩
  · exact ⟨fun _ => rfl, by simp [Outcome.isAccepted], by simp [Outcome.isAccepted],
      by simp [Outcome.isAccepted]⟩
  · have unregistered : air.registry.find? request.key = none := by
      simpa [Registry.contains] using absent
    have added := find?_added unregistered answers.key adds
    refine ⟨by simp [Outcome.isAccepted, Outcome.granted], fun _ _ single => ?_,
      fun _ _ periodic => ?_, fun current _ found => ?_⟩
    · exact ⟨a, added, answers.single single⟩
    · exact ⟨(answers.periodic periodic).1, a, added, (answers.periodic periodic).2⟩
    · rw [unregistered] at found
      cases found
  · refine ⟨by simp [Outcome.isAccepted, Outcome.granted], fun _ unregistered => ?_,
      fun _ unregistered => ?_, fun other _ same => ?_⟩
    · rw [unregistered] at found
      cases found
    · rw [unregistered] at found
      cases found
    · obtain rfl := Option.some.inj (found.symm.trans same)
      refine ⟨duration, desired, ?_⟩
      rcases shortened with ⟨rfl, rfl⟩ | shortens
      · exact ⟨Nat.le_refl _, found⟩
      · refine ⟨Nat.le_of_lt shortens.shorter, ?_⟩
        have own : current.key = request.key := Registry.key_of_find? found
        rw [shortens.registered]
        exact Registry.find?_replace found own

end Policy

namespace Scheduler

variable {policy : Policy} {terms : Terms} {now : Time} {request : AdmissionRequest}
  {air last : Airtime} {before behind : List AdmissionRequest}
  {responses : List AdmissionResponse}

theorem decideAll_append
    (decided : (decideAll policy terms now air (before ++ request :: behind)).value =
      .ok (responses, last)) :
    ∃ answers reached outcome after others,
      (decideAll policy terms now air before).value = .ok (answers, reached) ∧
      (policy.decide terms now request reached).value = .ok (outcome, after) ∧
      (decideAll policy terms now after behind).value = .ok (others, last) ∧
      responses = answers ++ ⟨request.key, request.spec, outcome, now⟩ :: others := by
  induction before generalizing air responses with
  | nil =>
      obtain ⟨outcome, after, others, own, decidedRest, rfl⟩ :=
        decideAll_cons_eq_ok_iff.mp decided
      exact ⟨[], air, outcome, after, others, rfl, own, decidedRest, rfl⟩
  | cons other rest ih =>
      obtain ⟨outcomeOther, middle, _, first, decidedRest, rfl⟩ :=
        decideAll_cons_eq_ok_iff.mp decided
      obtain ⟨answers, reached, outcome, after, others, earlier, own, later, rfl⟩ :=
        ih decidedRest
      exact ⟨_, reached, outcome, after, others,
        decideAll_cons_eq_ok_iff.mpr ⟨_, _, _, first, earlier, rfl⟩, own, later, rfl⟩

variable {config : Config} {commands : List Command} {s next : Scheduler}

/-- Every decision at the end of an interval honours the period of its request. -/
theorem boundary_honours (ran : (run config commands).value = .ok s)
    (ended : (s.endInterval now).value = .ok next)
    (queued : s.queue = before ++ request :: behind) :
    ∃ terms : Terms, terms = { config.limits with interval := s.timing.interval } ∧
    ∃ (cleaned reached after last : Airtime) (outcome : Outcome)
        (answers others : List AdmissionResponse),
      cleaned.registry = s.air.registry.purge.2 ∧
      (decideAll config.policy terms now cleaned before).value = .ok (answers, reached) ∧
      (config.policy.decide terms now request reached).value = .ok (outcome, after) ∧
      (decideAll config.policy terms now after behind).value = .ok (others, last) ∧
      next.air = last.announced ∧
      next.responses =
        s.responses ++ (answers ++ ⟨request.key, request.spec, outcome, now⟩ :: others) ∧
      Policy.Honours config.policy terms request outcome reached after := by
  obtain ⟨tiled, limits, policy⟩ := run_tiled ran
  obtain ⟨cleaned, last, responses, _, purged, _, decided, _, rfl⟩ :=
    endInterval_eq_ok tiled ended
  rw [queued] at decided
  obtain ⟨answers, reached, outcome, after, others, earlier, own, later, rfl⟩ :=
    decideAll_append decided
  rw [policy] at earlier own later
  refine ⟨s.terms, by rw [terms, limits], cleaned, reached, after, last, outcome, answers, others,
    purged, earlier, own, later, rfl, rfl, Policy.decide_honours own⟩

def fourBlocks : AdmissionRequest :=
  ⟨7, ⟨3, .servicePeriod, false, 4, .asynchronous, 2000, 2000, 4, false⟩, 500⟩

def waitingRun : Noted Scheduler :=
  run {} [.startInterval 0 0 102400 1000 0,
    .request fourBlocks.received fourBlocks.source fourBlocks.spec,
    .handle 1000 .dataTransferStart]

theorem fourBlocks_honoured :
    ∃ s next reached after, waitingRun.value = .ok s ∧
      (s.endInterval 102400).value = .ok next ∧
      next.responses.map (·.outcome) = [.accepted 0 2000 4] ∧
      Policy.Honours .periodic s.terms fourBlocks (.accepted 0 2000 4) reached after := by
  obtain ⟨⟨s, next⟩, ran, computed⟩ := exists_ok
    (x := (do let s ← waitingRun; return (s, ← s.endInterval 102400) : Noted _).value)
    (f := fun (s, next) => (s.queue, s.responses, s.limits, next.responses.map (·.outcome)))
    (b := ([fourBlocks], [], ⟨10, 4096, 255⟩, [.accepted 0 2000 4])) (by decide +kernel)
  simp only [Noted.value_bind, Noted.value_pure, bind_eq_ok_iff, Except.ok.injEq,
    Prod.mk.injEq] at ran computed
  obtain ⟨_, waits, _, ended, rfl, rfl⟩ := ran
  obtain ⟨queued, none, limits, outcomes⟩ := computed
  rw [← List.nil_append [fourBlocks]] at queued
  obtain ⟨_, rfl, _, reached, after, _, outcome, answers, others, _, earlier, _, later, _,
    answered, honours⟩ := boundary_honours waits ended queued
  obtain ⟨rfl, rfl⟩ := Prod.mk.inj (Except.ok.inj earlier)
  obtain ⟨rfl, rfl⟩ := Prod.mk.inj (Except.ok.inj later)
  rw [none] at answered
  have granted : outcome = .accepted 0 2000 4 := by simpa [answered] using outcomes
  rw [granted] at honours
  exact ⟨_, _, _, _, waits, ended, outcomes, by simpa [terms, limits] using honours⟩

/-! ## The period of a request under a registered key -/

/-- A static block of a station that then asks for four shorter ones. -/
def repeatedRun : Noted Scheduler :=
  run { policy := .basic }
    [.startInterval 0 0 102400 1000 0,
      .request 10 7 ⟨3, .servicePeriod, true, 4, .asynchronous, 2000, 2000, 0, false⟩,
      .handle 1000 .dataTransferStart,
      .handle 102400 .intervalEnd,
      .takeResponses,
      .startInterval 102400 0 102400 1000 0,
      .request 102500 7 ⟨3, .servicePeriod, true, 4, .asynchronous, 1500, 1500, 4, false⟩,
      .handle 103400 .dataTransferStart]

theorem basic_accepts_registered_periodic :
    ∃ s next, repeatedRun.value = .ok s ∧ (s.endInterval 204800).value = .ok next ∧
      s.policy = .basic ∧
      next.responses.map (fun r => (r.spec.period, r.outcome)) = [(4, .accepted 0 1500 1)] ∧
      next.air.registry.map (fun a => (a.blocks, a.blockPeriod, a.blockDuration)) =
        [(1, 0, 1500)] := by
  obtain ⟨⟨s, next⟩, ran, computed⟩ := exists_ok
    (x := (do let s ← repeatedRun; return (s, ← s.endInterval 204800) : Noted _).value)
    (f := fun (s, next) => (s.policy, next.responses.map fun r => (r.spec.period, r.outcome),
      next.air.registry.map fun a => (a.blocks, a.blockPeriod, a.blockDuration)))
    (b := (.basic, [(4, .accepted 0 1500 1)], [(1, 0, 1500)])) (by decide +kernel)
  simp only [Noted.value_bind, Noted.value_pure, bind_eq_ok_iff, Except.ok.injEq,
    Prod.mk.injEq] at ran computed
  obtain ⟨_, waits, _, ended, rfl, rfl⟩ := ran
  exact ⟨_, _, waits, ended, computed⟩

end Scheduler
end BeaconScheduler
