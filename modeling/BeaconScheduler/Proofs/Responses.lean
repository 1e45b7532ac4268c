import BeaconScheduler.Proofs.Boundary
import BeaconScheduler.Proofs.Keys
import BeaconScheduler.Proofs.Published
import BeaconScheduler.Proofs.Resubmission

/-!
# Responses and the schedule

A response is made when its request is decided on, and the schedule only after the whole queue.
In between, the allocation that an acceptance is about can change by another acceptance of its
key alone (`decideAll_registers`), so the last one of each key says what the schedule then lists
(`boundary_responses_listed`).
-/

set_option autoImplicit false

namespace BeaconScheduler

open Counter

theorem TrafficSpec.desiredDuration_bounds {spec : TrafficSpec} {duration : Nat}
    (valid : spec.validate = .ok ()) (desired : spec.desiredDuration = .ok duration) :
    spec.min ≤ duration ∧ duration ≤ spec.max ∧ spec.max ≤ spec.kind.maxBlockDuration := by
  unfold TrafficSpec.validate at valid
  split_ifs at valid with zero above long
  unfold TrafficSpec.desiredDuration at desired
  cases format : spec.format with
  | asynchronous =>
      rw [format] at desired
      obtain rfl := Except.ok.inj desired
      exact ⟨Nat.le_refl _, by omega, by omega⟩
  | isochronous =>
      simp only [format, bind_eq_ok_iff, add_eq_ok_iff, pure_eq_ok_iff] at desired
      obtain ⟨_, ⟨_, rfl⟩, rfl⟩ := desired
      omega

namespace AdmissionResponse

/-- An acceptance grants the duration that the specification aims for, within its bounds. -/
def Fair (r : AdmissionResponse) : Prop :=
  ∀ start duration blocks, r.outcome = .accepted start duration blocks →
    r.spec.desiredDuration = .ok duration ∧ r.spec.min ≤ duration ∧ duration ≤ r.spec.max ∧
      r.spec.max ≤ r.spec.kind.maxBlockDuration

/-- An allocation of the key has the start, the block duration and the number of blocks that the
acceptance names. -/
def Listed (r : AdmissionResponse) (entries : Schedule) : Prop :=
  ∃ a ∈ entries, a.key = r.key ∧ r.outcome = .accepted a.start a.blockDuration a.blocks

end AdmissionResponse

namespace Scheduler

variable {policy : Policy} {terms : Terms} {now : Time} {request : AdmissionRequest}
  {outcome : Outcome} {air after last : Airtime} {queue : List AdmissionRequest}
  {responses before behind : List AdmissionResponse} {r : AdmissionResponse}

theorem decide_fair
    (decided : (policy.decide terms now request air).value = .ok (outcome, after)) :
    AdmissionResponse.Fair ⟨request.key, request.spec, outcome, now⟩ := by
  intro start duration blocks accepted
  dsimp only at accepted ⊢
  subst accepted
  obtain ⟨valid, _⟩ := Policy.valid_of_accepted decided rfl
  have desired : request.spec.desiredDuration = .ok duration := by
    rcases Policy.decide_cases decided with ⟨_, rejected, _⟩ | ⟨_, a, granted, answers, _⟩ |
      ⟨_, _, desired, _, granted, _⟩
    · cases rejected
    · rw [(Outcome.accepted.inj granted).2.1]
      exact answers.duration
    · rw [(Outcome.accepted.inj granted).2.1]
      exact desired
  exact ⟨desired, TrafficSpec.desiredDuration_bounds valid desired⟩

theorem decideAll_fair
    (decided : (decideAll policy terms now air queue).value = .ok (responses, last)) :
    ∀ r ∈ responses, r.Fair := by
  induction queue generalizing air responses with
  | nil =>
      obtain ⟨rfl, _⟩ := Prod.mk.inj (Except.ok.inj decided)
      exact fun _ member => absurd member List.not_mem_nil
  | cons request rest ih =>
      obtain ⟨_, _, _, own, decidedRest, rfl⟩ := decideAll_cons_eq_ok_iff.mp decided
      exact List.forall_mem_cons.mpr ⟨decide_fair own, ih decidedRest⟩

theorem decideAll_registers
    (decided : (decideAll policy terms now air queue).value = .ok (before ++ r :: behind, last))
    (accepted : r.outcome.isAccepted = true) (final : ¬ Accepts r.key behind) :
    ∃ a, last.registry.find? r.key = some a ∧ r.outcome = .granted a := by
  induction before generalizing air queue with
  | nil =>
      cases queue with
      | nil => cases (Prod.mk.inj (Except.ok.inj decided)).1
      | cons request rest =>
          obtain ⟨outcome, after, others, own, decidedRest, answers⟩ :=
            decideAll_cons_eq_ok_iff.mp decided
          obtain ⟨rfl, rfl⟩ := List.cons.inj answers
          have kept := decideAll_under_of_refused decidedRest final
          rw [Registry.find?_eq_head?, kept]
          cases Policy.decide_under request.key own with
          | none unanswered _ =>
              have refused := (unanswered rfl).symm.trans accepted
              cases refused
          | first _ _ granted registered => exact ⟨_, by rw [registered, List.head?_cons], granted⟩
          | shorter _ _ _ granted registered =>
              exact ⟨_, by rw [registered, List.head?_cons], granted⟩
  | cons earlier others ih =>
      cases queue with
      | nil => cases (Prod.mk.inj (Except.ok.inj decided)).1
      | cons request rest =>
          obtain ⟨_, _, _, _, decidedRest, answers⟩ := decideAll_cons_eq_ok_iff.mp decided
          obtain ⟨_, rfl⟩ := List.cons.inj answers
          exact ih decidedRest

variable {config : Config} {commands : List Command} {s next : Scheduler}

/-- At the end of an interval every acceptance is fair, and the schedule that is published lists
the last one of each key, whatever follows it in the queue. -/
theorem boundary_responses_listed (ran : (run config commands).value = .ok s)
    (ended : (s.endInterval now).value = .ok next) :
    ∃ responses, next.responses = s.responses ++ responses ∧
      responses.map (fun r => (r.key, r.spec, r.decided)) =
        s.queue.map (fun request => (request.key, request.spec, now)) ∧
      (∀ r ∈ responses, r.Fair) ∧
      ∀ before r behind, responses = before ++ r :: behind → r.outcome.isAccepted = true →
        ¬ Accepts r.key behind → r.Listed next.published := by
  obtain ⟨tiled, _⟩ := run_tiled ran
  obtain ⟨_, air, responses, _, _, _, decided, _, rfl⟩ := endInterval_eq_ok tiled ended
  refine ⟨responses, rfl, decideAll_answers decided, decideAll_fair decided, ?_⟩
  rintro before r behind rfl accepted final
  obtain ⟨a, found, granted⟩ := decideAll_registers decided accepted final
  refine ⟨a, air.schedule_perm.mem_iff.mpr (List.mem_append_left _ ?_),
    Registry.key_of_find? found, granted⟩
  exact List.mem_of_find?_eq_some found

/-- Five requests of two stations, of which four have one key: it is granted, shortened, refused
a longer duration and asked for without any. -/
def insistentRun : Noted Scheduler :=
  run {} [.startInterval 0 0 102400 1000 0,
    .request 10 7 ⟨3, .servicePeriod, false, 4, .asynchronous, 2000, 3000, 0, false⟩,
    .request 20 8 ⟨3, .servicePeriod, true, 4, .isochronous, 1000, 2001, 4, false⟩,
    .request 30 7 ⟨3, .servicePeriod, false, 4, .isochronous, 1000, 1500, 0, false⟩,
    .request 40 7 ⟨3, .servicePeriod, false, 4, .asynchronous, 1800, 1800, 0, false⟩,
    .request 50 7 ⟨3, .servicePeriod, false, 4, .asynchronous, 0, 1000, 0, false⟩,
    .handle 1000 .dataTransferStart]

def shortenedAnswer : AdmissionResponse :=
  ⟨⟨3, 7, 4⟩, ⟨3, .servicePeriod, false, 4, .isochronous, 1000, 1500, 0, false⟩,
    .accepted 0 1250 1, 102400⟩

theorem insistentRun_listed :
    ∃ s next, insistentRun.value = .ok s ∧ (s.endInterval 102400).value = .ok next ∧
      next.responses.map (·.outcome) = [.accepted 0 2000 1, .accepted 2010 1500 4,
        .accepted 0 1250 1, .rejected (.durationIncrease 1250 1800),
        .rejected (.invalidSpec .zeroDuration)] ∧
      (∀ r ∈ next.responses, r.Fair) ∧ next.responses[2]? = some shortenedAnswer ∧
      shortenedAnswer.Listed next.published := by
  obtain ⟨⟨s, next⟩, ran, computed⟩ := exists_ok
    (x := (do let s ← insistentRun; return (s, ← s.endInterval 102400) : Noted _).value)
    (f := fun (s, next) => (s.responses, next.responses.map (·.outcome), next.responses[2]?,
      Decidable.decide (Accepts shortenedAnswer.key (next.responses.drop 3))))
    (b := ([], [.accepted 0 2000 1, .accepted 2010 1500 4, .accepted 0 1250 1,
      .rejected (.durationIncrease 1250 1800), .rejected (.invalidSpec .zeroDuration)],
      some shortenedAnswer, false)) (by decide +kernel)
  simp only [Noted.value_bind, Noted.value_pure, bind_eq_ok_iff, Except.ok.injEq,
    Prod.mk.injEq, decide_eq_false_iff_not] at ran computed
  obtain ⟨reached, insists, after, ended, rfl, rfl⟩ := ran
  obtain ⟨none, outcomes, third, refused⟩ := computed
  obtain ⟨responses, told, _, fair, listed⟩ := boundary_responses_listed insists ended
  rw [none, List.nil_append] at told
  subst told
  obtain ⟨bound, own⟩ := List.getElem?_eq_some_iff.mp third
  have split : after.responses =
      after.responses.take 2 ++ shortenedAnswer :: after.responses.drop 3 := by
    rw [← own, ← List.drop_eq_getElem_cons, List.take_append_drop]
  exact ⟨reached, after, insists, ended, outcomes, fair, third,
    listed _ shortenedAnswer _ split rfl refused⟩

end Scheduler
end BeaconScheduler
