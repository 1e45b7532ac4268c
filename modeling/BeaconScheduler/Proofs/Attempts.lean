import BeaconScheduler.Proofs.RoundTrip

/-!
# All or nothing

Blocks are claimed, and tails released, one after another, and any of these steps can be
refused: the policies look at the free slots and not at the registry, and the two need not agree.
Whatever they are, an attempt that does not succeed leaves registry and free slots as they were,
also when earlier blocks had been claimed or released; one that succeeds has its whole effect
(`attempt_all_or_nothing`).
-/

set_option autoImplicit false

namespace BeaconScheduler.Airtime

open Counter

variable {terms : Terms} {air after : Airtime}

inductive Attempt where
  | grant (policy : Policy) (source : Aid) (spec : TrafficSpec)
  | modify (policy : Policy) (source : Aid) (spec : TrafficSpec)
  | reserve (a : Allocation)
  | single (key : Allocation.Key) (kind : Allocation.Kind) (isStatic : Bool) (start duration : Nat)
  | backToBack (key : Allocation.Key) (kind : Allocation.Kind) (isStatic : Bool)
      (start duration count : Nat)
  | cbap (isStatic : Bool) (start duration : Nat)
  | wholeDti (key : Allocation.Key)
  | training (source dest : Aid) (duration : Nat) (beamforming : Allocation.Beamforming)

namespace Attempt

def decided (answer : Noted (Outcome × Airtime)) : Except Fault (Bool × Airtime) := do
  let (outcome, after) ← answer.value
  return (outcome.isAccepted, after)

def reserved (reservation : Noted (Except SlotError Nat × Airtime)) :
    Except Fault (Bool × Airtime) := do
  let (result, after) ← reservation.value
  return (result.isOk, after)

def make (terms : Terms) (air : Airtime) : Attempt → Except Fault (Bool × Airtime)
  | .grant policy source spec => decided (policy.grant terms source spec air)
  | .modify policy source spec => decided (policy.modify terms source spec air)
  | .reserve a => reserved (air.reserve terms a)
  | .single key kind isStatic start duration =>
      reserved (air.reserveBlock terms key kind isStatic start duration)
  | .backToBack key kind isStatic start duration count =>
      reserved (air.reserveBlocks terms key kind isStatic start duration count)
  | .cbap isStatic start duration => reserved (air.reserveCbap terms isStatic start duration)
  | .wholeDti key => reserved (air.reserveWholeDti terms key)
  | .training source dest duration beamforming =>
      reserved (air.reserveTraining terms source dest duration beamforming)

/-- What an attempt that succeeds leaves behind. -/
def Effect (terms : Terms) (air after : Airtime) : Attempt → Prop
  | .grant policy source spec =>
      ∃ a, Policy.Answers policy terms source spec a ∧ air.Adds terms.guard a after
  | .modify _ source spec =>
      ∃ outcome, outcome.isAccepted = true ∧
        Policy.ShortenAnswer terms source spec air outcome after
  | .reserve a => air.Adds terms.guard a after
  | .single key kind isStatic start duration =>
      air.Adds terms.guard (.single key kind isStatic start duration) after
  | .backToBack key kind isStatic start duration count =>
      air.Adds terms.guard { Allocation.single key kind isStatic start duration with
        blocks := count } after
  | .cbap isStatic start duration =>
      air.Adds terms.guard { Allocation.broadcastCbap start duration with isStatic } after
  | .wholeDti key => air.Adds terms.guard (Airtime.wholeDti terms key air.slots.dti) after
  | .training source dest duration beamforming =>
      ∃ start, air.Adds terms.guard (Airtime.training source dest start duration beamforming) after

end Attempt

def AllOrNothing (succeeded : Bool) (effect : Prop) (air after : Airtime) : Prop :=
  (succeeded = false → after = air) ∧ (succeeded = true → effect)

theorem allOrNothing_of_failure {effect : Prop} : AllOrNothing false effect air air :=
  ⟨fun _ => rfl, fun has => (nomatch has)⟩

theorem allOrNothing_of_success {effect : Prop} (has : effect) :
    AllOrNothing true effect air after :=
  ⟨fun failed => (nomatch failed), fun _ => has⟩

theorem reserved_allOrNothing {reservation : Noted (Except SlotError Nat × Airtime)}
    {effect : Prop} {succeeded : Bool}
    (possible : ∀ result, reservation.value = .ok (result, after) →
      (∃ e, result = .error e ∧ after = air) ∨ ((∃ stop, result = .ok stop) ∧ effect))
    (made : Attempt.reserved reservation = .ok (succeeded, after)) :
    AllOrNothing succeeded effect air after := by
  obtain ⟨⟨result, slots⟩, ended, same⟩ := bind_eq_ok_iff.mp made
  obtain ⟨rfl, rfl⟩ := Prod.mk.inj (pure_eq_ok_iff.mp same)
  rcases possible result ended with ⟨e, rfl, rfl⟩ | ⟨⟨stop, rfl⟩, has⟩
  · exact allOrNothing_of_failure
  · exact allOrNothing_of_success has

theorem grant_allOrNothing {policy : Policy} {source : Aid} {spec : TrafficSpec} {succeeded : Bool}
    (made : (Attempt.grant policy source spec).make terms air = .ok (succeeded, after)) :
    AllOrNothing succeeded ((Attempt.grant policy source spec).Effect terms air after)
      air after := by
  obtain ⟨⟨outcome, slots⟩, granted, same⟩ := bind_eq_ok_iff.mp made
  obtain ⟨rfl, rfl⟩ := Prod.mk.inj (pure_eq_ok_iff.mp same)
  rcases Policy.grant_cases granted with ⟨reason, rfl, rfl⟩ | ⟨a, rfl, answers, adds⟩
  · exact allOrNothing_of_failure
  · exact allOrNothing_of_success ⟨a, answers, adds⟩

theorem shorten_allOrNothing {source : Aid} {spec : TrafficSpec} {outcome : Outcome}
    (answer : Policy.ShortenAnswer terms source spec air outcome after) :
    AllOrNothing outcome.isAccepted
      (∃ outcome, outcome.isAccepted = true ∧
        Policy.ShortenAnswer terms source spec air outcome after) air after := by
  cases answer with
  | unknown => exact allOrNothing_of_failure
  | increase => exact allOrNothing_of_failure
  | refused => exact allOrNothing_of_failure
  | unchanged current desired found =>
      exact allOrNothing_of_success ⟨_, rfl, .unchanged current desired found⟩
  | shortened current duration slots desired found shorter fits reopened =>
      exact allOrNothing_of_success
        ⟨_, rfl, .shortened current duration slots desired found shorter fits reopened⟩

theorem modify_allOrNothing {policy : Policy} {source : Aid} {spec : TrafficSpec} {succeeded : Bool}
    (made : (Attempt.modify policy source spec).make terms air = .ok (succeeded, after)) :
    AllOrNothing succeeded ((Attempt.modify policy source spec).Effect terms air after)
      air after := by
  obtain ⟨⟨outcome, slots⟩, modified, same⟩ := bind_eq_ok_iff.mp made
  obtain ⟨rfl, rfl⟩ := Prod.mk.inj (pure_eq_ok_iff.mp same)
  rcases Policy.modify_routes modified with ⟨reason, rfl, rfl⟩ | shortened
  · exact allOrNothing_of_failure
  · exact shorten_allOrNothing (Policy.shorten_answers shortened)

/-- Whatever registry and free slots are, an attempt that fails leaves them as they were. -/
theorem attempt_all_or_nothing {attempt : Attempt} {succeeded : Bool}
    (made : attempt.make terms air = .ok (succeeded, after)) :
    (succeeded = false → after = air) ∧ (succeeded = true → attempt.Effect terms air after) := by
  cases attempt with
  | grant policy source spec => exact grant_allOrNothing made
  | modify policy source spec => exact modify_allOrNothing made
  | reserve a => exact reserved_allOrNothing (fun _ => reserve_cases) made
  | single key kind isStatic start duration =>
      exact reserved_allOrNothing (fun _ => reserve_cases) made
  | backToBack key kind isStatic start duration count =>
      exact reserved_allOrNothing (fun _ => reserve_cases) made
  | cbap isStatic start duration => exact reserved_allOrNothing (fun _ => reserve_cases) made
  | wholeDti key => exact reserved_allOrNothing (fun _ => reserveWholeDti_cases) made
  | training source dest duration beamforming =>
      refine reserved_allOrNothing (fun result ended => ?_) made
      rcases reserveTraining_cases ended with failed | ⟨start, rfl, adds⟩
      · exact .inl failed
      · exact .inr ⟨⟨start, rfl⟩, start, adds⟩

def quarterBlocks (start : Nat) : Allocation :=
  { Allocation.single ⟨3, 7, 4⟩ .servicePeriod false start 2000 with
    blockPeriod := 25600
    blocks := 4 }

/-- Free slots that do not know of the last two of the registered blocks. -/
def strayAir : Airtime :=
  ⟨[quarterBlocks 0], ⟨101400, [⟨2010, 25600⟩, ⟨30000, 101400⟩]⟩⟩

theorem halfway_failures_undone :
    (∃ claimed, strayAir.slots.claim 4000 6010 = .ok claimed) ∧
    (Attempt.reserve (quarterBlocks 4000)).make usualTerms strayAir = .ok (false, strayAir) ∧
    (∃ first second, strayAir.slots.release 1510 2010 = .ok first ∧
      first.release 27110 27610 = .ok second) ∧
    (Attempt.modify .basic 7 (blocksFor 3 1500 0)).make usualTerms strayAir =
      .ok (false, strayAir) := by
  refine ⟨⟨_, rfl⟩, ?_, ⟨_, _, rfl, rfl⟩, ?_⟩
  · obtain ⟨after, made⟩ : ∃ after, (Attempt.reserve (quarterBlocks 4000)).make usualTerms
        strayAir = .ok (false, after) := ⟨_, rfl⟩
    obtain rfl := (attempt_all_or_nothing made).1 rfl
    exact made
  · obtain ⟨after, made⟩ : ∃ after, (Attempt.modify .basic 7 (blocksFor 3 1500 0)).make usualTerms
        strayAir = .ok (false, after) := ⟨_, rfl⟩
    obtain rfl := (attempt_all_or_nothing made).1 rfl
    exact made

end BeaconScheduler.Airtime
