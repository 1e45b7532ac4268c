import BeaconScheduler.Proofs.Spacing
import BeaconScheduler.Proofs.Sums

/-!
# Grants of periodic allocations

A periodic request without an allocation is refused for two reasons only: blocks at its spacing
would leave too little contention time, or the free time has room for fewer than two of them.
The blocks are looked for in the free slots as they are and claimed one after another, each in
what the claims before it leave; since the search keeps them apart, no claim can fail, and
together they take exactly the blocks out of the free time (`Loses`).
-/

set_option autoImplicit false

namespace BeaconScheduler

open BeaconScheduler.Interval

namespace FreeSlots

variable {free after : FreeSlots} {list : List Interval}

/-- What the intervals cover was free, once each, and no longer is; all else is as it was. -/
structure Loses (free : FreeSlots) (list : List Interval) (after : FreeSlots) : Prop where
  disjoint : list.Pairwise Interval.Disjoint
  wasFree : ∀ i ∈ list, ∀ t, i.start ≤ t → t < i.stop → free.Free t
  wellFormed : after.WellFormed
  dti : after.dti = free.dti
  isFree_iff : ∀ t, after.Free t ↔ free.Free t ∧ ∀ i ∈ list, ¬ (i.start ≤ t ∧ t < i.stop)

theorem loses_of_claimEach (wellFormed : free.WellFormed)
    (claimed : free.claimEach list = .ok after) : free.Loses list after := by
  obtain ⟨nonempty, wellFormedAfter, dti, split⟩ := claimEach_eq_ok wellFormed claimed
  have once := wellFormed.coverage_le_one
  refine ⟨(pairwise_disjoint_iff nonempty).mpr fun t => ?_, fun i member t first last => ?_,
    wellFormedAfter, dti, fun t => ?_⟩
  · have := once t
    have := split t
    omega
  · have covered := coverage_pos_of_mem member first last
    have := split t
    exact free_iff.mpr (by omega)
  · have := once t
    have := split t
    rw [free_iff, free_iff, ← coverage_eq_zero_iff]
    omega

end FreeSlots

namespace Policy

variable {terms : Terms} {source : Aid} {spec : TrafficSpec} {air : Airtime} {duration : Nat}

theorem spacing_pos (positive : 0 < duration) (uncrowded : ¬ Crowded terms spec duration) :
    0 < terms.interval / spec.period := by
  by_contra none
  exact uncrowded (.inl (by omega))

/-- The answer that grants `n` blocks from `start` on: one allocation is registered, and each of
its blocks leaves the free time with its guard time. -/
structure GrantsBlocks (terms : Terms) (source : Aid) (spec : TrafficSpec) (duration start n : Nat)
    (air : Airtime) (outcome : Outcome) (after : Airtime) : Prop where
  accepted : outcome = .accepted start duration n
  registered : after.registry = air.registry ++
    [{ key := spec.key source
       kind := spec.kind
       isStatic := spec.isStatic
       start
       blockDuration := duration
       blockPeriod := terms.interval / spec.period
       blocks := n
       beamforming := none
       announced := false }]
  claimed : air.slots.Loses ((List.range n).map fun i =>
    ⟨start + i * (terms.interval / spec.period),
      start + i * (terms.interval / spec.period) + duration + terms.guard⟩) after.slots

theorem grantsBlocks_of_adds {start n : Nat} {after : Airtime} (wellFormed : air.slots.WellFormed)
    (several : 1 < n) (positive : 0 < terms.interval / spec.period)
    (adds : air.Adds terms.guard
      (requestedBlocks source spec start duration n (terms.interval / spec.period)) after) :
    GrantsBlocks terms source spec duration start n air
      (.granted (requestedBlocks source spec start duration n (terms.interval / spec.period)))
      after := by
  have claimed := adds.claimed
  rw [extent_requestedBlocks several positive (FreeSlots.range'_eq_map start n _).symm,
    List.map_map] at claimed
  exact ⟨rfl, adds.registered, FreeSlots.loses_of_claimEach wellFormed claimed⟩

/-- Where the sums that it takes fit their counters, a periodic request is granted as many
blocks as the free time has room for from the first slot on that can hold one, and refused
exactly if they would be crowded or there are fewer than two. -/
theorem periodic_admission (wellFormed : air.slots.WellFormed) (small : air.slots.dti < 2 ^ 32)
    (valid : spec.validate = .ok ()) (periodic : spec.period ≠ 0)
    (desired : spec.desiredDuration = .ok duration)
    (sums : Policy.periodic.SumsFit terms spec duration air.slots) :
    ∃ outcome after, (Policy.periodic.grant terms source spec air).value = .ok (outcome, after) ∧
      (outcome = .rejected (.cbapFloor (terms.interval / spec.period) duration) ↔
        Crowded terms spec duration) ∧
      (¬ Crowded terms spec duration → ∃ offsets,
        air.slots.LongestFrom (duration + terms.guard) (terms.interval / spec.period)
          terms.maxBlocks offsets ∧
        (outcome = .rejected (.tooFewBlocks offsets.length) ↔ offsets.length < 2) ∧
        (2 ≤ offsets.length → ∃ start, offsets.head? = some start ∧
          GrantsBlocks terms source spec duration start offsets.length air outcome after)) ∧
      (∀ reason, outcome = .rejected reason → after = air) ∧
      ∀ e, outcome ≠ .rejected (.slots e) := by
  have positive := desiredDuration_pos valid desired
  have settled : Settled (placePeriodic terms source spec duration air).value :=
    placePeriodic_settled wellFormed small positive periodic sums.1 (sums.2 periodic)
  obtain ⟨outcome, after, ended, unrefused⟩ := settled
  have granted : (Policy.periodic.grant terms source spec air).value = .ok (outcome, after) := by
    simp only [grant, Noted.value_bind, Noted.value_lift, desired, Counter.ok_bind,
      if_pos (TrafficSpec.isPeriodic_iff.mpr periodic)]
    exact ended
  refine ⟨outcome, after, granted, ?_⟩
  cases placePeriodic_answers ended with
  | floor crowded =>
      exact ⟨⟨fun _ => crowded, fun _ => rfl⟩, fun uncrowded => absurd crowded uncrowded,
        fun _ _ => rfl, unrefused⟩
  | few offsets uncrowded found few =>
      have longest := FreeSlots.periodicOffsets_longest wellFormed.canonical
        (spacing_pos positive uncrowded) found
      refine ⟨⟨fun same => ?_, fun crowded => absurd crowded uncrowded⟩,
        fun _ => ⟨offsets, longest, ⟨fun _ => few, fun _ => rfl⟩, fun several => ?_⟩,
        fun _ _ => rfl, unrefused⟩
      · cases same
      · exact absurd few (Nat.not_lt_of_le several)
  | refused e => exact absurd rfl (unrefused e)
  | granted start rest _ uncrowded found several adds =>
      have apart := spacing_pos positive uncrowded
      have longest := FreeSlots.periodicOffsets_longest wellFormed.canonical apart found
      have blocks : 1 < rest.length + 1 := Nat.succ_lt_succ (List.length_pos_iff.mpr several)
      have accepted : ∀ reason, .granted (requestedBlocks source spec start duration
          (rest.length + 1) (terms.interval / spec.period)) ≠ Outcome.rejected reason := by
        intro reason same
        cases same
      refine ⟨⟨fun same => absurd same (accepted _), fun crowded => absurd crowded uncrowded⟩,
        fun _ => ⟨start :: rest, longest, ⟨fun same => absurd same (accepted _), fun few => ?_⟩,
          fun _ => ?_⟩, fun reason same => absurd same (accepted reason), unrefused⟩
      · exact absurd few (Nat.not_lt_of_le blocks)
      · exact ⟨start, rfl, grantsBlocks_of_adds wellFormed blocks apart adds⟩

def gappedAir : Airtime :=
  ⟨[.single ⟨1, 2, 3⟩ .servicePeriod true 999 991,
    .single ⟨1, 2, 4⟩ .servicePeriod true 40000 9990], FreeSlots.threeSlots⟩

def quarterly : TrafficSpec :=
  ⟨3, .servicePeriod, true, 4, .asynchronous, 990, 990, 4, false⟩

theorem quarterly_admitted :
    ∃ after offsets, (Policy.periodic.grant ⟨⟨10, 4096, 255⟩, 102400⟩ 7 quarterly gappedAir).value =
        .ok (.accepted 2000 990 4, after) ∧
      gappedAir.slots.LongestFrom (990 + 10) 25600 255 offsets ∧
      ∃ start, offsets.head? = some start ∧
        GrantsBlocks ⟨⟨10, 4096, 255⟩, 102400⟩ 7 quarterly 990 start offsets.length gappedAir
          (.accepted 2000 990 4) after := by
  obtain ⟨computedAfter, computed⟩ : ∃ after, (Policy.periodic.grant ⟨⟨10, 4096, 255⟩, 102400⟩ 7
      quarterly gappedAir).value = .ok (.accepted 2000 990 4, after) := ⟨_, rfl⟩
  have sums : Policy.periodic.SumsFit ⟨⟨10, 4096, 255⟩, 102400⟩ quarterly 990 gappedAir.slots :=
    ⟨by decide, fun _ _ _ _ _ _ candidate =>
      candidate.sumsFit FreeSlots.threeSlots_wellFormed (by decide) (by decide)⟩
  have uncrowded : ¬ Crowded ⟨⟨10, 4096, 255⟩, 102400⟩ quarterly 990 := by
    unfold Crowded
    decide
  obtain ⟨outcome, after, granted, _, answered, _⟩ :=
    periodic_admission FreeSlots.threeSlots_wellFormed (by decide) (by decide) (by decide) rfl sums
  obtain ⟨rfl, rfl⟩ := Prod.mk.inj (Except.ok.inj (computed.symm.trans granted))
  obtain ⟨offsets, longest, few, blocks⟩ := answered uncrowded
  have several : ¬ offsets.length < 2 := fun short => by cases few.mpr short
  exact ⟨_, offsets, granted, longest, blocks (Nat.le_of_not_lt several)⟩

end Policy
end BeaconScheduler
