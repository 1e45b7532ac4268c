import BeaconScheduler.Proofs.Search

/-!
# The sums of a new allocation

Where a policy finds free time it can claim it, so no new request is refused by the free slots.
What can keep a request from being answered are sums of more than 32 bits: the length of a
block with its guard time, and offsets of the search for equally spaced blocks.  `SumsFit`
lists them, and a request gets its answer exactly if they fit (`grant_ends_iff`).
-/

set_option autoImplicit false

namespace BeaconScheduler

open Counter BeaconScheduler.Interval

namespace Allocation

variable {a : Allocation} {guard : Nat}

theorem stop_ends (fits : a.Fits guard) : Ends a.stop := by
  unfold Fits extent at fits
  unfold Allocation.stop
  by_cases periodic : a.isPeriodic = true
  · have several := (isPeriodic_iff.mp periodic).1
    rw [if_pos periodic] at fits ⊢
    have last := fits (a.blockExtent guard (a.blocks - 1))
      (List.mem_map_of_mem (List.mem_range.mpr (by omega)))
    dsimp only [blockExtent] at last
    refine ⟨a.start + (a.blocks - 1) * a.blockPeriod + a.blockDuration, ?_⟩
    simp only [bind_eq_ok_iff, add_eq_ok_iff, mul_eq_ok_iff]
    exact ⟨_, ⟨by omega, rfl⟩, _, ⟨by omega, rfl⟩, by omega, rfl⟩
  · rw [if_neg periodic] at fits ⊢
    have last := fits (a.spanExtent guard) (List.mem_singleton_self _)
    dsimp only [spanExtent] at last
    refine ⟨a.start + a.blockDuration * a.blocks, ?_⟩
    simp only [bind_eq_ok_iff, add_eq_ok_iff, mul_eq_ok_iff]
    exact ⟨_, ⟨by omega, rfl⟩, by omega, rfl⟩

end Allocation

namespace Airtime

variable {air : Airtime} {a : Allocation} {terms : Terms}

theorem register_ends {guard : Nat} (registry : Registry) (fits : a.Fits guard) :
    ∃ stop, (register registry a).value = .ok (stop, registry ++ [a]) := by
  obtain ⟨stop, ends⟩ := Allocation.stop_ends fits
  refine ⟨stop, ?_⟩
  rw [value_register, ends]
  rfl

theorem reserve_of_coverage (fits : a.Fits terms.guard) (wellFormed : air.slots.WellFormed)
    (nonempty : ∀ i ∈ a.extent terms.guard, i.start < i.stop)
    (within : ∀ t, coverage (a.extent terms.guard) t ≤ coverage air.slots.slots t) :
    ∃ stop after, (air.reserve terms a).value = .ok (.ok stop, after) := by
  obtain ⟨slots, claimed⟩ := FreeSlots.claimEach_of_coverage wellFormed nonempty within
  obtain ⟨stop, counted⟩ := Allocation.stop_ends fits
  refine ⟨stop, ⟨air.registry ++ [a], slots⟩, ?_⟩
  rw [value_reserve fits counted, claimed]

end Airtime

namespace FreeSlots

variable {free : FreeSlots} {start n spacing needed : Nat}

theorem coverage_blocks (positive : 0 < needed) (close : needed ≤ spacing)
    (room : ∀ t ∈ List.range' start n spacing, free.Room needed t)
    (t : Nat) :
    coverage ((List.range' start n spacing).map fun t => ⟨t, t + needed⟩) t ≤
      coverage free.slots t := by
  have nonempty : ∀ i ∈ (List.range' start n spacing).map fun t => Interval.mk t (t + needed),
      i.start < i.stop := by
    intro i member
    obtain ⟨u, _, rfl⟩ := List.mem_map.mp member
    dsimp only
    omega
  have disjoint : ((List.range' start n spacing).map fun t =>
      Interval.mk t (t + needed)).Pairwise Interval.Disjoint := by
    refine List.pairwise_map.mpr (List.pairwise_iff_getElem.mpr fun i j _ _ before => ?_)
    have step : spacing * i + spacing ≤ spacing * j := by
      rw [← Nat.mul_succ]
      exact Nat.mul_le_mul_left spacing before
    rw [List.getElem_range', List.getElem_range']
    unfold Interval.Disjoint
    dsimp only
    omega
  have once := (pairwise_disjoint_iff nonempty).mp disjoint t
  by_cases covered : 0 < coverage ((List.range' start n spacing).map fun t =>
      Interval.mk t (t + needed)) t
  · obtain ⟨i, member, first, last⟩ := coverage_pos_iff.mp covered
    obtain ⟨u, block, rfl⟩ := List.mem_map.mp member
    have isFree := free_iff.mp (room u block t first last)
    omega
  · omega

end FreeSlots

namespace TrafficSpec

variable {spec : TrafficSpec}

theorem isPeriodic_iff : spec.isPeriodic = true ↔ spec.period ≠ 0 := by
  simp [TrafficSpec.isPeriodic]

theorem desiredDuration_of_valid (valid : spec.validate = .ok ()) :
    ∃ duration, spec.desiredDuration = .ok duration ∧ 0 < duration ∧ duration ≤ 65535 := by
  have ceiling : spec.kind.maxBlockDuration ≤ 65535 := by
    cases spec.kind <;> decide
  unfold TrafficSpec.validate at valid
  split_ifs at valid with zero above long
  unfold TrafficSpec.desiredDuration
  cases spec.format with
  | asynchronous => exact ⟨spec.min, rfl, by omega, by omega⟩
  | isochronous =>
      refine ⟨(spec.min + spec.max) / 2, ?_, by omega, by omega⟩
      simp only [bind_eq_ok_iff, add_eq_ok_iff, pure_eq_ok_iff]
      exact ⟨_, ⟨by omega, rfl⟩, rfl⟩

end TrafficSpec

namespace Policy

variable {policy : Policy} {terms : Terms} {source : Aid} {spec : TrafficSpec}
  {air after : Airtime} {outcome : Outcome} {duration : Nat}

/-- A computation that ends, with an answer that is not a refusal by the free slots. -/
def Settled (x : Except Fault (Outcome × Airtime)) : Prop :=
  ∃ outcome after, x = .ok (outcome, after) ∧ ∀ e, outcome ≠ .rejected (.slots e)

theorem Settled.ends {x : Except Fault (Outcome × Airtime)} (settled : Settled x) : Ends x := by
  obtain ⟨outcome, after, ended, _⟩ := settled
  exact ⟨_, ended⟩

theorem Settled.not_refused {x : Except Fault (Outcome × Airtime)} (settled : Settled x)
    (ended : x = .ok (outcome, after)) (e : SlotError) : outcome ≠ .rejected (.slots e) := by
  obtain ⟨_, _, same, free⟩ := settled
  obtain ⟨rfl, rfl⟩ := Prod.mk.inj (Except.ok.inj (same.symm.trans ended))
  exact free e

theorem settled_granted (a : Allocation) (air : Airtime) : Settled (.ok (.granted a, air)) :=
  ⟨_, _, rfl, fun _ same => by cases same⟩

/-! ## Single blocks -/

theorem placeBlock_settled (wellFormed : air.slots.WellFormed) (small : air.slots.dti < 2 ^ 32)
    (positive : 0 < duration) (fits : duration + terms.guard < 2 ^ 32) :
    Settled (placeBlock terms source spec duration air).value := by
  have needed : add32 duration terms.guard = .ok (duration + terms.guard) := add32_of_lt fits
  cases room : air.slots.firstFit? (duration + terms.guard) with
  | none =>
      refine ⟨.rejected .insufficientSpace, air, ?_, by simp⟩
      simp only [placeBlock, Noted.value_bind, Noted.value_lift, needed, ok_bind, room,
        Noted.value_note, Noted.value_pure]
  | some start =>
      obtain ⟨inside, slots, claimed⟩ :=
        FreeSlots.claim_of_firstFit wellFormed (by omega) room
      rw [← Nat.add_assoc] at inside claimed
      have first : add32 start duration = .ok (start + duration) := add32_of_lt (by omega)
      have second : add32 (start + duration) terms.guard = .ok (start + duration + terms.guard) :=
        add32_of_lt (by omega)
      have counted : (requested source spec start duration).Fits terms.guard := by
        simp only [Allocation.Fits, requested, Allocation.extent_single, List.mem_singleton,
          forall_eq]
        omega
      obtain ⟨stop, registered⟩ := Airtime.register_ends air.registry counted
      simp only [placeBlock, Noted.value_bind, Noted.value_lift, needed, ok_bind, room, first,
        second, Airtime.value_claimSlot, claimed, registered, Noted.value_pure]
      exact settled_granted _ _

theorem placeBlock_ends_iff (wellFormed : air.slots.WellFormed) (small : air.slots.dti < 2 ^ 32)
    (positive : 0 < duration) :
    Ends (placeBlock terms source spec duration air).value ↔ duration + terms.guard < 2 ^ 32 := by
  constructor
  · intro ends
    simp only [placeBlock, Noted.value_bind, Noted.value_lift] at ends
    exact (ends_add_bind_iff.mp ends).1
  · intro fits
    exact (placeBlock_settled wellFormed small positive fits).ends

/-! ## Equally spaced blocks -/

theorem value_claimBlocks {guard : Nat} {free : FreeSlots} {offsets : List Nat}
    (fits : ∀ start ∈ offsets, start + (duration + guard) < 2 ^ 32) :
    (claimBlocks duration guard free offsets).value =
      .ok (free.claimEach (offsets.map fun start => ⟨start, start + (duration + guard)⟩)) := by
  induction offsets generalizing free with
  | nil => rfl
  | cons start rest ih =>
      obtain ⟨own, others⟩ := List.forall_mem_cons.mp fits
      have first : add32 start duration = .ok (start + duration) := add32_of_lt (by omega)
      have second : add32 (start + duration) guard = .ok (start + (duration + guard)) :=
        add_eq_ok_iff.mpr ⟨by omega, by omega⟩
      rw [List.map_cons, FreeSlots.claimEach]
      simp only [claimBlocks, Noted.value_bind, Noted.value_lift, first, second, ok_bind,
        Airtime.value_claimSlot]
      cases free.claim start (start + (duration + guard)) with
      | error e => rfl
      | ok middle => exact ih others

/-- The search for equally spaced blocks, if it is made at all, can count at its candidates. -/
def SearchFits (terms : Terms) (spec : TrafficSpec) (duration : Nat) (free : FreeSlots) : Prop :=
  let spacing := terms.interval / spec.period
  duration + terms.guard ≤ spacing → duration + terms.minBroadcastCbap ≤ spacing →
    ∀ n u, n < terms.maxBlocks → free.Candidate (duration + terms.guard) spacing n u →
      free.SumsFit (duration + terms.guard) spacing u

theorem claimBlocks_of_room {a : Allocation} {offsets : List Nat}
    (wellFormed : air.slots.WellFormed) (small : air.slots.dti < 2 ^ 32)
    (positive : 0 < a.blockDuration) (close : a.blockDuration + terms.guard ≤ a.blockPeriod)
    (several : 1 < a.blocks) (untrained : a.beamforming = none)
    (equidistant : offsets = List.range' a.start a.blocks a.blockPeriod)
    (room : ∀ t ∈ offsets, air.slots.Room (a.blockDuration + terms.guard) t) :
    ∃ slots stop,
      (claimBlocks a.blockDuration terms.guard air.slots offsets).value = .ok (.ok slots) ∧
      (Airtime.register air.registry a).value = .ok (stop, air.registry ++ [a]) := by
  have counted : ∀ t ∈ offsets, t + (a.blockDuration + terms.guard) < 2 ^ 32 := by
    intro t member
    have := (room t member).stop_le_dti wellFormed (by omega)
    omega
  have nonempty : ∀ i ∈ offsets.map fun t =>
      Interval.mk t (t + (a.blockDuration + terms.guard)), i.start < i.stop := by
    intro i member
    obtain ⟨t, _, rfl⟩ := List.mem_map.mp member
    dsimp only
    omega
  have within : ∀ t, coverage (offsets.map fun t =>
      Interval.mk t (t + (a.blockDuration + terms.guard))) t ≤ coverage air.slots.slots t := by
    rw [equidistant] at room ⊢
    exact FreeSlots.coverage_blocks (by omega) close room
  obtain ⟨slots, claimed⟩ := FreeSlots.claimEach_of_coverage wellFormed nonempty within
  have spread := extent_periodic terms.guard
    (Allocation.isPeriodic_iff.mpr ⟨several, by omega⟩) untrained equidistant
  have fits : a.Fits terms.guard := by
    intro i member
    rw [spread] at member
    obtain ⟨t, block, rfl⟩ := List.mem_map.mp member
    have := counted t block
    rwa [← Nat.add_assoc] at this
  obtain ⟨stop, registered⟩ := Airtime.register_ends air.registry fits
  refine ⟨slots, stop, ?_, registered⟩
  rw [value_claimBlocks counted, claimed]

theorem placePeriodic_settled (wellFormed : air.slots.WellFormed)
    (small : air.slots.dti < 2 ^ 32) (positive : 0 < duration) (periodic : spec.period ≠ 0)
    (fits : duration + terms.guard < 2 ^ 32)
    (search : SearchFits terms spec duration air.slots) :
    Settled (placePeriodic terms source spec duration air).value := by
  have needed : add32 duration terms.guard = .ok (duration + terms.guard) := add32_of_lt fits
  have divided : div terms.interval spec.period = .ok (terms.interval / spec.period) :=
    div_eq_ok_iff.mpr ⟨periodic, rfl⟩
  simp only [placePeriodic, Noted.value_bind, Noted.value_lift, needed, divided, ok_bind]
  by_cases tooClose : terms.interval / spec.period < duration + terms.guard ∨
      terms.interval / spec.period - duration < terms.minBroadcastCbap
  · refine ⟨.rejected (.cbapFloor (terms.interval / spec.period) duration), air, ?_, by simp⟩
    rw [if_pos tooClose]
    rfl
  rw [if_neg tooClose]
  obtain ⟨offsets, found⟩ :=
    (FreeSlots.periodicOffsets_ends_iff wellFormed.canonical (by omega) fits).mpr
      (search (by omega) (by omega))
  have room := FreeSlots.periodicOffsets_room wellFormed.canonical found
  simp only [Noted.value_bind, value_findOffsets, found, ok_bind]
  obtain _ | ⟨start, _ | ⟨next, more⟩⟩ := offsets
  · exact ⟨_, air, rfl, by simp⟩
  · exact ⟨_, air, rfl, by simp⟩
  · let a : Allocation :=
      { requested source spec start duration with
        blocks := (start :: next :: more).length
        blockPeriod := terms.interval / spec.period }
    have close : a.blockDuration + terms.guard ≤ a.blockPeriod := by
      dsimp only [a, requested, Allocation.single]
      omega
    obtain ⟨slots, stop, claimed, registered⟩ :=
      claimBlocks_of_room wellFormed small positive close (by simp [a]) rfl
        (FreeSlots.periodicOffsets_eq_ok found).2 room
    simp only [Noted.value_bind]
    rw [show (claimBlocks duration terms.guard air.slots (start :: next :: more)).value =
      .ok (.ok slots) from claimed, ok_bind]
    dsimp only
    rw [Noted.value_bind, registered, ok_bind]
    exact settled_granted a _

theorem placePeriodic_ends_iff (wellFormed : air.slots.WellFormed)
    (small : air.slots.dti < 2 ^ 32) (positive : 0 < duration) (periodic : spec.period ≠ 0) :
    Ends (placePeriodic terms source spec duration air).value ↔
      duration + terms.guard < 2 ^ 32 ∧ SearchFits terms spec duration air.slots := by
  constructor
  · intro ends
    have divided : div terms.interval spec.period = .ok (terms.interval / spec.period) :=
      div_eq_ok_iff.mpr ⟨periodic, rfl⟩
    simp only [placePeriodic, Noted.value_bind, Noted.value_lift, divided, ok_bind] at ends
    obtain ⟨fits, ends⟩ := ends_add_bind_iff.mp ends
    refine ⟨fits, fun close contention => ?_⟩
    rw [if_neg (by omega), Noted.value_bind, value_findOffsets, ends_bind_iff] at ends
    obtain ⟨offsets, found, _⟩ := ends
    exact (FreeSlots.periodicOffsets_ends_iff wellFormed.canonical (by omega) fits).mp
      ⟨offsets, found⟩
  · rintro ⟨fits, search⟩
    exact (placePeriodic_settled wellFormed small positive periodic fits search).ends

/-! ## Each policy -/

/-- Every sum that the placement of a new allocation forms fits 32 bits. -/
def SumsFit (policy : Policy) (terms : Terms) (spec : TrafficSpec) (duration : Nat)
    (free : FreeSlots) : Prop :=
  match policy with
  | .cbapOnly => True
  | .basic => spec.period = 0 → duration + terms.guard < 2 ^ 32
  | .periodic => duration + terms.guard < 2 ^ 32 ∧
      (spec.period ≠ 0 → SearchFits terms spec duration free)

theorem grant_settled (wellFormed : air.slots.WellFormed) (small : air.slots.dti < 2 ^ 32)
    (desired : spec.desiredDuration = .ok duration) (positive : 0 < duration)
    (sums : policy.SumsFit terms spec duration air.slots) :
    Settled (policy.grant terms source spec air).value := by
  cases policy with
  | cbapOnly => exact ⟨.rejected .cbapOnly, air, rfl, by simp⟩
  | basic =>
      rw [grant]
      by_cases periodic : spec.isPeriodic = true
      · rw [if_pos periodic]
        exact ⟨.rejected .periodicNotSupported, air, rfl, by simp⟩
      · have single : spec.period = 0 := by simpa [TrafficSpec.isPeriodic_iff] using periodic
        simp only [if_neg periodic, Noted.value_bind, Noted.value_lift, desired, ok_bind]
        exact placeBlock_settled wellFormed small positive (sums single)
  | periodic =>
      obtain ⟨fits, search⟩ := sums
      simp only [grant, Noted.value_bind, Noted.value_lift, desired, ok_bind]
      by_cases periodic : spec.isPeriodic = true
      · have several := TrafficSpec.isPeriodic_iff.mp periodic
        rw [if_pos periodic]
        exact placePeriodic_settled wellFormed small positive several fits (search several)
      · rw [if_neg periodic]
        exact placeBlock_settled wellFormed small positive fits

/-- A new request gets an answer exactly if the sums that it takes fit. -/
theorem grant_ends_iff (wellFormed : air.slots.WellFormed) (small : air.slots.dti < 2 ^ 32)
    (desired : spec.desiredDuration = .ok duration) (positive : 0 < duration) :
    Ends (policy.grant terms source spec air).value ↔
      policy.SumsFit terms spec duration air.slots := by
  refine ⟨fun ends => ?_, fun sums =>
    (grant_settled wellFormed small desired positive sums).ends⟩
  cases policy with
  | cbapOnly => exact trivial
  | basic =>
      intro single
      have notPeriodic : ¬ spec.isPeriodic = true := fun periodic =>
        TrafficSpec.isPeriodic_iff.mp periodic single
      simp only [grant, if_neg notPeriodic, Noted.value_bind, Noted.value_lift, desired,
        ok_bind] at ends
      exact (placeBlock_ends_iff wellFormed small positive).mp ends
  | periodic =>
      simp only [grant, Noted.value_bind, Noted.value_lift, desired, ok_bind] at ends
      by_cases periodic : spec.isPeriodic = true
      · have several := TrafficSpec.isPeriodic_iff.mp periodic
        rw [if_pos periodic, placePeriodic_ends_iff wellFormed small positive several] at ends
        exact ⟨ends.1, fun _ => ends.2⟩
      · have single : spec.period = 0 := by simpa [TrafficSpec.isPeriodic_iff] using periodic
        rw [if_neg periodic, placeBlock_ends_iff wellFormed small positive] at ends
        exact ⟨ends, fun several => absurd single several⟩

end Policy
end BeaconScheduler
