import BeaconScheduler.Proofs.Grants
import BeaconScheduler.Proofs.Resubmission
import BeaconScheduler.Proofs.Shrinking

/-!
# Modifications give back tails

A modification that shortens blocks releases, block by block, the time between the new and the old
end of what each block occupies.  In an airtime whose free slots are what the allocations leave of
the DTI this comes to the same as releasing all that the allocation occupied and claiming what it
still occupies, and what becomes free are the tails of the blocks and nothing else
(`modify_trims`).
-/

set_option autoImplicit false

namespace BeaconScheduler

open Counter BeaconScheduler.Interval
open Airtime (usualTerms blocksFor quarterBlocks)

namespace Interval

theorem coverage_map_cut {indices : List Nat} {old new tail : Nat → Interval}
    (cut : ∀ i, (new i).start = (old i).start ∧ (new i).stop = (tail i).start ∧
      (tail i).stop = (old i).stop)
    (ordered : ∀ i, (new i).start ≤ (new i).stop ∧ (tail i).start ≤ (tail i).stop) (t : Nat) :
    coverage (indices.map old) t =
      coverage (indices.map new) t + coverage (indices.map tail) t := by
  induction indices with
  | nil => rfl
  | cons i rest ih =>
      obtain ⟨starts, meets, stops⟩ := cut i
      obtain ⟨before, behind⟩ := ordered i
      simp only [List.map_cons, coverage_cons]
      split_ifs <;> omega

end Interval

namespace FreeSlots

/-- What the intervals cover was occupied, and becomes free; all else is as it was. -/
structure Gains (free : FreeSlots) (list : List Interval) (after : FreeSlots) : Prop where
  disjoint : list.Pairwise Interval.Disjoint
  wasOccupied : ∀ i ∈ list, ∀ t, i.start ≤ t → t < i.stop → ¬ free.Free t
  wellFormed : after.WellFormed
  dti : after.dti = free.dti
  isFree_iff : ∀ t, after.Free t ↔ free.Free t ∨ ∃ i ∈ list, i.start ≤ t ∧ t < i.stop

theorem gains_of_coverage {free after : FreeSlots} {list : List Interval}
    (disjoint : list.Pairwise Interval.Disjoint) (wellFormed : after.WellFormed)
    (dti : after.dti = free.dti)
    (covered : ∀ t, coverage after.slots t = coverage free.slots t + coverage list t) :
    free.Gains list after := by
  refine ⟨disjoint, fun i member t first last isFree => ?_, wellFormed, dti, fun t => ?_⟩
  · have once := wellFormed.coverage_le_one t
    have counted := coverage_pos_of_mem member first last
    have := covered t
    have := free_iff.mp isFree
    omega
  · have := covered t
    rw [free_iff, free_iff, ← coverage_pos_iff]
    omega

end FreeSlots

namespace Allocation

variable {a : Allocation} {guard duration : Nat}

/-- What is left of the blocks when they are cut down to `duration`: the time that each block of a
periodic allocation loses, or that all blocks together lose. -/
def tails (a : Allocation) (guard duration : Nat) : List Interval :=
  let lost := a.blockDuration - duration
  if a.isPeriodic then
    (List.range a.blocks).map fun i =>
      let stop := a.start + i * a.blockPeriod + duration + a.tailLength guard
      ⟨stop, stop + lost⟩
  else
    let stop := a.start + a.blocks * duration + a.tailLength guard
    [⟨stop, stop + a.blocks * lost⟩]

theorem coverage_extent_cut (guard : Nat) (shorter : duration ≤ a.blockDuration) (t : Nat) :
    coverage (a.extent guard) t =
      coverage ((a.withDuration duration).extent guard) t + coverage (a.tails guard duration) t := by
  rw [extent, extent_withDuration, tails]
  split_ifs with periodic
  · apply coverage_map_cut
    · intro i
      dsimp only [blockExtent_withDuration, blockExtent]
      omega
    · intro i
      dsimp only [blockExtent_withDuration]
      omega
  · have parts : duration * a.blocks + a.blocks * (a.blockDuration - duration) =
        a.blockDuration * a.blocks := by
      rw [Nat.mul_comm duration, ← Nat.mul_add, Nat.add_sub_cancel' shorter, Nat.mul_comm]
    rw [spanExtent_withDuration, spanExtent, Nat.mul_comm a.blocks duration]
    simp only [coverage_singleton]
    split_ifs <;> omega

theorem tails_disjoint (shorter : duration < a.blockDuration)
    (once : ∀ t, coverage (a.extent guard) t ≤ 1) :
    (a.tails guard duration).Pairwise Interval.Disjoint := by
  have atMost : ∀ t, coverage (a.tails guard duration) t ≤ 1 := by
    intro t
    have := once t
    have := coverage_extent_cut guard (Nat.le_of_lt shorter) t
    omega
  rw [tails] at atMost ⊢
  split_ifs at atMost ⊢ with periodic
  · refine (pairwise_disjoint_iff ?_).mpr atMost
    intro i member
    obtain ⟨k, _, rfl⟩ := List.mem_map.mp member
    dsimp only
    omega
  · exact List.pairwise_singleton _ _

end Allocation

namespace Registry

variable {registry : Registry} {key : Allocation.Key} {a : Allocation}

theorem replace_first (found : registry.find? key = some a) (b : Allocation) :
    ∃ earlier later, registry = earlier ++ a :: later ∧ (∀ c ∈ earlier, c.key ≠ key) ∧
      Registry.replace key b registry = earlier ++ b :: later := by
  obtain ⟨same, earlier, later, rfl, before⟩ := List.find?_eq_some_iff_append.mp found
  have absent : Registry.find? earlier key = none := by
    apply List.find?_eq_none.mpr
    intro c member
    simpa using before c member
  refine ⟨earlier, later, rfl, fun c member => by simpa using before c member, ?_⟩
  rw [replace_append_of_none absent, replace, if_pos same]

end Registry

namespace Airtime

variable {guard dti duration : Nat} {key : Allocation.Key} {current : Allocation}
  {air after : Airtime}

/-- The airtime once `current`, the first allocation of the key, has its blocks cut down to
`duration`.  The free slots are those that are left when all that it occupied is released and
what it still occupies is claimed; what they have gained are the tails of the blocks. -/
structure Trims (guard : Nat) (key : Allocation.Key) (current : Allocation) (duration : Nat)
    (air after : Airtime) : Prop where
  replaced : ∃ earlier later, air.registry = earlier ++ current :: later ∧
    (∀ a ∈ earlier, a.key ≠ key) ∧
    after.registry = earlier ++ { current with blockDuration := duration } :: later
  reclaimed : ∃ old new freed, current.occupied guard = .ok old ∧
    Allocation.occupied { current with blockDuration := duration } guard = .ok new ∧
    (releaseAll air.slots old).value = .ok (.ok (), freed) ∧
    (claimAll freed new).value = .ok (.ok after.slots)
  gained : air.slots.Gains (current.tails guard duration) after.slots

/-- To release everything and to claim what is left comes to the same as to release tails. -/
theorem Shortens.reclaimed (tiled : air.Tiled guard dti)
    (shortens : air.Shortens guard key current duration after) :
    ∃ freed, (releaseAll air.slots (current.extent guard)).value = .ok (.ok (), freed) ∧
      freed.claimEach ((current.withDuration duration).extent guard) = .ok after.slots := by
  have registered : current ∈ air.registry := List.mem_of_find?_eq_some shortens.found
  have nonempty := tiled.nonempty current registered
  have inside := tiled.inside_of_mem registered
  obtain ⟨wellFormedAfter, lengthAfter, trimmed⟩ := shortens.coverage_slots tiled.wellFormed
  obtain ⟨freed, released, wellFormed, length, whole⟩ :=
    releaseAll_of_occupied tiled.wellFormed nonempty inside (tiled.coverage_add_le_one registered)
  have within : ∀ t, coverage ((current.withDuration duration).extent guard) t ≤
      coverage freed.slots t := by
    intro t
    rw [whole t, ← trimmed t]
    omega
  obtain ⟨slots, claimed⟩ := FreeSlots.claimEach_of_coverage wellFormed
    (Allocation.nonempty_withDuration shortens.positive nonempty) within
  obtain ⟨_, wellFormedSlots, lengthSlots, left⟩ := FreeSlots.claimEach_eq_ok wellFormed claimed
  have same : slots = after.slots := by
    apply wellFormedSlots.eq_of_coverage wellFormedAfter
    · rw [lengthSlots, length, lengthAfter]
    · intro t
      have := left t
      have := whole t
      have := trimmed t
      omega
  rw [same] at claimed
  exact ⟨freed, released, claimed⟩

theorem Shortens.gained (tiled : air.Tiled guard dti)
    (shortens : air.Shortens guard key current duration after) :
    air.slots.Gains (current.tails guard duration) after.slots := by
  have registered : current ∈ air.registry := List.mem_of_find?_eq_some shortens.found
  obtain ⟨wellFormed, length, trimmed⟩ := shortens.coverage_slots tiled.wellFormed
  apply FreeSlots.gains_of_coverage _ wellFormed length
  · intro t
    have := trimmed t
    have := Allocation.coverage_extent_cut guard (Nat.le_of_lt shortens.shorter) t
    omega
  · apply Allocation.tails_disjoint shortens.shorter
    intro t
    have := tiled.coverage_add_le_one registered t
    omega

theorem Shortens.trims (tiled : air.Tiled guard dti)
    (shortens : air.Shortens guard key current duration after) :
    air.Trims guard key current duration after := by
  have registered : current ∈ air.registry := List.mem_of_find?_eq_some shortens.found
  obtain ⟨freed, released, claimed⟩ := shortens.reclaimed tiled
  refine ⟨?_, ⟨current.extent guard, (current.withDuration duration).extent guard, freed, ?_, ?_,
    released, ?_⟩, shortens.gained tiled⟩
  · rw [shortens.registered]
    exact Registry.replace_first shortens.found _
  · exact Allocation.occupied_eq_ok_iff.mpr ⟨rfl, tiled.fits current registered⟩
  · exact Allocation.occupied_eq_ok_iff.mpr ⟨rfl, shortens.fits⟩
  · rw [value_claimAll]
    exact congrArg Except.ok claimed

end Airtime

namespace Policy

variable {policy : Policy} {terms : Terms} {source : Aid} {spec : TrafficSpec} {air : Airtime}
  {dti duration : Nat} {occupied : List Interval} {current : Allocation}

theorem shorten_of_absent (desired : spec.desiredDuration = .ok duration)
    (absent : air.registry.find? (spec.key source) = none) :
    (shorten terms source spec air).value = .ok (.rejected .notFound, air) := by
  simp only [shorten, Noted.value_bind, Noted.value_lift, desired, ok_bind, absent,
    Noted.value_pure]

theorem shorten_of_longer (desired : spec.desiredDuration = .ok duration)
    (found : air.registry.find? (spec.key source) = some current)
    (longer : current.blockDuration < duration) :
    (shorten terms source spec air).value =
      .ok (.rejected (.durationIncrease current.blockDuration duration), air) := by
  simp only [shorten, Noted.value_bind, Noted.value_lift, desired, ok_bind, found]
  rw [if_pos longer]
  rfl

theorem shorten_of_shorter (tiled : air.Tiled terms.guard dti) (valid : spec.validate = .ok ())
    (desired : spec.desiredDuration = .ok duration)
    (found : air.registry.find? (spec.key source) = some current)
    (shorter : duration < current.blockDuration) :
    ∃ after, (shorten terms source spec air).value =
        .ok (.granted (current.withDuration duration), after) ∧
      air.Shortens terms.guard (spec.key source) current duration after := by
  have settled : Settled (shorten terms source spec air).value := shorten_settled tiled valid
  obtain ⟨outcome, after, ended, free⟩ := settled
  cases shorten_answers ended with
  | unknown absent =>
      rw [absent] at found
      cases found
  | increase other wanted desired' found' longer =>
      obtain rfl := Option.some.inj (found.symm.trans found')
      obtain rfl := Except.ok.inj (desired.symm.trans desired')
      omega
  | unchanged other desired' found' =>
      obtain rfl := Option.some.inj (found.symm.trans found')
      obtain rfl := Except.ok.inj (desired.symm.trans desired')
      omega
  | refused e => exact absurd rfl (free e)
  | shortened other wanted slots desired' found' _ fits reopened =>
      obtain rfl := Option.some.inj (found.symm.trans found')
      obtain rfl := Except.ok.inj (desired.symm.trans desired')
      exact ⟨_, ended, found, desiredDuration_pos valid desired, shorter, fits, reopened, rfl⟩

/-- In an airtime whose free slots and allocations divide the DTI, a modification never makes
blocks longer, leaves everything as it is if their duration stays the same, and otherwise gives
back the tails of the blocks of the first allocation of the key. -/
theorem modify_trims (grants : policy ≠ .cbapOnly) (divides : air.Divides terms.guard dti occupied)
    (valid : spec.validate = .ok ()) (desired : spec.desiredDuration = .ok duration) :
    (air.registry.find? (spec.key source) = none →
      (policy.modify terms source spec air).value = .ok (.rejected .notFound, air)) ∧
    ∀ current, air.registry.find? (spec.key source) = some current →
      (current.blockDuration < duration → (policy.modify terms source spec air).value =
        .ok (.rejected (.durationIncrease current.blockDuration duration), air)) ∧
      (current.blockDuration = duration → (policy.modify terms source spec air).value =
        .ok (.accepted current.start duration current.blocks, air)) ∧
      (duration < current.blockDuration → ∃ after, (policy.modify terms source spec air).value =
          .ok (.accepted current.start duration current.blocks, after) ∧
        air.Trims terms.guard (spec.key source) current duration after) := by
  rw [modify_eq_shorten grants]
  refine ⟨shorten_of_absent desired, fun current found => ⟨?_, ?_, ?_⟩⟩
  · exact shorten_of_longer desired found
  · rintro rfl
    exact shorten_of_same_duration found desired
  · intro shorter
    obtain ⟨after, granted, shortens⟩ :=
      shorten_of_shorter divides.tiled valid desired found shorter
    exact ⟨after, granted, shortens.trims divides.tiled⟩

/-- Four blocks, with a single one right behind the first of them and a training period right
behind the second. -/
def crowdedAir : Airtime :=
  ⟨[quarterBlocks 0, .single ⟨5, 8, 4⟩ .servicePeriod false 2010 990,
      Airtime.training 9 4 27610 2000 ⟨true, true⟩],
    ⟨101400, [⟨3010, 25600⟩, ⟨30620, 51200⟩, ⟨53210, 76800⟩, ⟨78810, 101400⟩]⟩⟩

theorem crowdedAir_tiled : crowdedAir.Tiled 10 101400 := by
  have empty : Airtime.Tiled 10 101400 ⟨[], .whole 101400⟩ := Tiling.whole 10 101400
  have four := empty.reserve usualTerms
    (show (Airtime.reserve usualTerms (quarterBlocks 0) _).value = .ok (.ok 78800, _) from rfl)
  have single := four.reserve usualTerms
    (show (Airtime.reserve usualTerms (.single ⟨5, 8, 4⟩ .servicePeriod false 2010 990) _).value =
      .ok (.ok 3000, _) from rfl)
  exact single.reserve usualTerms
    (show (Airtime.reserve usualTerms (Airtime.training 9 4 27610 2000 ⟨true, true⟩) _).value =
      .ok (.ok 29610, _) from rfl)

theorem crowdedAir_trimmed :
    ∃ four training,
      (Policy.periodic.modify usualTerms 7 (blocksFor 3 1500 0) crowdedAir).value =
        .ok (.accepted 0 1500 4, four) ∧
      crowdedAir.Trims 10 ⟨3, 7, 4⟩ (quarterBlocks 0) 1500 four ∧
      four.slots.slots = [⟨1510, 2010⟩, ⟨3010, 25600⟩, ⟨27110, 27610⟩, ⟨30620, 51200⟩,
        ⟨52710, 76800⟩, ⟨78310, 101400⟩] ∧
      (Policy.basic.modify usualTerms 9 (blocksFor 0 1200 0) crowdedAir).value =
        .ok (.accepted 27610 1200 1, training) ∧
      crowdedAir.Trims 10 ⟨0, 9, 4⟩ (Airtime.training 9 4 27610 2000 ⟨true, true⟩) 1200
        training ∧
      training.slots.slots = [⟨3010, 25600⟩, ⟨29820, 51200⟩, ⟨53210, 76800⟩,
        ⟨78810, 101400⟩] := by
  obtain ⟨occupied, divides⟩ := crowdedAir_tiled.divides
  obtain ⟨four, fourGranted, fourTrims⟩ :=
    ((@modify_trims .periodic usualTerms 7 (blocksFor 3 1500 0) crowdedAir 101400 1500 occupied
      (by decide) divides rfl rfl).2 (quarterBlocks 0) rfl).2.2 (by decide)
  obtain ⟨training, trained, trainingTrims⟩ :=
    ((@modify_trims .basic usualTerms 9 (blocksFor 0 1200 0) crowdedAir 101400 1200 occupied
      (by decide) divides rfl rfl).2 (Airtime.training 9 4 27610 2000 ⟨true, true⟩) rfl).2.2
      (by decide)
  refine ⟨four, training, fourGranted, fourTrims, ?_, trained, trainingTrims, ?_⟩
  · obtain rfl := (Prod.mk.inj (Except.ok.inj fourGranted)).2
    rfl
  · obtain rfl := (Prod.mk.inj (Except.ok.inj trained)).2
    rfl

end Policy
end BeaconScheduler
