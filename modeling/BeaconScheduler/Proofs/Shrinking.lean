import BeaconScheduler.Proofs.Partition
import BeaconScheduler.Proofs.Sums

/-!
# Decisions that come to an end

In an airtime that tiles its DTI, what a block gives up when it is shortened lies in occupied
time, so it can always be released, and every end and length on the way fits its counter
(`shorten_settled`).  A decision is then kept from ending only by the sums of a new allocation
(`decide_ends_iff`), and one that ends is never a refusal by the free slots
(`decide_not_refused`).
-/

set_option autoImplicit false

namespace BeaconScheduler

open Counter BeaconScheduler.Interval

/-! ## Tails -/

namespace FreeSlots

variable {free : FreeSlots} {stop length : Nat}

theorem reopenTail_of_occupied (wellFormed : free.WellFormed) (inside : stop + length ≤ free.dti)
    (fits : stop + length < 2 ^ 32)
    (occupied : ∀ t, stop ≤ t → t < stop + length → coverage free.slots t = 0) :
    ∃ after, free.reopenTail stop length = .ok (.ok after) := by
  unfold reopenTail
  by_cases none : length = 0
  · rw [if_pos none]
    exact ⟨free, rfl⟩
  · obtain ⟨after, released⟩ := release_of_occupied wellFormed (by omega) inside occupied
    rw [if_neg none, add32_of_lt fits, ok_bind, released]
    exact ⟨after, rfl⟩

end FreeSlots

namespace Allocation

variable {a : Allocation} {guard duration : Nat}

theorem fits_withDuration (shorter : duration ≤ a.blockDuration) (fits : a.Fits guard) :
    (a.withDuration duration).Fits guard := by
  obtain ⟨indices, old, new, oldExtent, newExtent, _, shrinks⟩ :=
    a.extents_withDuration guard duration
  unfold Fits at fits ⊢
  rw [oldExtent] at fits
  rw [newExtent]
  intro i member
  obtain ⟨k, index, rfl⟩ := List.mem_map.mp member
  have last := fits (old k) (List.mem_map_of_mem index)
  have := shrinks shorter k
  omega

end Allocation

namespace Policy

variable {policy : Policy} {terms : Terms} {source : Aid} {spec : TrafficSpec}
  {air after : Airtime} {outcome : Outcome}

theorem reopenTails_of_occupied {free : FreeSlots} {blocks : List (Interval × Interval)}
    (wellFormed : free.WellFormed)
    (aligned : ∀ block ∈ blocks, block.1.start = block.2.start ∧
      block.2.start ≤ block.2.stop ∧ block.2.stop ≤ block.1.stop)
    (fits : ∀ block ∈ blocks, block.1.stop < 2 ^ 32)
    (inside : ∀ block ∈ blocks, block.1.stop ≤ free.dti)
    (apart : ∀ t, coverage free.slots t + coverage (blocks.map Prod.fst) t ≤ 1) :
    ∃ left, (reopenTails free blocks).value = .ok (.ok left) := by
  induction blocks generalizing free with
  | nil => exact ⟨free, rfl⟩
  | cons block rest ih =>
      obtain ⟨old, new⟩ := block
      obtain ⟨⟨starts, ordered, shrinks⟩, alignedRest⟩ := List.forall_mem_cons.mp aligned
      obtain ⟨counted, fitsRest⟩ := List.forall_mem_cons.mp fits
      obtain ⟨bound, insideRest⟩ := List.forall_mem_cons.mp inside
      dsimp only at starts ordered shrinks counted bound
      have whole : new.stop + (old.stop - new.stop) = old.stop := by omega
      have occupied : ∀ t, new.stop ≤ t → t < new.stop + (old.stop - new.stop) →
          coverage free.slots t = 0 := by
        intro t first last
        have := apart t
        rw [List.map_cons, coverage_cons, if_pos ⟨by dsimp only; omega, by dsimp only; omega⟩]
          at this
        omega
      obtain ⟨middle, reopened⟩ :=
        FreeSlots.reopenTail_of_occupied wellFormed (by omega) (by omega) occupied
      obtain ⟨wellFormedMiddle, dtiMiddle, covered⟩ :=
        FreeSlots.reopenTail_eq_ok wellFormed reopened
      have apartRest : ∀ t, coverage middle.slots t + coverage (rest.map Prod.fst) t ≤ 1 := by
        intro t
        have before := apart t
        have tail := covered t
        rw [List.map_cons, coverage_cons] at before
        rw [coverage_singleton] at tail
        dsimp only at before tail
        split_ifs at before tail <;> omega
      obtain ⟨left, others⟩ :=
        ih wellFormedMiddle alignedRest fitsRest (dtiMiddle ▸ insideRest) apartRest
      have length : sub old.stop new.stop = .ok (old.stop - new.stop) :=
        sub_eq_ok_iff.mpr ⟨shrinks, rfl⟩
      refine ⟨left, ?_⟩
      simp only [reopenTails, Noted.value_bind, Noted.value_lift, Noted.value_note, length,
        Airtime.value_reopenSlot, reopened, ok_bind, others]

end Policy

namespace Registry

variable {registry : Registry} {a : Allocation}

theorem coverage_le_of_mem (guard : Nat) (registered : a ∈ registry) (t : Nat) :
    coverage (a.extent guard) t ≤ coverage (Registry.extent guard registry) t := by
  obtain ⟨before, behind, rfl⟩ := List.append_of_mem registered
  rw [extent_append, extent_cons, coverage_append, coverage_append]
  omega

end Registry

namespace Airtime.Tiled

variable {guard dti : Nat} {air : Airtime}

theorem coverage_add_le_one {a : Allocation} (tiled : air.Tiled guard dti)
    (registered : a ∈ air.registry) (t : Nat) :
    coverage air.slots.slots t + coverage (a.extent guard) t ≤ 1 := by
  have once := tiled.once t
  have held := Registry.coverage_le_of_mem guard registered t
  split_ifs at once <;> omega

theorem inside_of_mem {a : Allocation} (tiled : air.Tiled guard dti)
    (registered : a ∈ air.registry) : ∀ i ∈ a.extent guard, i.stop ≤ air.slots.dti := by
  intro i member
  rw [tiled.length]
  exact Tiling.inside tiled i (Registry.mem_extent_iff.mpr ⟨a, registered, member⟩)

theorem reopenTails {current : Allocation} {duration : Nat} (tiled : air.Tiled guard dti)
    (registered : current ∈ air.registry) (shorter : duration ≤ current.blockDuration) :
    ∃ slots, (Policy.reopenTails air.slots ((current.extent guard).zip
      ((current.withDuration duration).extent guard))).value = .ok (.ok slots) := by
  obtain ⟨indices, old, new, oldExtent, newExtent, aligned, shrinks⟩ :=
    current.extents_withDuration guard duration
  have fits := tiled.fits current registered
  have inside := tiled.inside_of_mem registered
  have apart := tiled.coverage_add_le_one registered
  unfold Allocation.Fits at fits
  rw [oldExtent] at fits inside apart
  rw [oldExtent, newExtent, List.zip_map']
  refine Policy.reopenTails_of_occupied tiled.wellFormed ?_ ?_ ?_ ?_
  · intro block member
    obtain ⟨i, _, rfl⟩ := List.mem_map.mp member
    exact ⟨(aligned i).1, (aligned i).2, shrinks shorter i⟩
  · intro block member
    obtain ⟨i, index, rfl⟩ := List.mem_map.mp member
    exact fits (old i) (List.mem_map_of_mem index)
  · intro block member
    obtain ⟨i, index, rfl⟩ := List.mem_map.mp member
    exact inside (old i) (List.mem_map_of_mem index)
  · simpa only [List.map_map, Function.comp_def] using apart

end Airtime.Tiled

/-! ## Decisions -/

namespace Policy

variable {policy : Policy} {terms : Terms} {source : Aid} {spec : TrafficSpec} {now : Time}
  {request : AdmissionRequest} {air after : Airtime} {outcome : Outcome} {dti : Nat}

theorem shorten_settled (tiled : air.Tiled terms.guard dti) (valid : spec.validate = .ok ()) :
    Settled (shorten terms source spec air).value := by
  obtain ⟨duration, desired, _, _⟩ := TrafficSpec.desiredDuration_of_valid valid
  simp only [shorten, Noted.value_bind, Noted.value_lift, desired, ok_bind]
  cases found : air.registry.find? (spec.key source) with
  | none => exact ⟨.rejected .notFound, air, rfl, by simp⟩
  | some current =>
      dsimp only
      by_cases longer : current.blockDuration < duration
      · rw [if_pos longer]
        exact ⟨.rejected (.durationIncrease current.blockDuration duration), air, rfl, by simp⟩
      rw [if_neg longer]
      by_cases same : duration = current.blockDuration
      · rw [if_pos same]
        exact settled_granted current air
      rw [if_neg same]
      have registered : current ∈ air.registry := List.mem_of_find?_eq_some found
      have fits := tiled.fits current registered
      have old := Allocation.occupied_eq_ok_iff.mpr ⟨rfl, fits⟩
      have new := Allocation.occupied_eq_ok_iff.mpr
        ⟨rfl, Allocation.fits_withDuration (Nat.le_of_not_lt longer) fits⟩
      obtain ⟨slots, reopened⟩ := tiled.reopenTails registered (Nat.le_of_not_lt longer)
      unfold Allocation.withDuration at new reopened
      simp only [Noted.value_bind, Noted.value_lift, old, new, reopened, ok_bind]
      exact settled_granted _ _

/-- Every sum that the decision takes fits: there are some only for a new allocation. -/
def DecisionFits (policy : Policy) (terms : Terms) (request : AdmissionRequest) (air : Airtime) :
    Prop :=
  request.spec.validate = .ok () → air.registry.contains request.key = false →
    ∀ duration, request.spec.desiredDuration = .ok duration →
      policy.SumsFit terms request.spec duration air.slots

theorem decide_settled (tiled : air.Tiled terms.guard dti) (small : dti < 2 ^ 32)
    (sums : policy.DecisionFits terms request air) :
    Settled (policy.decide terms now request air).value := by
  unfold decide
  cases valid : request.spec.validate with
  | error problem => exact ⟨.rejected (.invalidSpec problem), air, rfl, by simp⟩
  | ok _ =>
      dsimp only
      cases registered : air.registry.contains request.key with
      | false =>
          obtain ⟨duration, desired, positive, _⟩ := TrafficSpec.desiredDuration_of_valid valid
          rw [if_neg (by simp)]
          exact grant_settled tiled.wellFormed (tiled.length ▸ small) desired positive
            (sums valid registered duration desired)
      | true =>
          rw [if_pos rfl]
          cases policy with
          | cbapOnly => exact ⟨.rejected .cbapOnly, air, rfl, by simp⟩
          | basic => exact shorten_settled tiled valid
          | periodic => exact shorten_settled tiled valid

/-- A decision gets its answer exactly if the sums that it takes fit. -/
theorem decide_ends_iff (now : Time) (tiled : air.Tiled terms.guard dti) (small : dti < 2 ^ 32) :
    Ends (policy.decide terms now request air).value ↔ policy.DecisionFits terms request air := by
  refine ⟨?_, fun sums => (decide_settled tiled small sums).ends⟩
  intro ends valid registered duration desired
  obtain ⟨own, known, positive, _⟩ := TrafficSpec.desiredDuration_of_valid valid
  obtain rfl := Except.ok.inj (known.symm.trans desired)
  rw [decide, valid] at ends
  dsimp only at ends
  rw [if_neg (by simp [registered])] at ends
  exact (grant_ends_iff tiled.wellFormed (tiled.length ▸ small) desired positive).mp ends

theorem decide_not_refused (tiled : air.Tiled terms.guard dti) (small : dti < 2 ^ 32)
    (decided : (policy.decide terms now request air).value = .ok (outcome, after))
    (e : SlotError) : outcome ≠ .rejected (.slots e) := by
  have sums := (decide_ends_iff now tiled small).mp ⟨_, decided⟩
  exact (decide_settled tiled small sums).not_refused decided e

theorem decide_ends_of_registered (tiled : air.Tiled terms.guard dti) (small : dti < 2 ^ 32)
    (registered : air.registry.contains request.key = true) :
    Ends (policy.decide terms now request air).value := by
  refine (decide_ends_iff now tiled small).mpr fun _ unregistered => ?_
  rw [registered] at unregistered
  cases unregistered

end Policy
end BeaconScheduler
