import BeaconScheduler.Proofs.Room

/-!
# Claims and releases undo each other

On free microseconds a claim is a set difference (`claim_subtracts`) and a release a disjoint
union (`release_adds`), each made exactly where that can be done and refused for a stated reason
elsewhere.  There is one well-formed list for each set of free microseconds, so a release after a
claim of the same interval, or a claim after its release, leads back to the very list of slots: a
slot that was split is whole again, and slots that were joined are apart again.
-/

set_option autoImplicit false

namespace BeaconScheduler.FreeSlots

open BeaconScheduler.Interval

variable {free after : FreeSlots} {start stop : Nat}

/-! ## Where they succeed -/

theorem claim_succeeds_iff (wellFormed : free.WellFormed) :
    (∃ after, free.claim start stop = .ok after) ↔
      start < stop ∧ ∀ t, start ≤ t → t < stop → free.Free t := by
  constructor
  · rintro ⟨after, claimed⟩
    obtain ⟨nonempty, _, _, split⟩ := claim_eq_ok wellFormed claimed
    refine ⟨nonempty, fun t first last => ?_⟩
    have counted := split t
    rw [coverage_singleton, if_pos ⟨first, last⟩] at counted
    exact free_iff.mpr (by omega)
  · rintro ⟨nonempty, isFree⟩
    exact claim_of_free wellFormed nonempty isFree

theorem release_succeeds_iff (wellFormed : free.WellFormed) :
    (∃ after, free.release start stop = .ok after) ↔
      start < stop ∧ stop ≤ free.dti ∧ ∀ t, start ≤ t → t < stop → ¬ free.Free t := by
  constructor
  · rintro ⟨after, released⟩
    obtain ⟨nonempty, wellFormedAfter, dti, joined⟩ := release_eq_ok wellFormed released
    have becomesFree : ∀ t, start ≤ t → t < stop →
        coverage after.slots t = coverage free.slots t + 1 := by
      intro t first last
      rw [joined t, coverage_singleton, if_pos ⟨first, last⟩]
    refine ⟨nonempty, ?_, fun t first last isFree => ?_⟩
    · have lastFree : after.Free (stop - 1) :=
        free_iff.mpr (by rw [becomesFree (stop - 1) (by omega) (by omega)]; omega)
      have := wellFormedAfter.lt_dti lastFree
      omega
    · have once := wellFormedAfter.coverage_le_one t
      have := becomesFree t first last
      have := free_iff.mp isFree
      omega
  · rintro ⟨nonempty, inside, occupied⟩
    refine release_of_occupied wellFormed nonempty inside fun t first last => ?_
    have := mt free_iff.mpr (occupied t first last)
    omega

/-! ## What they are refused for -/

theorem claim_of_empty (free : FreeSlots) (empty : stop ≤ start) :
    free.claim start stop = .error (.emptyInterval start stop) := by
  rw [claim, if_pos empty]

theorem claim_of_occupied (wellFormed : free.WellFormed) (nonempty : start < stop) {t : Nat}
    (first : start ≤ t) (last : t < stop) (occupied : ¬ free.Free t) :
    free.claim start stop = .error (.notFree start stop) := by
  have notEmpty : ¬ stop ≤ start := by omega
  have refused : takeOut start stop free.slots = none := by
    by_contra taken
    obtain ⟨left, taken⟩ := Option.ne_none_iff_exists'.mp taken
    have claimed : free.claim start stop = .ok { free with slots := left } := by
      rw [claim, if_neg notEmpty, taken]
    exact occupied (((claim_succeeds_iff wellFormed).mp ⟨_, claimed⟩).2 t first last)
  rw [claim, if_neg notEmpty, refused]

theorem release_of_empty (free : FreeSlots) (empty : stop ≤ start) :
    free.release start stop = .error (.emptyInterval start stop) := by
  rw [release, if_pos empty]

theorem release_of_beyond (nonempty : start < stop) (beyond : free.dti < stop) :
    free.release start stop = .error (.beyondDti stop free.dti) := by
  rw [release, if_neg (by omega), if_pos beyond]

theorem release_of_free (wellFormed : free.WellFormed) (nonempty : start < stop)
    (inside : stop ≤ free.dti) {t : Nat} (first : start ≤ t) (last : t < stop)
    (isFree : free.Free t) : free.release start stop = .error (.alreadyFree start stop) := by
  have notEmpty : ¬ stop ≤ start := by omega
  have within : ¬ free.dti < stop := by omega
  have refused : putBack start stop free.slots = none := by
    by_contra returned
    obtain ⟨left, returned⟩ := Option.ne_none_iff_exists'.mp returned
    have released : free.release start stop = .ok { free with slots := left } := by
      rw [release, if_neg notEmpty, if_neg within, returned]
    exact ((release_succeeds_iff wellFormed).mp ⟨_, released⟩).2.2 t first last isFree
  rw [release, if_neg notEmpty, if_neg within, refused]

/-! ## What they make free, and what they occupy -/

theorem claimed_free_iff (wellFormed : free.WellFormed)
    (claimed : free.claim start stop = .ok after) (t : Nat) :
    after.Free t ↔ free.Free t ∧ ¬ (start ≤ t ∧ t < stop) := by
  obtain ⟨_, _, _, split⟩ := claim_eq_ok wellFormed claimed
  have once := wellFormed.coverage_le_one t
  have counted := split t
  rw [coverage_singleton] at counted
  dsimp only at counted
  rw [free_iff, free_iff]
  split_ifs at counted <;> omega

theorem released_free_iff (wellFormed : free.WellFormed)
    (released : free.release start stop = .ok after) (t : Nat) :
    after.Free t ↔ free.Free t ∨ (start ≤ t ∧ t < stop) := by
  obtain ⟨_, _, _, joined⟩ := release_eq_ok wellFormed released
  have counted := joined t
  rw [coverage_singleton] at counted
  dsimp only at counted
  rw [free_iff, free_iff]
  split_ifs at counted <;> omega

/-! ## Each takes back what the other did -/

theorem release_of_claim (wellFormed : free.WellFormed)
    (claimed : free.claim start stop = .ok after) : after.release start stop = .ok free := by
  obtain ⟨nonempty, wellFormedAfter, dti, split⟩ := claim_eq_ok wellFormed claimed
  obtain ⟨_, isFree⟩ := (claim_succeeds_iff wellFormed).mp ⟨after, claimed⟩
  have inside : stop ≤ after.dti := by
    have := wellFormed.lt_dti (isFree (stop - 1) (by omega) (by omega))
    omega
  have occupied : ∀ t, start ≤ t → t < stop → ¬ after.Free t := fun t first last isFree =>
    ((claimed_free_iff wellFormed claimed t).mp isFree).2 ⟨first, last⟩
  obtain ⟨back, released⟩ :=
    (release_succeeds_iff wellFormedAfter).mpr ⟨nonempty, inside, occupied⟩
  obtain ⟨_, wellFormedBack, dtiBack, joined⟩ := release_eq_ok wellFormedAfter released
  rw [released, wellFormedBack.eq_of_coverage wellFormed (dtiBack.trans dti) fun t =>
    (joined t).trans (split t).symm]

theorem claim_of_release (wellFormed : free.WellFormed)
    (released : free.release start stop = .ok after) : after.claim start stop = .ok free := by
  obtain ⟨nonempty, wellFormedAfter, dti, joined⟩ := release_eq_ok wellFormed released
  have isFree : ∀ t, start ≤ t → t < stop → after.Free t := fun t first last =>
    (released_free_iff wellFormed released t).mpr (.inr ⟨first, last⟩)
  obtain ⟨back, claimed⟩ := claim_of_free wellFormedAfter nonempty isFree
  obtain ⟨_, wellFormedBack, dtiBack, split⟩ := claim_eq_ok wellFormedAfter claimed
  rw [claimed, wellFormedBack.eq_of_coverage wellFormed (dtiBack.trans dti) fun t => by
    have := split t
    have := joined t
    omega]

/-! ## The two operations on free microseconds -/

/-- A claim is a set difference, where all that it takes is free, and a release takes it back. -/
theorem claim_subtracts (wellFormed : free.WellFormed) (start stop : Nat) :
    ((∃ after, free.claim start stop = .ok after) ↔
      start < stop ∧ ∀ t, start ≤ t → t < stop → free.Free t) ∧
    (∀ after, free.claim start stop = .ok after →
      after.WellFormed ∧ after.dti = free.dti ∧
      (∀ t, after.Free t ↔ free.Free t ∧ ¬ (start ≤ t ∧ t < stop)) ∧
      after.release start stop = .ok free) ∧
    (stop ≤ start → free.claim start stop = .error (.emptyInterval start stop)) ∧
    (start < stop → ∀ t, start ≤ t → t < stop → ¬ free.Free t →
      free.claim start stop = .error (.notFree start stop)) := by
  refine ⟨claim_succeeds_iff wellFormed, fun after claimed => ?_, claim_of_empty free,
    fun nonempty _ => claim_of_occupied wellFormed nonempty⟩
  obtain ⟨_, wellFormedAfter, dti, _⟩ := claim_eq_ok wellFormed claimed
  exact ⟨wellFormedAfter, dti, claimed_free_iff wellFormed claimed,
    release_of_claim wellFormed claimed⟩

def twoSlots : FreeSlots :=
  ⟨100, [⟨0, 20⟩, ⟨50, 100⟩]⟩

theorem twoSlots_wellFormed : twoSlots.WellFormed := by
  refine ⟨?_, ?_, ?_⟩ <;> decide

theorem claim_splits_second_slot :
    twoSlots.claim 60 70 = .ok ⟨100, [⟨0, 20⟩, ⟨50, 60⟩, ⟨70, 100⟩]⟩ ∧
      FreeSlots.release ⟨100, [⟨0, 20⟩, ⟨50, 60⟩, ⟨70, 100⟩]⟩ 60 70 = .ok twoSlots := by
  have claimed : twoSlots.claim 60 70 = .ok ⟨100, [⟨0, 20⟩, ⟨50, 60⟩, ⟨70, 100⟩]⟩ := by decide
  obtain ⟨_, _, _, back⟩ := (claim_subtracts twoSlots_wellFormed 60 70).2.1 _ claimed
  exact ⟨claimed, back⟩

/-- A release is a disjoint union, where nothing of what it gives back is free, and a claim
takes it back.  The reasons for a refusal are looked for in the order in which they stand here. -/
theorem release_adds (wellFormed : free.WellFormed) (start stop : Nat) :
    ((∃ after, free.release start stop = .ok after) ↔
      start < stop ∧ stop ≤ free.dti ∧ ∀ t, start ≤ t → t < stop → ¬ free.Free t) ∧
    (∀ after, free.release start stop = .ok after →
      after.WellFormed ∧ after.dti = free.dti ∧
      (∀ t, after.Free t ↔ free.Free t ∨ (start ≤ t ∧ t < stop)) ∧
      after.claim start stop = .ok free) ∧
    (stop ≤ start → free.release start stop = .error (.emptyInterval start stop)) ∧
    (start < stop → free.dti < stop →
      free.release start stop = .error (.beyondDti stop free.dti)) ∧
    (start < stop → stop ≤ free.dti → ∀ t, start ≤ t → t < stop → free.Free t →
      free.release start stop = .error (.alreadyFree start stop)) := by
  refine ⟨release_succeeds_iff wellFormed, fun after released => ?_, release_of_empty free,
    release_of_beyond, fun nonempty inside _ => release_of_free wellFormed nonempty inside⟩
  obtain ⟨_, wellFormedAfter, dti, _⟩ := release_eq_ok wellFormed released
  exact ⟨wellFormedAfter, dti, released_free_iff wellFormed released,
    claim_of_release wellFormed released⟩

theorem release_joins_both_slots :
    twoSlots.release 20 50 = .ok ⟨100, [⟨0, 100⟩]⟩ ∧
      FreeSlots.claim ⟨100, [⟨0, 100⟩]⟩ 20 50 = .ok twoSlots := by
  have released : twoSlots.release 20 50 = .ok ⟨100, [⟨0, 100⟩]⟩ := by decide
  obtain ⟨_, _, _, back⟩ := (release_adds twoSlots_wellFormed 20 50).2.1 _ released
  exact ⟨released, back⟩

end BeaconScheduler.FreeSlots
