import BeaconScheduler.Proofs.Room

/-!
# The check of the partition

The program compares only neighbours in the sorted list of occupied intervals, only the last
stop with the end of the DTI, and only lists of slots.  That is enough: in a sorted list an
overlap shows between neighbours (`firstOverlap?_sort_eq_none_iff`), of intervals that do not
overlap the last one ends last (`stop_le_of_getLast?`), and free time has one list of slots
(`complement_slots_eq_iff`).
-/

set_option autoImplicit false

namespace BeaconScheduler

open BeaconScheduler.Interval

namespace Interval

variable {list others : List Interval}

/-! ## Sorted intervals -/

theorem sort_eq_of_perm (perm : list.Perm others) : sort list = sort others := by
  refine List.Perm.eq_of_pairwise ?_ (pairwise_sort list) (pairwise_sort others)
    ((sort_perm list).trans (perm.trans (sort_perm others).symm))
  rintro ⟨_, _⟩ ⟨_, _⟩ _ _ before behind
  rw [le_iff] at before behind
  rw [mk.injEq]
  dsimp only at before behind
  omega

theorem nonempty_sort (nonempty : ∀ i ∈ list, i.start < i.stop) :
    ∀ i ∈ sort list, i.start < i.stop := fun i member =>
  nonempty i ((sort_perm list).mem_iff.mp member)

theorem pairwise_disjoint_perm (perm : list.Perm others) :
    list.Pairwise Disjoint ↔ others.Pairwise Disjoint := by
  apply perm.pairwise_iff
  intro i j apart
  exact apart.symm

theorem sort_apart_iff (nonempty : ∀ i ∈ list, i.start < i.stop) :
    ((sort list).Pairwise fun i j => i.stop ≤ j.start) ↔ list.Pairwise Disjoint := by
  rw [← pairwise_disjoint_perm (sort_perm list)]
  constructor
  · exact fun apart => apart.imp Or.inl
  · intro disjoint
    refine (disjoint.and (pairwise_sort list)).imp_of_mem ?_
    rintro i j memberFirst memberSecond ⟨apart, inOrder⟩
    have first := nonempty_sort nonempty i memberFirst
    have second := nonempty_sort nonempty j memberSecond
    rw [le_iff] at inOrder
    unfold Disjoint at apart
    omega

theorem firstOverlap?_eq_none_iff (nonempty : ∀ i ∈ list, i.start < i.stop) :
    firstOverlap? list = none ↔ list.Pairwise fun i j => i.stop ≤ j.start := by
  induction list with
  | nil => exact ⟨fun _ => .nil, fun _ => rfl⟩
  | cons i rest ih =>
      obtain ⟨_, nonemptyRest⟩ := List.forall_mem_cons.mp nonempty
      cases rest with
      | nil => exact ⟨fun _ => List.pairwise_singleton _ i, fun _ => rfl⟩
      | cons j later =>
          rw [firstOverlap?, List.pairwise_cons, ← ih nonemptyRest]
          split_ifs with overlap
          · constructor
            · rintro ⟨⟩
            · rintro ⟨behind, _⟩
              have := behind j List.mem_cons_self
              omega
          · refine ⟨fun none => ⟨?_, none⟩, And.right⟩
            have apart := (ih nonemptyRest).mp none
            have own := nonemptyRest j List.mem_cons_self
            refine List.forall_mem_cons.mpr ⟨by omega, fun k member => ?_⟩
            have := (List.pairwise_cons.mp apart).1 k member
            omega

theorem firstOverlap?_sort_eq_none_iff (nonempty : ∀ i ∈ list, i.start < i.stop) :
    firstOverlap? (sort list) = none ↔ list.Pairwise Disjoint :=
  (firstOverlap?_eq_none_iff (nonempty_sort nonempty)).trans (sort_apart_iff nonempty)

theorem stop_le_of_getLast? {last : Interval} (nonempty : ∀ i ∈ list, i.start < i.stop)
    (apart : list.Pairwise fun i j => i.stop ≤ j.start) (found : list.getLast? = some last) :
    ∀ i ∈ list, i.stop ≤ last.stop := by
  obtain ⟨before, rfl⟩ := List.getLast?_eq_some_iff.mp found
  intro i member
  rcases List.mem_append.mp member with member | member
  · have := (List.pairwise_append.mp apart).2.2 i member last List.mem_cons_self
    have := nonempty last (List.mem_append_right before List.mem_cons_self)
    omega
  · rw [List.mem_singleton.mp member]

end Interval

namespace FreeSlots

variable {free : FreeSlots} {occupied others : List Interval}

/-! ## The verdicts -/

theorem complement_slots_eq_iff (wellFormed : free.WellFormed)
    (nonempty : ∀ i ∈ occupied, i.start < i.stop) :
    (complement free.dti occupied).slots = free.slots ↔
      ∀ t, t < free.dti → (free.Free t ↔ ∀ i ∈ occupied, ¬ (i.start ≤ t ∧ t < i.stop)) := by
  obtain ⟨wellFormed', covered⟩ := complement_spec free.dti nonempty
  constructor
  · intro same t inside
    have counted := covered t
    rw [same] at counted
    rw [free_iff, ← coverage_eq_zero_iff, counted]
    split_ifs <;> omega
  · intro exact
    refine wellFormed'.canonical.eq_of_coverage wellFormed.canonical fun t => ?_
    rw [covered t]
    by_cases inside : t < free.dti
    · have once := wellFormed.coverage_le_one t
      have isFree := exact t inside
      rw [free_iff, ← coverage_eq_zero_iff] at isFree
      split_ifs <;> omega
    · rw [if_neg (by omega), wellFormed.coverage_outside (by omega)]

theorem checkPartition_eq_ok_iff (wellFormed : free.WellFormed)
    (nonempty : ∀ i ∈ occupied, i.start < i.stop) :
    free.checkPartition occupied = .ok () ↔
      occupied.Pairwise Interval.Disjoint ∧ (∀ i ∈ occupied, i.stop ≤ free.dti) ∧
      ∀ t, t < free.dti → (free.Free t ↔ ∀ i ∈ occupied, ¬ (i.start ≤ t ∧ t < i.stop)) := by
  have perm := sort_perm occupied
  have overlaps := firstOverlap?_sort_eq_none_iff nonempty
  have matched : (complement free.dti (sort occupied)).slots = free.slots ↔
      ∀ t, t < free.dti → (free.Free t ↔ ∀ i ∈ occupied, ¬ (i.start ≤ t ∧ t < i.stop)) := by
    rw [complement_slots_eq_iff wellFormed (nonempty_sort nonempty)]
    simp only [perm.mem_iff]
  rw [checkPartition]
  cases overlap : firstOverlap? (sort occupied) with
  | some pair =>
      rw [overlap] at overlaps
      simp only [reduceCtorEq, false_iff] at overlaps ⊢
      exact fun holds => overlaps holds.1
  | none =>
      have disjoint := overlaps.mp overlap
      rw [← matched]
      dsimp only
      cases found : (sort occupied).getLast? with
      | none =>
          -- nothing is occupied, so nothing ends behind the DTI
          have inside : ∀ i ∈ occupied, i.stop ≤ free.dti := fun i member => by
            have := perm.mem_iff.mpr member
            rw [List.getLast?_eq_none_iff.mp found] at this
            cases this
          dsimp only
          split_ifs with same
          · exact ⟨fun _ => ⟨disjoint, inside, same⟩, fun _ => rfl⟩
          · exact ⟨nofun, fun holds => absurd holds.2.2 same⟩
      | some last =>
          have member := perm.mem_iff.mp (List.mem_of_getLast? found)
          have apart := (sort_apart_iff nonempty).mpr disjoint
          have longest := stop_le_of_getLast? (nonempty_sort nonempty) apart found
          have inside : free.dti < last.stop ∨ ∀ i ∈ occupied, i.stop ≤ free.dti := by
            by_cases beyond : free.dti < last.stop
            · exact .inl beyond
            · exact .inr fun i held => by
                have := longest i (perm.mem_iff.mpr held)
                omega
          dsimp only
          split_ifs with beyond same
          · refine ⟨nofun, fun holds => ?_⟩
            have := holds.2.1 last member
            omega
          · exact ⟨fun _ => ⟨disjoint, inside.resolve_left beyond, same⟩, fun _ => rfl⟩
          · exact ⟨nofun, fun holds => absurd holds.2.2 same⟩

theorem checkPartition_eq_overlap_iff (nonempty : ∀ i ∈ occupied, i.start < i.stop) :
    (∃ first second, free.checkPartition occupied = .error (.occupiedOverlap first second)) ↔
      ¬ occupied.Pairwise Interval.Disjoint := by
  rw [← firstOverlap?_sort_eq_none_iff nonempty, checkPartition]
  cases overlap : firstOverlap? (sort occupied) with
  | some pair => exact ⟨fun _ => nofun, fun _ => ⟨pair.1, pair.2, rfl⟩⟩
  | none =>
      refine ⟨?_, fun some => absurd rfl some⟩
      rintro ⟨first, second, refused⟩
      dsimp only at refused
      split at refused <;> split_ifs at refused <;> cases refused

theorem checkPartition_perm (perm : occupied.Perm others) :
    free.checkPartition others = free.checkPartition occupied := by
  rw [checkPartition, checkPartition, sort_eq_of_perm perm]

/-- The check passes exactly when free slots and occupied intervals divide the DTI, and reports
an overlap exactly when there is one, in whatever order the intervals come. -/
theorem checkPartition_sound_complete (wellFormed : free.WellFormed)
    (nonempty : ∀ i ∈ occupied, i.start < i.stop) :
    (free.checkPartition occupied = .ok () ↔
      occupied.Pairwise Interval.Disjoint ∧ (∀ i ∈ occupied, i.stop ≤ free.dti) ∧
      ∀ t, t < free.dti → (free.Free t ↔ ∀ i ∈ occupied, ¬ (i.start ≤ t ∧ t < i.stop))) ∧
    ((∃ first second, free.checkPartition occupied = .error (.occupiedOverlap first second)) ↔
      ¬ occupied.Pairwise Interval.Disjoint) ∧
    ∀ others, occupied.Perm others →
      free.checkPartition others = free.checkPartition occupied :=
  ⟨checkPartition_eq_ok_iff wellFormed nonempty, checkPartition_eq_overlap_iff nonempty,
    fun _ => checkPartition_perm⟩

def threeOccupied : List Interval :=
  [⟨500, 700⟩, ⟨0, 110⟩, ⟨900, 1000⟩]

theorem threeOccupied_leave :
    FreeSlots.checkPartition ⟨1000, [⟨110, 500⟩, ⟨700, 900⟩]⟩ threeOccupied.reverse = .ok () ∧
      threeOccupied.Pairwise Interval.Disjoint := by
  have wellFormed : FreeSlots.WellFormed ⟨1000, [⟨110, 500⟩, ⟨700, 900⟩]⟩ := by
    refine ⟨?_, ?_, ?_⟩ <;> decide
  have nonempty : ∀ i ∈ threeOccupied, i.start < i.stop := by decide
  obtain ⟨passes, _, unordered⟩ := checkPartition_sound_complete wellFormed nonempty
  have passed : FreeSlots.checkPartition ⟨1000, [⟨110, 500⟩, ⟨700, 900⟩]⟩ threeOccupied =
      .ok () := by decide
  exact ⟨(unordered _ (List.reverse_perm _).symm).trans passed, (passes.mp passed).1⟩

end FreeSlots
end BeaconScheduler
