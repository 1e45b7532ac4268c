import BeaconScheduler.Proofs.PartitionCheck

/-!
# Free time derived from occupied time

The sweep over the sorted intervals looks at each of them once and keeps how far the occupied
time has reached, so intervals may overlap, lie in each other, touch or reach past the DTI: what
is left is the complement of their union (`complement_free_iff`).  Claims take the same
microseconds out of a free DTI one interval after another, as long as they are disjoint
(`claimEach_whole_succeeds_iff`).  Since free time has one list of slots, splitting and trimming
in any order then ends with the list that the sweep writes down at once
(`eq_complement_of_claimEach`).
-/

set_option autoImplicit false

namespace BeaconScheduler.FreeSlots

open BeaconScheduler.Interval

variable {dti : Nat} {occupied claims : List Interval} {after : FreeSlots}

/-! ## The sweep -/

theorem complement_free_iff (nonempty : ∀ i ∈ occupied, i.start < i.stop) (t : Nat) :
    (complement dti occupied).Free t ↔
      t < dti ∧ ∀ i ∈ occupied, ¬ (i.start ≤ t ∧ t < i.stop) := by
  have covered := (complement_spec dti nonempty).2 t
  rw [free_iff, covered, ← coverage_eq_zero_iff]
  split_ifs with left
  · simp [left]
  · simp [left]

/-! ## Claims in a free DTI -/

theorem claimEach_whole_succeeds_iff (nonempty : ∀ i ∈ claims, i.start < i.stop) :
    (∃ after, (whole dti).claimEach claims = .ok after) ↔
      claims.Pairwise Interval.Disjoint ∧ ∀ i ∈ claims, i.stop ≤ dti := by
  constructor
  · intro succeeds
    obtain ⟨after, claimed⟩ := succeeds
    obtain ⟨_, _, _, split⟩ := claimEach_eq_ok (wellFormed_whole dti) claimed
    simp only [coverage_whole] at split
    constructor
    · apply (pairwise_disjoint_iff nonempty).mpr
      intro t
      have counted := split t
      split_ifs at counted <;> omega
    · intro i member
      have own := nonempty i member
      have last := coverage_pos_of_mem (t := i.stop - 1) member (by omega) (by omega)
      have counted := split (i.stop - 1)
      split_ifs at counted <;> omega
  · intro fits
    have once := (pairwise_disjoint_iff nonempty).mp fits.1
    apply claimEach_of_coverage (wellFormed_whole dti) nonempty
    intro t
    rw [coverage_whole]
    split_ifs with inside
    · exact once t
    · apply Nat.le_of_eq
      apply coverage_eq_zero_iff.mpr
      intro i member held
      have := fits.2 i member
      omega

theorem eq_complement_of_claimEach (perm : claims.Perm occupied)
    (claimed : (whole dti).claimEach claims = .ok after) : after = complement dti occupied := by
  obtain ⟨nonempty, wellFormed, length, split⟩ := claimEach_eq_ok (wellFormed_whole dti) claimed
  have nonemptyOccupied : ∀ i ∈ occupied, i.start < i.stop := by
    intro i member
    exact nonempty i (perm.mem_iff.mpr member)
  obtain ⟨wellFormed', covered⟩ := complement_spec dti nonemptyOccupied
  apply wellFormed.eq_of_coverage wellFormed' length
  intro t
  have counted := split t
  rw [coverage_whole, coverage_perm perm] at counted
  rw [covered t]
  split_ifs at counted ⊢ <;> omega

/-- The complement of any nonempty intervals is well formed, and free exactly where none of them
lies.  Where the intervals can be claimed one after another, that is, where they are disjoint and
end inside the DTI, the claims lead to the very same list of slots in every order. -/
theorem complement_canonical (dti : Nat) (nonempty : ∀ i ∈ occupied, i.start < i.stop) :
    (complement dti occupied).WellFormed ∧ (complement dti occupied).dti = dti ∧
    (∀ t, (complement dti occupied).Free t ↔
      t < dti ∧ ∀ i ∈ occupied, ¬ (i.start ≤ t ∧ t < i.stop)) ∧
    ∀ claims, claims.Perm occupied →
      ((∃ after, (whole dti).claimEach claims = .ok after) ↔
        occupied.Pairwise Interval.Disjoint ∧ ∀ i ∈ occupied, i.stop ≤ dti) ∧
      ∀ after, (whole dti).claimEach claims = .ok after → after = complement dti occupied := by
  refine ⟨(complement_spec dti nonempty).1, rfl, complement_free_iff nonempty, ?_⟩
  intro claims perm
  constructor
  · have nonemptyClaims : ∀ i ∈ claims, i.start < i.stop := by
      intro i member
      exact nonempty i (perm.mem_iff.mp member)
    rw [claimEach_whole_succeeds_iff nonemptyClaims, pairwise_disjoint_perm perm]
    simp only [perm.mem_iff]
  · intro after claimed
    exact eq_complement_of_claimEach perm claimed

/-- Intervals that overlap, lie in each other, touch, and reach past a DTI of 1000
microseconds. -/
def tangled : List Interval :=
  [⟨500, 700⟩, ⟨0, 110⟩, ⟨550, 600⟩, ⟨690, 720⟩, ⟨720, 730⟩, ⟨900, 1200⟩]

def separate : List Interval :=
  [⟨500, 700⟩, ⟨900, 1000⟩, ⟨700, 730⟩, ⟨0, 110⟩]

theorem tangled_complement :
    complement 1000 tangled = ⟨1000, [⟨110, 500⟩, ⟨730, 900⟩]⟩ ∧
      (complement 1000 tangled).WellFormed ∧ ¬ (complement 1000 tangled).Free 710 ∧
      (¬ ∃ after, (whole 1000).claimEach tangled = .ok after) ∧
      (whole 1000).claimEach separate.reverse = .ok (complement 1000 tangled) := by
  have nonempty : ∀ i ∈ tangled, i.start < i.stop := by decide
  have nonemptySeparate : ∀ i ∈ separate, i.start < i.stop := by decide
  obtain ⟨wellFormed, _, isFree, order⟩ := complement_canonical 1000 nonempty
  obtain ⟨_, _, _, orderSeparate⟩ := complement_canonical 1000 nonemptySeparate
  refine ⟨by decide, wellFormed, ?_, ?_, ?_⟩
  · intro free
    exact ((isFree 710).mp free).2 ⟨690, 720⟩ (by decide) (by decide)
  · intro claimed
    have inside := ((order tangled (.refl tangled)).1.mp claimed).2
    exact absurd (inside ⟨900, 1200⟩ (by decide)) (by decide)
  · obtain ⟨succeeds, same⟩ := orderSeparate separate.reverse (List.reverse_perm separate)
    have disjoint : separate.Pairwise Interval.Disjoint := by
      unfold Interval.Disjoint
      decide
    obtain ⟨after, claimed⟩ := succeeds.mpr ⟨disjoint, by decide⟩
    rw [claimed, same after claimed]
    decide

end BeaconScheduler.FreeSlots
