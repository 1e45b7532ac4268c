import BeaconScheduler.Proofs.Reservation

/-!
# Room in the free time

An interval can be claimed wherever it is free from start to end (`claim_of_free`), and a list
of intervals wherever they are free and do not overlap (`claimEach_of_coverage`).  Both rest on
the slots not touching: the microsecond after a slot is occupied, so what is free without a
break lies in one slot (`room_iff`).
-/

set_option autoImplicit false

namespace BeaconScheduler

open BeaconScheduler.Interval

namespace FreeSlots

variable {free : FreeSlots} {slots list : List Interval} {slot : Interval}
  {start stop needed t : Nat}

theorem free_iff : free.Free t ↔ 0 < coverage free.slots t :=
  coverage_pos_iff.symm

theorem WellFormed.lt_dti (wellFormed : free.WellFormed) (isFree : free.Free t) : t < free.dti := by
  obtain ⟨slot, member, _, last⟩ := isFree
  have := wellFormed.inside slot member
  omega

theorem WellFormed.coverage_le_one (wellFormed : free.WellFormed) (t : Nat) :
    coverage free.slots t ≤ 1 := by
  have disjoint : free.slots.Pairwise Interval.Disjoint :=
    wellFormed.apart.imp fun apart => Or.inl (Nat.le_of_lt apart)
  exact (pairwise_disjoint_iff wellFormed.nonempty).mp disjoint t

/-! ## Claims -/

theorem takeOut_isSome (canonical : Canonical slots) (nonempty : start < stop)
    (isFree : ∀ t, start ≤ t → t < stop → 0 < coverage slots t) :
    ∃ left, takeOut start stop slots = some left := by
  induction slots with
  | nil =>
      have covered := isFree start (Nat.le_refl _) nonempty
      rw [coverage_nil] at covered
      omega
  | cons slot rest ih =>
      obtain ⟨slotNonempty, behind, canonicalRest⟩ := canonical_cons.mp canonical
      rw [takeOut]
      by_cases passed : slot.stop ≤ start
      · have freeRest : ∀ t, start ≤ t → t < stop → 0 < coverage rest t := by
          intro t first last
          have covered := isFree t first last
          rw [coverage_cons, if_neg (by omega), Nat.zero_add] at covered
          exact covered
        obtain ⟨left, taken⟩ := ih canonicalRest freeRest
        rw [if_pos passed, taken]
        exact ⟨slot :: left, rfl⟩
      · have first : slot.start ≤ start :=
          canonical.start_le_of_coverage (isFree start (Nat.le_refl _) nonempty)
        have last : stop ≤ slot.stop := by
          by_contra beyond
          have covered := isFree slot.stop (by omega) (by omega)
          rw [canonical.coverage_stop List.mem_cons_self] at covered
          omega
        rw [if_neg passed, if_pos ⟨first, last⟩]
        exact ⟨_, rfl⟩

theorem claim_of_free (wellFormed : free.WellFormed) (nonempty : start < stop)
    (isFree : ∀ t, start ≤ t → t < stop → free.Free t) :
    ∃ after, free.claim start stop = .ok after := by
  have covered : ∀ t, start ≤ t → t < stop → 0 < coverage free.slots t := by
    intro t first last
    exact free_iff.mp (isFree t first last)
  obtain ⟨left, taken⟩ := takeOut_isSome wellFormed.canonical nonempty covered
  refine ⟨{ free with slots := left }, ?_⟩
  rw [claim, if_neg (by omega), taken]

theorem claimEach_of_coverage (wellFormed : free.WellFormed)
    (nonempty : ∀ i ∈ list, i.start < i.stop)
    (within : ∀ t, coverage list t ≤ coverage free.slots t) :
    ∃ after, free.claimEach list = .ok after := by
  induction list generalizing free with
  | nil => exact ⟨free, rfl⟩
  | cons i rest ih =>
      obtain ⟨own, nonemptyRest⟩ := List.forall_mem_cons.mp nonempty
      have isFree : ∀ t, i.start ≤ t → t < i.stop → free.Free t := by
        intro t first last
        have covered := within t
        rw [coverage_cons, if_pos ⟨first, last⟩] at covered
        exact free_iff.mpr (by omega)
      obtain ⟨middle, claimed⟩ := claim_of_free wellFormed own isFree
      obtain ⟨_, wellFormedMiddle, _, split⟩ := claim_eq_ok wellFormed claimed
      have withinRest : ∀ t, coverage rest t ≤ coverage middle.slots t := by
        intro t
        have before := within t
        have parts := split t
        rw [coverage_cons] at before
        rw [coverage_singleton] at parts
        dsimp only at parts
        omega
      obtain ⟨after, claimedRest⟩ := ih wellFormedMiddle nonemptyRest withinRest
      exact ⟨after, claimEach_cons_eq_ok.mpr ⟨middle, claimed, claimedRest⟩⟩

/-! ## Room at an offset -/

def Room (free : FreeSlots) (needed t : Nat) : Prop :=
  ∀ u, t ≤ u → u < t + needed → free.Free u

theorem room_iff (canonical : Canonical free.slots) (member : slot ∈ free.slots)
    (first : slot.start ≤ t) (last : t < slot.stop) :
    free.Room needed t ↔ t + needed ≤ slot.stop := by
  constructor
  · intro room
    by_contra beyond
    have isFree := free_iff.mp (room slot.stop (by omega) (by omega))
    rw [canonical.coverage_stop member] at isFree
    omega
  · intro inside u after before
    exact ⟨slot, member, by omega, by omega⟩

theorem Room.stop_le_dti (wellFormed : free.WellFormed) (positive : 0 < needed)
    (room : free.Room needed t) : t + needed ≤ free.dti := by
  have := wellFormed.lt_dti (room (t + needed - 1) (by omega) (by omega))
  omega

theorem slotAt?_eq_some_iff (canonical : Canonical free.slots) :
    free.slotAt? t = some slot ↔ slot ∈ free.slots ∧ slot.start ≤ t ∧ t < slot.stop := by
  unfold slotAt?
  rw [Option.filter_eq_some_iff, contains_iff]
  constructor
  · rintro ⟨found, bounds⟩
    exact ⟨List.mem_of_find?_eq_some found, bounds⟩
  · rintro ⟨member, first, last⟩
    obtain ⟨before, behind, split⟩ := List.append_of_mem member
    refine ⟨List.find?_eq_some_iff_append.mpr ⟨decide_eq_true last, before, behind, split, ?_⟩,
      first, last⟩
    intro earlier memberBefore
    have apart := canonical.apart
    rw [split] at apart
    have := (List.pairwise_append.mp apart).2.2 earlier memberBefore slot List.mem_cons_self
    simp only [Bool.not_eq_eq_eq_not, Bool.not_true, decide_eq_false_iff_not]
    omega

theorem slotAt?_eq_none_iff (canonical : Canonical free.slots) :
    free.slotAt? t = none ↔ ¬ free.Free t := by
  rw [Option.eq_none_iff_forall_ne_some]
  constructor
  · rintro none ⟨slot, holds⟩
    exact none slot ((slotAt?_eq_some_iff canonical).mpr holds)
  · intro occupied slot found
    exact occupied ⟨slot, (slotAt?_eq_some_iff canonical).mp found⟩

theorem firstFit?_eq_some (fits : free.firstFit? needed = some start) :
    ∃ slot ∈ free.slots, slot.start = start ∧ start + needed < slot.stop := by
  obtain ⟨slot, found, rfl⟩ := Option.map_eq_some_iff.mp fits
  have longer : needed < slot.length := by simpa using List.find?_some found
  refine ⟨slot, List.mem_of_find?_eq_some found, rfl, ?_⟩
  unfold Interval.length at longer
  omega

theorem claim_of_firstFit (wellFormed : free.WellFormed) (positive : 0 < needed)
    (fits : free.firstFit? needed = some start) :
    start + needed < free.dti ∧ ∃ after, free.claim start (start + needed) = .ok after := by
  obtain ⟨slot, member, rfl, room⟩ := firstFit?_eq_some fits
  have inside := wellFormed.inside slot member
  refine ⟨by omega, claim_of_free wellFormed (by omega) fun t first last => ?_⟩
  exact ⟨slot, member, first, by omega⟩

end FreeSlots
end BeaconScheduler
