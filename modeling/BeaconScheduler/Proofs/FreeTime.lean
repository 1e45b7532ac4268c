import BeaconScheduler.FreeSlots.Claim
import BeaconScheduler.FreeSlots.Partition
import BeaconScheduler.Proofs.Counters
import BeaconScheduler.Proofs.Coverage

/-!
# Changes of the free time

What claims, releases and complements do to the coverage of the free slots: a claim takes
the coverage of its interval away (`claim_eq_ok`), a release adds it (`release_eq_ok`) and
succeeds wherever nothing is free (`release_of_occupied`), and the complement covers what
the occupied intervals leave (`complement_spec`).  All of them keep the slots well
formed.
-/

set_option autoImplicit false

namespace BeaconScheduler

open BeaconScheduler.Interval

namespace FreeSlots

variable {free after : FreeSlots} {slots left : List Interval} {start stop : Nat}

theorem wellFormed_iff :
    free.WellFormed ↔ Canonical free.slots ∧ ∀ slot ∈ free.slots, slot.stop ≤ free.dti := by
  constructor
  · intro wellFormed
    exact ⟨⟨wellFormed.nonempty, wellFormed.apart⟩, wellFormed.inside⟩
  · rintro ⟨canonical, inside⟩
    exact ⟨canonical.nonempty, canonical.apart, inside⟩

theorem WellFormed.canonical (wellFormed : free.WellFormed) : Canonical free.slots :=
  (wellFormed_iff.mp wellFormed).1

theorem wellFormed_of_coverage (canonical : Canonical free.slots)
    (inside : ∀ t, free.dti ≤ t → coverage free.slots t = 0) : free.WellFormed := by
  refine wellFormed_iff.mpr ⟨canonical, ?_⟩
  intro slot member
  by_contra beyond
  have nonempty := canonical.nonempty slot member
  have covered := coverage_pos_of_mem (t := slot.stop - 1) member (by omega) (by omega)
  have := inside (slot.stop - 1) (by omega)
  omega

theorem WellFormed.coverage_outside (wellFormed : free.WellFormed) {t : Nat}
    (outside : free.dti ≤ t) : coverage free.slots t = 0 := by
  rw [coverage_eq_zero_iff]
  intro slot member held
  have := wellFormed.inside slot member
  omega

/-- There is only one way to write down the same free time of a DTI. -/
theorem WellFormed.eq_of_coverage (wellFormed : free.WellFormed) (wellFormed' : after.WellFormed)
    (length : free.dti = after.dti)
    (same : ∀ t, coverage free.slots t = coverage after.slots t) : free = after := by
  have slots := wellFormed.canonical.eq_of_coverage wellFormed'.canonical same
  calc
    free = ⟨free.dti, free.slots⟩ := rfl
    _ = ⟨after.dti, after.slots⟩ := by rw [length, slots]

/-! ## Claims -/

theorem coverage_without {slot : Interval} (first : slot.start ≤ start) (nonempty : start < stop)
    (last : stop ≤ slot.stop) (t : Nat) :
    coverage [slot] t = coverage (slot.without start stop) t + coverage [⟨start, stop⟩] t := by
  unfold Interval.without
  by_cases before : slot.start < start <;> by_cases behind : stop < slot.stop <;>
    simp only [before, behind, if_true, if_false, coverage_append, coverage_singleton,
      coverage_nil] <;>
    split_ifs <;> omega

theorem mem_without {slot piece : Interval} (first : slot.start ≤ start) (nonempty : start < stop)
    (last : stop ≤ slot.stop) (member : piece ∈ slot.without start stop) :
    slot.start ≤ piece.start ∧ piece.stop ≤ slot.stop := by
  unfold Interval.without at member
  rcases List.mem_append.mp member with member | member <;> split_ifs at member
  · obtain rfl := List.mem_singleton.mp member
    exact ⟨Nat.le_refl _, by dsimp only; omega⟩
  · simp at member
  · obtain rfl := List.mem_singleton.mp member
    exact ⟨by dsimp only; omega, Nat.le_refl _⟩
  · simp at member

theorem canonical_without {slot : Interval} (nonempty : start < stop) :
    Canonical (slot.without start stop) := by
  unfold Interval.without
  by_cases before : slot.start < start <;> by_cases behind : stop < slot.stop
  · simp only [before, behind, if_true]
    exact canonical_cons.mpr ⟨before, by simpa using nonempty, canonical_singleton behind⟩
  · simp only [before, behind, if_true, if_false]
    exact canonical_singleton before
  · simp only [before, behind, if_true, if_false]
    exact canonical_singleton behind
  · simp only [before, behind, if_false]
    exact canonical_nil

theorem takeOut_eq_some (canonical : Canonical slots) (nonempty : start < stop)
    (taken : takeOut start stop slots = some left) :
    Canonical left ∧
      (∀ t, coverage slots t = coverage left t + coverage [⟨start, stop⟩] t) ∧
      ∀ piece ∈ left, ∃ slot ∈ slots, slot.start ≤ piece.start ∧ piece.stop ≤ slot.stop := by
  induction slots generalizing left with
  | nil => simp [takeOut] at taken
  | cons slot rest ih =>
      obtain ⟨slotNonempty, behind, canonicalRest⟩ := canonical_cons.mp canonical
      rw [takeOut] at taken
      split_ifs at taken with passed holds
      · obtain ⟨leftRest, takenRest, rfl⟩ := Option.map_eq_some_iff.mp taken
        obtain ⟨canonicalLeft, covered, within⟩ := ih canonicalRest takenRest
        refine ⟨canonical_cons.mpr ⟨slotNonempty, ?_, canonicalLeft⟩, ?_, ?_⟩
        · intro piece member
          obtain ⟨j, memberRest, first, _⟩ := within piece member
          have := behind j memberRest
          omega
        · intro t
          rw [coverage_cons, coverage_cons, covered t]
          omega
        · intro piece member
          rcases List.mem_cons.mp member with rfl | member
          · exact ⟨piece, List.mem_cons_self, Nat.le_refl _, Nat.le_refl _⟩
          · obtain ⟨j, memberRest, bounds⟩ := within piece member
            exact ⟨j, List.mem_cons_of_mem _ memberRest, bounds⟩
      · obtain rfl := Option.some.inj taken
        have inSlot := fun piece (member : piece ∈ slot.without start stop) =>
          mem_without holds.1 nonempty holds.2 member
        refine ⟨?_, ?_, ?_⟩
        · refine ⟨?_, List.pairwise_append.mpr
            ⟨(canonical_without nonempty).apart, canonicalRest.apart, ?_⟩⟩
          · intro piece member
            rcases List.mem_append.mp member with member | member
            · exact (canonical_without nonempty).nonempty piece member
            · exact canonicalRest.nonempty piece member
          · intro piece member j memberRest
            have := inSlot piece member
            have := behind j memberRest
            omega
        · intro t
          have split := coverage_without holds.1 nonempty holds.2 t
          rw [coverage_cons, ← coverage_singleton, coverage_append, split]
          omega
        · intro piece member
          rcases List.mem_append.mp member with member | member
          · exact ⟨slot, List.mem_cons_self, inSlot piece member⟩
          · exact ⟨piece, List.mem_cons_of_mem _ member, Nat.le_refl _, Nat.le_refl _⟩

theorem claim_eq_ok (wellFormed : free.WellFormed) (claimed : free.claim start stop = .ok after) :
    start < stop ∧ after.WellFormed ∧ after.dti = free.dti ∧
      ∀ t, coverage free.slots t = coverage after.slots t + coverage [⟨start, stop⟩] t := by
  unfold claim at claimed
  split_ifs at claimed with empty
  have nonempty : start < stop := by omega
  cases taken : takeOut start stop free.slots with
  | none => simp [taken] at claimed
  | some left =>
      simp only [taken, Except.ok.injEq] at claimed
      subst after
      obtain ⟨canonical, covered, within⟩ := takeOut_eq_some wellFormed.canonical nonempty taken
      refine ⟨nonempty, wellFormed_iff.mpr ⟨canonical, ?_⟩, rfl, covered⟩
      intro piece member
      obtain ⟨slot, memberSlots, _, last⟩ := within piece member
      exact Nat.le_trans last (wellFormed.inside slot memberSlots)

/-! ## Releases -/

theorem head_all_of_touching {slot : Interval} {rest : List Interval}
    (canonical : Canonical (slot :: rest)) (touches : slot.stop = start) :
    rest.head?.all (start < ·.stop) = true := by
  obtain ⟨_, behind, canonicalRest⟩ := canonical_cons.mp canonical
  cases rest with
  | nil => rfl
  | cons next others =>
      have := behind next List.mem_cons_self
      have := canonicalRest.nonempty next List.mem_cons_self
      simp only [List.head?_cons, Option.all_some, decide_eq_true_eq]
      omega

theorem putBack_eq_some (canonical : Canonical slots) (nonempty : start < stop)
    (returned : putBack start stop slots = some left) :
    Canonical left ∧
      (∀ t, coverage left t = coverage slots t + coverage [⟨start, stop⟩] t) ∧
      ∀ piece ∈ left, start ≤ piece.start ∨ ∃ slot ∈ slots, slot.start ≤ piece.start := by
  induction slots generalizing start left with
  | nil =>
      simp only [putBack, Option.some.injEq] at returned
      subst left
      exact ⟨canonical_singleton nonempty, by simp, by simp⟩
  | cons slot rest ih =>
      obtain ⟨slotNonempty, behind, canonicalRest⟩ := canonical_cons.mp canonical
      have self : ∃ j ∈ slot :: rest, j.start ≤ slot.start :=
        ⟨slot, List.mem_cons_self, Nat.le_refl _⟩
      have later : ∀ piece ∈ rest, ∃ j ∈ slot :: rest, j.start ≤ piece.start :=
        fun piece member => ⟨piece, List.mem_cons_of_mem _ member, Nat.le_refl _⟩
      rw [putBack] at returned
      split_ifs at returned with passed overlaps joins touches
      · obtain rfl := Option.some.inj returned
        refine ⟨canonical_cons.mpr ⟨passed, behind, canonicalRest⟩, ?_, ?_⟩
        · intro t
          rw [coverage_cons, coverage_cons, coverage_singleton]
          dsimp only
          split_ifs <;> omega
        · intro piece member
          rcases List.mem_cons.mp member with rfl | member
          · exact Or.inl (Nat.le_refl _)
          · exact Or.inr (later piece member)
      · obtain rfl := Option.some.inj returned
        refine ⟨canonical_cons.mpr ⟨nonempty, ?_, canonical⟩, ?_, ?_⟩
        · intro j member
          dsimp only
          rcases List.mem_cons.mp member with rfl | member
          · omega
          · have := behind j member
            omega
        · intro t
          rw [coverage_cons, ← coverage_singleton]
          exact Nat.add_comm _ _
        · intro piece member
          rcases List.mem_cons.mp member with rfl | member
          · exact Or.inl (Nat.le_refl _)
          · exact Or.inr ⟨piece, member, Nat.le_refl _⟩
      · obtain ⟨canonicalLeft, covered, within⟩ := ih canonicalRest (by omega) returned
        refine ⟨canonicalLeft, ?_, ?_⟩
        · intro t
          rw [covered t, coverage_cons slot, coverage_singleton, coverage_singleton]
          dsimp only
          split_ifs <;> omega
        · intro piece member
          rcases within piece member with first | ⟨j, memberRest, first⟩
          · exact Or.inr ⟨slot, List.mem_cons_self, first⟩
          · exact Or.inr ⟨j, List.mem_cons_of_mem _ memberRest, first⟩
      · obtain ⟨leftRest, returnedRest, rfl⟩ := Option.map_eq_some_iff.mp returned
        have apart : slot.stop < start := by
          have : slot.stop ≠ start := fun same =>
            touches ⟨same, head_all_of_touching canonical same⟩
          omega
        obtain ⟨canonicalLeft, covered, within⟩ := ih canonicalRest nonempty returnedRest
        refine ⟨canonical_cons.mpr ⟨slotNonempty, ?_, canonicalLeft⟩, ?_, ?_⟩
        · intro piece member
          rcases within piece member with first | ⟨j, memberRest, first⟩
          · omega
          · have := behind j memberRest
            omega
        · intro t
          rw [coverage_cons, coverage_cons, covered t]
          omega
        · intro piece member
          rcases List.mem_cons.mp member with rfl | member
          · exact Or.inr self
          · rcases within piece member with first | ⟨j, memberRest, first⟩
            · exact Or.inl first
            · exact Or.inr ⟨j, List.mem_cons_of_mem _ memberRest, first⟩

theorem putBack_isSome (canonical : Canonical slots) (nonempty : start < stop)
    (occupied : ∀ t, start ≤ t → t < stop → coverage slots t = 0) :
    ∃ left, putBack start stop slots = some left := by
  induction slots generalizing start with
  | nil => exact ⟨_, rfl⟩
  | cons slot rest ih =>
      obtain ⟨slotNonempty, behind, canonicalRest⟩ := canonical_cons.mp canonical
      have occupiedRest : ∀ t, start ≤ t → t < stop → coverage rest t = 0 := fun t first last => by
        have := occupied t first last
        rw [coverage_cons] at this
        omega
      rw [putBack]
      split_ifs with passed overlaps joins touches
      · have covered : 0 < coverage (slot :: rest) (max start slot.start) :=
          coverage_pos_of_mem List.mem_cons_self (by omega) (by omega)
        have := occupied (max start slot.start) (by omega) (by omega)
        omega
      · exact ⟨_, rfl⟩
      · exact ⟨_, rfl⟩
      · refine ih canonicalRest (by omega) fun t first last => ?_
        by_cases inSlot : t < slot.stop
        · refine coverage_eq_zero_of_before fun j member => ?_
          have := behind j member
          omega
        · exact occupiedRest t (by omega) last
      · obtain ⟨leftRest, returned⟩ := ih canonicalRest nonempty occupiedRest
        exact ⟨slot :: leftRest, by rw [returned]; rfl⟩

theorem release_eq_ok (wellFormed : free.WellFormed)
    (released : free.release start stop = .ok after) :
    start < stop ∧ after.WellFormed ∧ after.dti = free.dti ∧
      ∀ t, coverage after.slots t = coverage free.slots t + coverage [⟨start, stop⟩] t := by
  unfold release at released
  split_ifs at released with empty beyond
  have nonempty : start < stop := by omega
  cases returned : putBack start stop free.slots with
  | none => simp [returned] at released
  | some left =>
      simp only [returned, Except.ok.injEq] at released
      subst after
      obtain ⟨canonical, covered, _⟩ := putBack_eq_some wellFormed.canonical nonempty returned
      refine ⟨nonempty, wellFormed_of_coverage canonical fun t outside => ?_, rfl, covered⟩
      dsimp only at outside ⊢
      have uncovered : ¬ (start ≤ t ∧ t < stop) := by omega
      rw [covered t, wellFormed.coverage_outside outside, coverage_singleton, if_neg uncovered]

theorem release_of_occupied (wellFormed : free.WellFormed) (nonempty : start < stop)
    (inside : stop ≤ free.dti)
    (occupied : ∀ t, start ≤ t → t < stop → coverage free.slots t = 0) :
    ∃ after, free.release start stop = .ok after := by
  obtain ⟨left, returned⟩ := putBack_isSome wellFormed.canonical nonempty occupied
  refine ⟨{ free with slots := left }, ?_⟩
  rw [release, if_neg (by omega), if_neg (by omega), returned]

/-! ## The whole DTI, and what occupied time leaves of it -/

theorem wellFormed_whole (dti : Nat) : (whole dti).WellFormed := by
  refine wellFormed_iff.mpr ?_
  unfold whole
  split_ifs with positive
  · exact ⟨canonical_singleton positive, by simp⟩
  · exact ⟨canonical_nil, by simp⟩

theorem coverage_whole (dti t : Nat) :
    coverage (whole dti).slots t = if t < dti then 1 else 0 := by
  unfold whole
  by_cases positive : 0 < dti
  · simp [positive, coverage_singleton]
  · have empty : ¬ t < dti := by omega
    simp [positive, empty]

theorem gaps_spec {sorted : List Interval} (dti cursor : Nat)
    (nonempty : ∀ i ∈ sorted, i.start < i.stop)
    (inOrder : sorted.Pairwise fun i j => i.start ≤ j.start) :
    Canonical (gaps dti cursor sorted) ∧
      (∀ gap ∈ gaps dti cursor sorted, cursor ≤ gap.start ∧ gap.start < dti) ∧
      ∀ t, coverage (gaps dti cursor sorted) t =
        if cursor ≤ t ∧ t < dti ∧ coverage sorted t = 0 then 1 else 0 := by
  induction sorted generalizing cursor with
  | nil =>
      rw [gaps]
      split_ifs with room
      · refine ⟨canonical_singleton room, by simpa using room, fun t => ?_⟩
        rw [coverage_singleton]
        simp
      · refine ⟨canonical_nil, by simp, fun t => ?_⟩
        rw [coverage_nil, if_neg (by omega)]
  | cons i rest ih =>
      obtain ⟨starts, inOrderRest⟩ := List.pairwise_cons.mp inOrder
      have own := nonempty i List.mem_cons_self
      obtain ⟨canonical, bound, covered⟩ := ih (max cursor (min i.stop dti))
        (fun j member => nonempty j (List.mem_cons_of_mem _ member)) inOrderRest
      have restBefore : ∀ t, t < i.start → coverage rest t = 0 := fun t before =>
        coverage_eq_zero_of_before fun j member => by
          have := starts j member
          omega
      rw [gaps]
      split_ifs with room
      · refine ⟨canonical_cons.mpr ⟨room, ?_, canonical⟩, ?_, ?_⟩
        · intro gap member
          have := bound gap member
          dsimp only
          omega
        · intro gap member
          rcases List.mem_cons.mp member with rfl | member
          · exact ⟨Nat.le_refl _, by dsimp only; omega⟩
          · have := bound gap member
            omega
        · intro t
          have := restBefore t
          rw [coverage_cons, covered t, coverage_cons i]
          dsimp only
          split_ifs <;> omega
      · refine ⟨canonical, ?_, ?_⟩
        · intro gap member
          have := bound gap member
          omega
        · intro t
          have := restBefore t
          rw [covered t, coverage_cons i]
          split_ifs <;> omega

theorem complement_spec (dti : Nat) {occupied : List Interval}
    (nonempty : ∀ i ∈ occupied, i.start < i.stop) :
    (complement dti occupied).WellFormed ∧
      ∀ t, coverage (complement dti occupied).slots t =
        if t < dti ∧ coverage occupied t = 0 then 1 else 0 := by
  have perm := Interval.sort_perm occupied
  have inOrder : (Interval.sort occupied).Pairwise fun i j => i.start ≤ j.start :=
    (Interval.pairwise_sort occupied).imp fun le => by
      rw [Interval.le_iff] at le
      omega
  obtain ⟨canonical, _, covered⟩ := gaps_spec dti 0
    (fun i member => nonempty i (perm.mem_iff.mp member)) inOrder
  have complete : ∀ t, coverage (complement dti occupied).slots t =
      if t < dti ∧ coverage occupied t = 0 then 1 else 0 := by
    intro t
    have := covered t
    rw [coverage_perm perm] at this
    simpa [complement] using this
  refine ⟨wellFormed_of_coverage canonical fun t outside => ?_, complete⟩
  rw [complete, if_neg]
  simp only [complement] at outside
  omega

end FreeSlots
end BeaconScheduler
