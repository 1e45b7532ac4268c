import BeaconScheduler.Proofs.Occupation
import Mathlib.Order.Bounds.Basic

/-!
# One geometry, read in four ways

Block starts, the end of the last block, the occupied intervals and the airtime of an allocation
are computed apart, and tell periodic allocations from others in different ways.  With a block at
all they can be counted exactly if the last end with its tail and the airtime fit
(`locates_iff`), and then they describe the same blocks (`geometry_agrees`).
-/

set_option autoImplicit false

namespace BeaconScheduler.Allocation

open Counter BeaconScheduler.Interval

variable {a : Allocation} {guard total stop : Nat} {starts : List Nat} {occupied : List Interval}

/-! ## The readings in plain arithmetic -/

def startOf (a : Allocation) (i : Nat) : Nat :=
  a.start + i * a.spacing

def lastStop (a : Allocation) : Nat :=
  a.startOf (a.blocks - 1) + a.blockDuration

theorem startOf_le_startOf {i j : Nat} (before : i ≤ j) : a.startOf i ≤ a.startOf j :=
  Nat.add_le_add_left (Nat.mul_le_mul_right a.spacing before) a.start

theorem startOf_le_last {i : Nat} (block : i < a.blocks) :
    a.startOf i + a.blockDuration ≤ a.lastStop :=
  Nat.add_le_add_right (startOf_le_startOf (by omega)) a.blockDuration

theorem spacing_of_periodic (periodic : a.isPeriodic = true) : a.spacing = a.blockPeriod :=
  if_pos (isPeriodic_iff.mp periodic).2

theorem single_or_contiguous (single : ¬ a.isPeriodic = true) (positive : 0 < a.blocks) :
    a.blocks = 1 ∨ a.spacing = a.blockDuration := by
  rw [isPeriodic_iff] at single
  by_cases one : a.blocks = 1
  · exact .inl one
  · exact .inr (if_neg (by omega))

theorem lastStop_of_single (single : ¬ a.isPeriodic = true) (positive : 0 < a.blocks) :
    a.lastStop = a.start + a.blockDuration * a.blocks := by
  unfold lastStop startOf
  rcases single_or_contiguous single positive with one | contiguous
  · rw [one, Nat.sub_self, Nat.zero_mul, Nat.mul_one, Nat.add_zero]
  · obtain ⟨n, count⟩ := Nat.exists_eq_add_of_lt positive
    rw [contiguous, count, Nat.zero_add, Nat.add_sub_cancel, Nat.mul_succ, Nat.mul_comm n,
      Nat.add_assoc]

theorem blockExtent_eq (periodic : a.isPeriodic = true) (i : Nat) :
    a.blockExtent guard i =
      ⟨a.startOf i, a.startOf i + a.blockDuration + a.tailLength guard⟩ := by
  rw [blockExtent, startOf, spacing_of_periodic periodic]

theorem spanExtent_eq (single : ¬ a.isPeriodic = true) (positive : 0 < a.blocks) :
    a.spanExtent guard = ⟨a.startOf 0, a.lastStop + a.tailLength guard⟩ := by
  rw [spanExtent, lastStop_of_single single positive, startOf, Nat.zero_mul, Nat.add_zero]

/-! ## When they can be counted -/

theorem blockStart_eq_ok_iff (i start : Nat) :
    a.blockStart i = .ok start ↔ start = a.startOf i ∧ a.startOf i < 2 ^ 32 := by
  unfold blockStart startOf
  simp only [bind_eq_ok_iff, mul_eq_ok_iff, add_eq_ok_iff]
  constructor
  · rintro ⟨_, ⟨_, rfl⟩, bound, rfl⟩
    exact ⟨rfl, bound⟩
  · rintro ⟨rfl, bound⟩
    exact ⟨_, ⟨by omega, rfl⟩, bound, rfl⟩

theorem blockStarts_eq_ok_iff :
    a.blockStarts = .ok starts ↔
      starts = (List.range a.blocks).map a.startOf ∧ ∀ i < a.blocks, a.startOf i < 2 ^ 32 := by
  rw [blockStarts, mapM_eq_ok_iff blockStart_eq_ok_iff]
  simp only [List.mem_range]

theorem stop_eq_ok_iff (positive : 0 < a.blocks) :
    a.stop = .ok stop ↔ stop = a.lastStop ∧ a.lastStop < 2 ^ 32 := by
  unfold Allocation.stop
  by_cases periodic : a.isPeriodic = true
  · rw [if_pos periodic, lastStop, startOf, spacing_of_periodic periodic]
    simp only [bind_eq_ok_iff, mul_eq_ok_iff, add_eq_ok_iff]
    constructor
    · rintro ⟨_, ⟨_, rfl⟩, _, ⟨_, rfl⟩, bound, rfl⟩
      exact ⟨rfl, bound⟩
    · rintro ⟨rfl, bound⟩
      exact ⟨_, ⟨by omega, rfl⟩, _, ⟨by omega, rfl⟩, bound, rfl⟩
  · rw [if_neg periodic, lastStop_of_single periodic positive]
    simp only [bind_eq_ok_iff, mul_eq_ok_iff, add_eq_ok_iff]
    constructor
    · rintro ⟨_, ⟨_, rfl⟩, bound, rfl⟩
      exact ⟨rfl, bound⟩
    · rintro ⟨rfl, bound⟩
      exact ⟨_, ⟨by omega, rfl⟩, bound, rfl⟩

theorem fits_iff (positive : 0 < a.blocks) :
    a.Fits guard ↔ a.lastStop + a.tailLength guard < 2 ^ 32 := by
  unfold Fits extent
  by_cases periodic : a.isPeriodic = true
  · rw [if_pos periodic]
    simp only [List.forall_mem_map, List.mem_range, blockExtent_eq periodic]
    constructor
    · intro bounds
      exact bounds (a.blocks - 1) (by omega)
    · intro bound i block
      have := startOf_le_last block
      omega
  · rw [if_neg periodic, List.forall_mem_singleton, spanExtent_eq periodic positive]

/-- All that is computed about the place of an allocation. -/
structure Locates (a : Allocation) (guard : Nat) (starts : List Nat) (stop : Nat)
    (occupied : List Interval) (total : Nat) : Prop where
  starts : a.blockStarts = .ok starts
  stop : a.stop = .ok stop
  occupied : a.occupied guard = .ok occupied
  total : a.totalDuration = .ok total

theorem locates_iff (positive : 0 < a.blocks) :
    a.Locates guard starts stop occupied total ↔
      (starts = (List.range a.blocks).map a.startOf ∧ stop = a.lastStop ∧
        occupied = a.extent guard ∧ total = a.blockDuration * a.blocks) ∧
      a.lastStop + a.tailLength guard < 2 ^ 32 ∧ a.blockDuration * a.blocks < 2 ^ 32 := by
  constructor
  · rintro ⟨startsOk, stopOk, occupiedOk, totalOk⟩
    obtain ⟨rfl, _⟩ := blockStarts_eq_ok_iff.mp startsOk
    obtain ⟨rfl, _⟩ := (stop_eq_ok_iff positive).mp stopOk
    obtain ⟨rfl, fits⟩ := occupied_eq_ok_iff.mp occupiedOk
    obtain ⟨counted, rfl⟩ := mul_eq_ok_iff.mp totalOk
    exact ⟨⟨rfl, rfl, rfl, rfl⟩, (fits_iff positive).mp fits, counted⟩
  · rintro ⟨⟨rfl, rfl, rfl, rfl⟩, fits, counted⟩
    refine ⟨blockStarts_eq_ok_iff.mpr ⟨rfl, fun i block => ?_⟩,
      (stop_eq_ok_iff positive).mpr ⟨rfl, by omega⟩,
      occupied_eq_ok_iff.mpr ⟨rfl, (fits_iff positive).mpr fits⟩, mul_eq_ok_iff.mpr ⟨counted, rfl⟩⟩
    have := startOf_le_last block
    omega

/-! ## That they agree -/

/-- Blocks follow each other at a distance that leaves each its tail, or without any. -/
def Spread (a : Allocation) (tail : Nat) (starts : List Nat) : Prop :=
  (starts.IsChain fun first second => first + a.blockDuration + tail ≤ second) ∨
    a.blockPeriod = 0

/-- The readings are about the same blocks, each with a tail that is kept free after it. -/
structure Agrees (a : Allocation) (tail : Nat) (starts : List Nat) (stop : Nat)
    (occupied : List Interval) (total : Nat) : Prop where
  held : ∀ start ∈ starts, ∃ i ∈ occupied,
    i.start ≤ start ∧ start + a.blockDuration ≤ i.stop
  /-- Every microsecond of an interval lies in a block or in the tail after one. -/
  needed : ∀ i ∈ occupied, ∀ t, i.start ≤ t → t < i.stop →
    (∃ start ∈ starts, start ≤ t ∧ t < start + a.blockDuration) ∨
      ∃ start ∈ starts, start + a.blockDuration ≤ t ∧ t < start + a.blockDuration + tail
  lastBlock : IsGreatest {e | ∃ start ∈ starts, e = start + a.blockDuration} stop
  lastOccupied : IsGreatest {e | ∃ i ∈ occupied, e = i.stop} (stop + tail)
  airtime : (occupied.map Interval.length).sum = total + tail * occupied.length
  apart : a.Spread tail starts → occupied.Pairwise Interval.Disjoint

theorem exists_block_of_contiguous {t : Nat} (contiguous : a.spacing = a.blockDuration)
    (after : a.start ≤ t) :
    ∀ n, t < a.startOf n → ∃ i < n, a.startOf i ≤ t ∧ t < a.startOf i + a.blockDuration := by
  have step : ∀ i, a.startOf (i + 1) = a.startOf i + a.blockDuration := fun i => by
    rw [startOf, startOf, contiguous, Nat.succ_mul, Nat.add_assoc]
  intro n
  induction n with
  | zero =>
      intro before
      rw [startOf, Nat.zero_mul] at before
      omega
  | succ n ih =>
      intro before
      by_cases earlier : t < a.startOf n
      · obtain ⟨i, block, holds⟩ := ih earlier
        exact ⟨i, Nat.lt_succ_of_lt block, holds⟩
      · rw [step] at before
        exact ⟨n, Nat.lt_succ_self n, Nat.le_of_not_lt earlier, before⟩

theorem exists_block_of_single {t : Nat} (single : ¬ a.isPeriodic = true) (positive : 0 < a.blocks)
    (after : a.start ≤ t) (before : t < a.lastStop) :
    ∃ i < a.blocks, a.startOf i ≤ t ∧ t < a.startOf i + a.blockDuration := by
  rcases single_or_contiguous single positive with one | contiguous
  · refine ⟨0, positive, ?_⟩
    rw [lastStop, one] at before
    rw [startOf, Nat.zero_mul] at before ⊢
    exact ⟨after, before⟩
  · refine exists_block_of_contiguous contiguous after a.blocks ?_
    rw [lastStop_of_single single positive] at before
    rwa [startOf, contiguous, Nat.mul_comm]

theorem agrees_periodic (periodic : a.isPeriodic = true) :
    a.Agrees (a.tailLength guard) ((List.range a.blocks).map a.startOf) a.lastStop
      ((List.range a.blocks).map (a.blockExtent guard)) (a.blockDuration * a.blocks) := by
  have several := (isPeriodic_iff.mp periodic).1
  have last : a.blocks - 1 < a.blocks := by omega
  have extents := funext (blockExtent_eq periodic : ∀ i, a.blockExtent guard i = _)
  simp only [extents]
  refine ⟨?_, ?_, ⟨?_, ?_⟩, ⟨?_, ?_⟩, ?_, ?_⟩
  · rintro _ member
    obtain ⟨i, block, rfl⟩ := List.mem_map.mp member
    exact ⟨_, List.mem_map_of_mem block, Nat.le_refl _, Nat.le_add_right _ _⟩
  · rintro _ member t first before
    obtain ⟨i, block, rfl⟩ := List.mem_map.mp member
    by_cases inBlock : t < a.startOf i + a.blockDuration
    · exact .inl ⟨_, List.mem_map_of_mem block, first, inBlock⟩
    · exact .inr ⟨_, List.mem_map_of_mem block, Nat.le_of_not_lt inBlock, before⟩
  · exact ⟨_, List.mem_map_of_mem (List.mem_range.mpr last), rfl⟩
  · rintro _ ⟨_, member, rfl⟩
    obtain ⟨i, block, rfl⟩ := List.mem_map.mp member
    exact startOf_le_last (List.mem_range.mp block)
  · exact ⟨_, List.mem_map_of_mem (List.mem_range.mpr last), rfl⟩
  · rintro _ ⟨_, member, rfl⟩
    obtain ⟨i, block, rfl⟩ := List.mem_map.mp member
    exact Nat.add_le_add_right (startOf_le_last (List.mem_range.mp block)) _
  · have length : ∀ i, Interval.length ⟨a.startOf i,
        a.startOf i + a.blockDuration + a.tailLength guard⟩ =
          a.blockDuration + a.tailLength guard := fun i => by
      rw [Interval.length, Nat.add_assoc, Nat.add_sub_cancel_left]
    rw [List.map_map, List.length_map, List.length_range]
    simp only [Function.comp_def, length, List.map_const', List.length_range,
      List.sum_replicate_nat]
    rw [Nat.mul_add, Nat.mul_comm a.blocks, Nat.mul_comm a.blocks]
  · intro spread
    have distance : a.blockDuration + a.tailLength guard ≤ a.spacing := by
      rcases spread with chain | contiguous
      · have first := List.isChain_iff_getElem.mp chain 0 (by simpa using several)
        simp only [List.getElem_map, List.getElem_range, startOf] at first
        omega
      · have := (isPeriodic_iff.mp periodic).2
        omega
    refine List.pairwise_map.mpr (List.pairwise_lt_range.imp fun {i j} before => .inl ?_)
    have := startOf_le_startOf (a := a) (Nat.succ_le_of_lt before)
    rw [startOf, Nat.succ_mul, ← Nat.add_assoc, ← startOf] at this
    dsimp only
    omega

theorem agrees_single (single : ¬ a.isPeriodic = true) (positive : 0 < a.blocks) :
    a.Agrees (a.tailLength guard) ((List.range a.blocks).map a.startOf) a.lastStop
      [a.spanExtent guard] (a.blockDuration * a.blocks) := by
  have first : a.startOf 0 = a.start := by
    rw [startOf, Nat.zero_mul, Nat.add_zero]
  have last : a.blocks - 1 < a.blocks := by omega
  have blockOf : ∀ {i}, i < a.blocks → a.startOf i ∈ (List.range a.blocks).map a.startOf :=
    fun block => List.mem_map_of_mem (List.mem_range.mpr block)
  rw [spanExtent_eq single positive]
  refine ⟨?_, ?_, ⟨?_, ?_⟩, ⟨?_, ?_⟩, ?_, fun _ => List.pairwise_singleton _ _⟩
  · rintro _ member
    obtain ⟨i, block, rfl⟩ := List.mem_map.mp member
    have := startOf_le_last (List.mem_range.mp block)
    exact ⟨_, List.mem_singleton_self _, startOf_le_startOf (Nat.zero_le i),
      Nat.le_add_right_of_le this⟩
  · rintro _ member t after before
    obtain rfl := List.mem_singleton.mp member
    dsimp only at after before
    rw [first] at after
    by_cases inBlock : t < a.lastStop
    · obtain ⟨i, block, holds⟩ := exists_block_of_single single positive after inBlock
      exact .inl ⟨_, blockOf block, holds⟩
    · exact .inr ⟨_, blockOf last, Nat.le_of_not_lt inBlock, before⟩
  · exact ⟨_, blockOf last, rfl⟩
  · rintro _ ⟨_, member, rfl⟩
    obtain ⟨i, block, rfl⟩ := List.mem_map.mp member
    exact startOf_le_last (List.mem_range.mp block)
  · exact ⟨_, List.mem_singleton_self _, rfl⟩
  · rintro _ ⟨_, member, rfl⟩
    rw [List.mem_singleton.mp member]
  · have := lastStop_of_single single positive
    rw [List.map_singleton, List.sum_singleton, List.length_singleton, Interval.length, first]
    dsimp only
    omega

/-- An allocation with a block at all can be located exactly if its last end with the tail and its
airtime fit their counters, and then all that is computed about its place agrees. -/
theorem geometry_agrees (positive : 0 < a.blocks) :
    ((∃ starts stop occupied total, a.Locates guard starts stop occupied total) ↔
      a.lastStop + a.tailLength guard < 2 ^ 32 ∧ a.blockDuration * a.blocks < 2 ^ 32) ∧
    ∀ starts stop occupied total, a.Locates guard starts stop occupied total →
      a.Agrees (a.tailLength guard) starts stop occupied total := by
  refine ⟨⟨?_, ?_⟩, ?_⟩
  · rintro ⟨_, _, _, _, locates⟩
    exact ((locates_iff positive).mp locates).2
  · intro counted
    exact ⟨_, _, _, _, (locates_iff positive).mpr ⟨⟨rfl, rfl, rfl, rfl⟩, counted⟩⟩
  · intro starts stop occupied total locates
    obtain ⟨⟨rfl, rfl, rfl, rfl⟩, _⟩ := (locates_iff positive).mp locates
    rw [extent]
    split_ifs with periodic
    · exact agrees_periodic periodic
    · exact agrees_single periodic positive

/-- Three training periods in a row, 1510 microseconds apart: the guard time and the protection
time of each end where the next one begins. -/
def trainingRow : Allocation :=
  { single ⟨0, 0, 4⟩ .servicePeriod false 200 500 with
    blocks := 3
    blockPeriod := 1510
    beamforming := some ⟨true, false⟩ }

theorem trainingRow_agrees :
    0 < trainingRow.blocks ∧
      trainingRow.Locates 10 [200, 1710, 3220] 3720 [⟨200, 1710⟩, ⟨1710, 3220⟩, ⟨3220, 4730⟩] 1500 ∧
      trainingRow.Agrees 1010 [200, 1710, 3220] 3720 [⟨200, 1710⟩, ⟨1710, 3220⟩, ⟨3220, 4730⟩]
        1500 ∧
      [⟨200, 1710⟩, ⟨1710, 3220⟩, ⟨3220, 4730⟩].Pairwise Interval.Disjoint := by
  have locates : trainingRow.Locates 10 [200, 1710, 3220] 3720
      [⟨200, 1710⟩, ⟨1710, 3220⟩, ⟨3220, 4730⟩] 1500 := ⟨rfl, rfl, rfl, rfl⟩
  have agrees := (geometry_agrees (a := trainingRow) (by decide)).2 _ _ _ _ locates
  exact ⟨by decide, locates, agrees, agrees.apart (.inl (by decide))⟩

end BeaconScheduler.Allocation
