import BeaconScheduler.Proofs.Boundary
import BeaconScheduler.Proofs.Exchange
import BeaconScheduler.Proofs.Geometry
import Mathlib.Algebra.BigOperators.Group.Finset.Piecewise
import Mathlib.Order.Interval.Finset.Nat

/-!
# One service period for the whole DTI

The DTI less the guard time is divided into equal blocks, and the division is rounded down.
What is claimed therefore stops short of the end of the DTI by the remainder, and nobody looks at
those microseconds: an allocation that ends with the DTI and needs no more than the remainder
stays unnoticed (`wholeDti_granted_iff`).  Free and occupied time add up to the DTI
(`Tiling.freeTime_add`), so no more than the remainder is left.
-/

set_option autoImplicit false

namespace BeaconScheduler

open Counter

/-! ## Lengths and microseconds -/

namespace Interval

variable {list : List Interval} {n : Nat}

theorem sum_coverage_singleton {i : Interval} (inside : i.stop ≤ n) :
    ∑ t ∈ Finset.range n, coverage [i] t = i.length := by
  have held : (Finset.range n).filter (fun t => i.start ≤ t ∧ t < i.stop) =
      Finset.Ico i.start i.stop := by
    ext t
    simp only [Finset.mem_filter, Finset.mem_range, Finset.mem_Ico]
    omega
  simp only [coverage_singleton]
  rw [← Finset.card_filter, held, Nat.card_Ico, Interval.length]

theorem sum_coverage (inside : ∀ i ∈ list, i.stop ≤ n) :
    ∑ t ∈ Finset.range n, coverage list t = (list.map Interval.length).sum := by
  induction list with
  | nil => simp
  | cons i rest ih =>
      obtain ⟨own, others⟩ := List.forall_mem_cons.mp inside
      have split : ∀ t, coverage (i :: rest) t = coverage [i] t + coverage rest t := fun t =>
        coverage_append [i] rest t
      simp only [split, Finset.sum_add_distrib]
      rw [sum_coverage_singleton own, ih others, List.map_cons, List.sum_cons]

end Interval

theorem Tiling.freeTime_add {guard dti : Nat} {free : FreeSlots} {holders : Registry}
    (tiling : Tiling guard dti free holders) :
    free.freeTime + ((Registry.extent guard holders).map Interval.length).sum = dti := by
  have slots : ∀ i ∈ free.slots, i.stop ≤ dti := fun i member =>
    tiling.length ▸ tiling.wellFormed.inside i member
  calc free.freeTime + ((Registry.extent guard holders).map Interval.length).sum
      = ∑ t ∈ Finset.range dti,
          (Interval.coverage free.slots t +
            Interval.coverage (Registry.extent guard holders) t) := by
        rw [Finset.sum_add_distrib, Interval.sum_coverage slots,
          Interval.sum_coverage tiling.inside]
        rfl
    _ = ∑ _t ∈ Finset.range dti, 1 :=
        Finset.sum_congr rfl fun t member => by
          rw [tiling.once t, if_pos (Finset.mem_range.mp member)]
    _ = dti := by
        rw [Finset.sum_const, Finset.card_range, Nat.nsmul_eq_mul, Nat.mul_one]

/-! ## The division -/

namespace Terms

variable {terms : Terms} {dti : Nat}

/-- The length of each of the blocks that a DTI is divided into. -/
def share (terms : Terms) (dti : Nat) : Nat :=
  (dti - terms.guard) / terms.maxBlocks

def remainder (terms : Terms) (dti : Nat) : Nat :=
  (dti - terms.guard) % terms.maxBlocks

theorem remainder_lt (several : 0 < terms.maxBlocks) : terms.remainder dti < terms.maxBlocks :=
  Nat.mod_lt _ several

/-- With blocks of any length, their sum, guard time and remainder make up the DTI. -/
theorem division (divided : 0 < terms.share dti) :
    terms.share dti * terms.maxBlocks + terms.guard + terms.remainder dti = dti := by
  have sum : terms.maxBlocks * terms.share dti + terms.remainder dti = dti - terms.guard :=
    Nat.div_add_mod _ _
  have enough : 0 < dti - terms.guard := by
    by_contra short
    rw [share, Nat.eq_zero_of_not_pos short, Nat.zero_div] at divided
    omega
  rw [Nat.mul_comm] at sum
  omega

end Terms

namespace Airtime

variable {terms : Terms} {air after : Airtime} {dti stop : Nat} {occupied : List Interval}

theorem wholeDti_contiguous (key : Allocation.Key) :
    ¬ (wholeDti terms key dti).isPeriodic = true := fun periodic =>
  absurd (Allocation.isPeriodic_iff.mp periodic).2 (Nat.lt_irrefl 0)

theorem extent_wholeDti (key : Allocation.Key) (divided : 0 < terms.share dti) :
    (wholeDti terms key dti).extent terms.guard = [⟨0, dti - terms.remainder dti⟩] := by
  have sum := terms.division divided
  rw [Allocation.extent, if_neg (wholeDti_contiguous key), Allocation.spanExtent]
  congr 2
  change 0 + terms.share dti * terms.maxBlocks + terms.guard = _
  omega

theorem startOf_wholeDti (key : Allocation.Key) (i : Nat) :
    (wholeDti terms key dti).startOf i = i * terms.share dti :=
  Nat.zero_add _

theorem lastStop_wholeDti (key : Allocation.Key) (several : 0 < terms.maxBlocks) :
    (wholeDti terms key dti).lastStop = terms.share dti * terms.maxBlocks :=
  (Allocation.lastStop_of_single (wholeDti_contiguous key) several).trans (Nat.zero_add _)

theorem blockStarts_wholeDti (key : Allocation.Key) (small : dti < 2 ^ 32)
    (divided : 0 < terms.share dti) :
    (wholeDti terms key dti).blockStarts =
      .ok ((List.range terms.maxBlocks).map (· * terms.share dti)) := by
  have sum := terms.division divided
  refine Allocation.blockStarts_eq_ok_iff.mpr ⟨?_, fun i block => ?_⟩
  · exact List.map_congr_left fun i _ => (startOf_wholeDti key i).symm
  · have before : i * terms.share dti ≤ terms.maxBlocks * terms.share dti :=
      Nat.mul_le_mul_right (terms.share dti) (Nat.le_of_lt block)
    rw [Nat.mul_comm terms.maxBlocks] at before
    rw [startOf_wholeDti]
    omega

/-! ## The reservation -/

theorem value_reserveWholeDti (key : Allocation.Key) (length : air.slots.dti = dti)
    (several : 0 < terms.maxBlocks) :
    (air.reserveWholeDti terms key).value =
      if terms.share dti = 0 then .ok (.error (.emptyInterval 0 dti), air)
      else (air.reserve terms (wholeDti terms key dti)).value := by
  have duration : div (air.slots.dti - terms.guard) terms.maxBlocks = .ok (terms.share dti) :=
    div_eq_ok_iff.mpr ⟨by omega, by rw [length, Terms.share]⟩
  rw [reserveWholeDti, Noted.value_bind, Noted.value_lift, duration, ok_bind, length]
  split_ifs <;> rfl

theorem value_reserveWholeDti_of_divided (key : Allocation.Key)
    (length : air.slots.dti = dti) (several : 0 < terms.maxBlocks) (small : dti < 2 ^ 32)
    (divided : 0 < terms.share dti) :
    (air.reserveWholeDti terms key).value =
      .ok (match air.slots.claim 0 (dti - terms.remainder dti) with
        | .error e => (.error e, air)
        | .ok slots => (.ok (terms.share dti * terms.maxBlocks),
            ⟨air.registry ++ [wholeDti terms key dti], slots⟩)) := by
  have sum := terms.division divided
  have extent := extent_wholeDti key divided
  have fits : (wholeDti terms key dti).Fits terms.guard := by
    rw [Allocation.Fits, extent, List.forall_mem_singleton]
    dsimp only
    omega
  have counted : (wholeDti terms key dti).stop = .ok (terms.share dti * terms.maxBlocks) := by
    rw [Allocation.stop_eq_ok_iff several, lastStop_wholeDti key several]
    exact ⟨rfl, by omega⟩
  have claims : (air.reserve terms (wholeDti terms key dti)).value = _ := value_reserve fits counted
  rw [extent, FreeSlots.claimEach_singleton] at claims
  rw [value_reserveWholeDti key length several, if_neg (by omega)]
  exact claims

theorem reserveWholeDti_places {key : Allocation.Key} {result : Except SlotError Nat}
    (wellFormed : air.slots.WellFormed)
    (reserved : (air.reserveWholeDti terms key).value = .ok (result, after)) :
    (after = air ∧ (terms.share air.slots.dti = 0 ∨
      ∃ t, t + terms.remainder air.slots.dti < air.slots.dti ∧ ¬ air.slots.Free t)) ∨
    ((∀ t, t + terms.remainder air.slots.dti < air.slots.dti → air.slots.Free t) ∧
      Adds terms.guard (wholeDti terms key air.slots.dti) air after) := by
  have several : 0 < terms.maxBlocks := by
    simp only [reserveWholeDti, Noted.value_bind, Noted.value_lift, bind_eq_ok_iff,
      div_eq_ok_iff] at reserved
    obtain ⟨_, ⟨divisible, _⟩, _⟩ := reserved
    omega
  rw [value_reserveWholeDti key rfl several] at reserved
  split_ifs at reserved with short
  · obtain ⟨_, rfl⟩ := Prod.mk.inj (Except.ok.inj reserved)
    exact .inl ⟨rfl, .inl short⟩
  have divided : 0 < terms.share air.slots.dti := Nat.pos_of_ne_zero short
  have sum := terms.division divided
  have claims := reserve_claims reserved
  rw [extent_wholeDti key divided, FreeSlots.claimEach_singleton] at claims
  have succeeds : (∃ slots, air.slots.claim 0 (air.slots.dti - terms.remainder air.slots.dti) =
      .ok slots) ↔ _ := FreeSlots.claim_succeeds_iff wellFormed
  cases claimed : air.slots.claim 0 (air.slots.dti - terms.remainder air.slots.dti) with
  | error e =>
      refine .inl ⟨(claims.1 e claimed).2, .inr ?_⟩
      by_contra isFree
      push Not at isFree
      have positive := Nat.mul_pos divided several
      obtain ⟨slots, same⟩ := succeeds.mpr ⟨by omega, fun t _ last => isFree t (by omega)⟩
      rw [claimed] at same
      cases same
  | ok slots =>
      obtain ⟨_, isFree⟩ := succeeds.mp ⟨slots, claimed⟩
      exact .inr ⟨fun t inside => isFree t (Nat.zero_le t) (by omega), (claims.2 slots claimed).2⟩

/-- A DTI after one service period has taken all that the division made into blocks. -/
structure HandsOver (terms : Terms) (key : Allocation.Key) (dti : Nat) (occupied : List Interval)
    (stop : Nat) (air after : Airtime) : Prop where
  stop : stop = terms.share dti * terms.maxBlocks
  registered : after.registry = air.registry ++ [wholeDti terms key dti]
  blocks : (wholeDti terms key dti).blockStarts =
    .ok ((List.range terms.maxBlocks).map (· * terms.share dti))
  divides : after.Divides terms.guard dti (occupied ++ [⟨0, dti - terms.remainder dti⟩])
  /-- Of the remainder, what was occupied before still is, and all else is free. -/
  left : ∃ left, after.slots.totalFree = .ok left ∧ left < terms.maxBlocks ∧
    left + (occupied.map Interval.length).sum = terms.remainder dti

theorem handsOver_of_claim (key : Allocation.Key)
    (divides : air.Divides terms.guard dti occupied)
    (several : 0 < terms.maxBlocks) (small : dti < 2 ^ 32) (divided : 0 < terms.share dti)
    {slots : FreeSlots} (claimed : air.slots.claim 0 (dti - terms.remainder dti) = .ok slots) :
    HandsOver terms key dti occupied (terms.share dti * terms.maxBlocks) air
      ⟨air.registry ++ [wholeDti terms key dti], slots⟩ := by
  have sum := terms.division divided
  have reserved := value_reserveWholeDti_of_divided key divides.length several small divided
  rw [claimed] at reserved
  have tiled := divides.tiled.reserveWholeDti terms reserved
  obtain ⟨total, counted⟩ :=
    FreeSlots.totalFree_ends tiled.wellFormed (by have := tiled.length; omega)
  obtain ⟨before, _⟩ := Registry.occupied_eq_ok_iff.mp divides.occupies
  have extent : Registry.extent terms.guard (air.registry ++ [wholeDti terms key dti]) =
      occupied ++ [⟨0, dti - terms.remainder dti⟩] := by
    rw [Registry.extent_append, Registry.extent_cons, extent_wholeDti key divided, before,
      Registry.extent_nil, List.append_nil]
  refine ⟨rfl, rfl, blockStarts_wholeDti key small divided, ?_, total, counted, ?_⟩
  · obtain ⟨all, divided⟩ := tiled.divides
    obtain ⟨same, _⟩ := Registry.occupied_eq_ok_iff.mp divided.occupies
    rwa [same, extent] at divided
  · have whole := Tiling.freeTime_add tiled
    dsimp only at whole
    rw [extent, List.map_append, List.sum_append, List.map_singleton, List.sum_singleton,
      Interval.length, ← FreeSlots.totalFree_eq_ok counted] at whole
    dsimp only at whole
    have : terms.remainder dti < terms.maxBlocks := Terms.remainder_lt several
    omega

/-- The request for the whole DTI is always answered.  It is granted exactly if the blocks have a
length and every microsecond in front of the remainder is free. -/
theorem wholeDti_granted_iff (divides : air.Divides terms.guard dti occupied)
    (several : 0 < terms.maxBlocks) (small : dti < 2 ^ 32) (key : Allocation.Key) :
    ∃ result after, (air.reserveWholeDti terms key).value = .ok (result, after) ∧
      ((∃ stop, result = .ok stop) ↔
        0 < terms.share dti ∧ ∀ t, t + terms.remainder dti < dti → air.slots.Free t) ∧
      (∀ stop, result = .ok stop → HandsOver terms key dti occupied stop air after) ∧
      ∀ e, result = .error e → after = air ∧
        e = if terms.share dti = 0 then .emptyInterval 0 dti
          else .notFree 0 (dti - terms.remainder dti) := by
  rcases Nat.eq_zero_or_pos (terms.share dti) with short | divided
  · refine ⟨.error (.emptyInterval 0 dti), air, ?_, ?_, ?_, ?_⟩
    · rw [value_reserveWholeDti key divides.length several, if_pos short]
    · simp [short]
    · intro stop granted
      cases granted
    · intro e refused
      obtain rfl := Except.error.inj refused
      exact ⟨rfl, (if_pos short).symm⟩
  have sum := terms.division divided
  have reserved := value_reserveWholeDti_of_divided key divides.length several small divided
  have positive := Nat.mul_pos divided several
  -- The claim ends where the remainder begins, so what lies behind that is not looked at.
  by_cases isFree : ∀ t, t + terms.remainder dti < dti → air.slots.Free t
  · obtain ⟨slots, claimed⟩ := (FreeSlots.claim_succeeds_iff divides.slots).mpr
      ⟨(by omega : 0 < dti - terms.remainder dti), fun t _ last => isFree t (by omega)⟩
    rw [claimed] at reserved
    refine ⟨_, _, reserved, iff_of_true ⟨_, rfl⟩ ⟨divided, isFree⟩, ?_, ?_⟩
    · intro stop granted
      obtain rfl := Except.ok.inj granted
      exact handsOver_of_claim key divides several small divided claimed
    · intro e refused
      cases refused
  · obtain ⟨t, first, taken⟩ : ∃ t, t + terms.remainder dti < dti ∧ ¬ air.slots.Free t := by
      simpa using isFree
    have refused := FreeSlots.claim_of_occupied divides.slots
      (by omega : 0 < dti - terms.remainder dti) (Nat.zero_le t) (by omega) taken
    rw [refused] at reserved
    refine ⟨_, _, reserved, iff_of_false (by simp) fun granted => isFree granted.2, ?_, ?_⟩
    · intro stop granted
      cases granted
    · intro e reason
      obtain rfl := Except.error.inj reason
      exact ⟨rfl, (if_neg (by omega)).symm⟩

/-! ## A block in the remainder -/

def manyBlocks : Terms where
  guard := 10
  minBroadcastCbap := 4096
  maxBlocks := 255
  interval := 102400

/-- A DTI of 101400 microseconds in which a service period lasts from 101300 to 101350. -/
def lateBlock : Airtime :=
  ⟨[Allocation.single ⟨1, 0, 4⟩ .servicePeriod true 101300 50],
    ⟨101400, [⟨0, 101300⟩, ⟨101360, 101400⟩]⟩⟩

theorem lateBlock_divides :
    lateBlock.Divides manyBlocks.guard 101400 [⟨101300, 101360⟩] := by
  have reserved : ((Airtime.mk [] (.whole 101400)).reserve manyBlocks
      (Allocation.single ⟨1, 0, 4⟩ .servicePeriod true 101300 50)).value =
        .ok (.ok 101350, lateBlock) := rfl
  have whole : (Airtime.mk [] (.whole 101400)).Tiled manyBlocks.guard 101400 := Tiling.whole _ _
  obtain ⟨occupied, divides⟩ := (whole.reserve manyBlocks reserved).divides
  have occupies : Registry.occupied manyBlocks.guard lateBlock.registry =
      .ok [⟨101300, 101360⟩] := rfl
  obtain rfl := Except.ok.inj (divides.occupies.symm.trans occupies)
  exact divides

theorem lateBlock_granted :
    lateBlock.Divides manyBlocks.guard 101400 [⟨101300, 101360⟩] ∧ 0 < manyBlocks.maxBlocks ∧
      101400 < 2 ^ 32 ∧ ∃ after,
        (lateBlock.reserveWholeDti manyBlocks ⟨2, 0, 5⟩).value = .ok (.ok 101235, after) ∧
        HandsOver manyBlocks ⟨2, 0, 5⟩ 101400 [⟨101300, 101360⟩] 101235 lateBlock after ∧
        after.slots.totalFree = .ok 95 := by
  obtain ⟨_, _, reserved, _, handsOver, _⟩ :=
    wholeDti_granted_iff lateBlock_divides (by decide : 0 < manyBlocks.maxBlocks) (by decide)
      ⟨2, 0, 5⟩
  have value : (lateBlock.reserveWholeDti manyBlocks ⟨2, 0, 5⟩).value = .ok (.ok 101235,
      ⟨lateBlock.registry ++ [wholeDti manyBlocks ⟨2, 0, 5⟩ 101400],
        ⟨101400, [⟨101245, 101300⟩, ⟨101360, 101400⟩]⟩⟩) := rfl
  obtain ⟨rfl, rfl⟩ := Prod.mk.inj (Except.ok.inj (reserved.symm.trans value))
  exact ⟨lateBlock_divides, by decide, by decide, _, value, handsOver _ rfl, rfl⟩

theorem granted_beside_block : ¬ ∀ (terms : Terms) (air after : Airtime) (dti stop : Nat)
    (occupied : List Interval) (key : Allocation.Key), air.Divides terms.guard dti occupied →
      0 < terms.maxBlocks → dti < 2 ^ 32 →
      (air.reserveWholeDti terms key).value = .ok (.ok stop, after) →
      ∀ t < dti, air.slots.Free t := by
  intro onlyFree
  obtain ⟨slot, member, first, last⟩ := onlyFree manyBlocks lateBlock _ 101400 101235 _ ⟨2, 0, 5⟩
    lateBlock_divides (by decide) (by decide) rfl 101300 (by decide)
  simp only [lateBlock, List.mem_cons, List.not_mem_nil, or_false] at member
  rcases member with rfl | rfl
  · exact absurd last (Nat.lt_irrefl 101300)
  · exact absurd first (by decide)

end Airtime
end BeaconScheduler
