import BeaconScheduler.Airtime.Reservation
import BeaconScheduler.Proofs.FreeTime
import BeaconScheduler.Proofs.Occupation

/-!
# Reservations and returns

What the operations on airtime come to once the journal is forgotten. A reservation either
changes nothing or claims the extent of the allocation and registers it last
(`reserve_cases`); giving back an extent that lies in occupied time always succeeds and
adds exactly its coverage to the free slots (`giveBack_of_occupied`).
-/

set_option autoImplicit false

namespace BeaconScheduler

open Counter BeaconScheduler.Interval

namespace FreeSlots

variable {free after : FreeSlots} {list : List Interval}

def claimEach (free : FreeSlots) : List Interval → Except SlotError FreeSlots
  | [] => .ok free
  | i :: rest =>
      match free.claim i.start i.stop with
      | .ok after => claimEach after rest
      | .error e => .error e

theorem claimEach_singleton (free : FreeSlots) (i : Interval) :
    free.claimEach [i] = free.claim i.start i.stop := by
  rw [claimEach]
  cases free.claim i.start i.stop <;> rfl

theorem claimEach_cons_eq_ok {i : Interval} {rest : List Interval} :
    free.claimEach (i :: rest) = .ok after ↔
      ∃ middle, free.claim i.start i.stop = .ok middle ∧ middle.claimEach rest = .ok after := by
  rw [claimEach]
  cases free.claim i.start i.stop <;> simp

theorem claimEach_eq_ok (wellFormed : free.WellFormed) (claimed : free.claimEach list = .ok after) :
    (∀ i ∈ list, i.start < i.stop) ∧ after.WellFormed ∧ after.dti = free.dti ∧
      ∀ t, coverage free.slots t = coverage after.slots t + coverage list t := by
  induction list generalizing free with
  | nil =>
      obtain rfl := Except.ok.inj claimed
      exact ⟨by simp, wellFormed, rfl, by simp⟩
  | cons i rest ih =>
      obtain ⟨middle, first, claimedRest⟩ := claimEach_cons_eq_ok.mp claimed
      obtain ⟨nonempty, wellFormedMiddle, dtiMiddle, covered⟩ := claim_eq_ok wellFormed first
      obtain ⟨nonemptyRest, wellFormedAfter, dtiAfter, coveredRest⟩ :=
        ih wellFormedMiddle claimedRest
      refine ⟨List.forall_mem_cons.mpr ⟨nonempty, nonemptyRest⟩, wellFormedAfter,
        dtiAfter.trans dtiMiddle, fun t => ?_⟩
      rw [covered t, coveredRest t, coverage_cons i rest, coverage_singleton]
      dsimp only
      omega

end FreeSlots

namespace Airtime

variable {terms : Terms} {a : Allocation} {air after : Airtime}

@[simp] theorem value_claimAll (free : FreeSlots) (list : List Interval) :
    (claimAll free list).value = .ok (free.claimEach list) := by
  induction list generalizing free with
  | nil => rfl
  | cons i rest ih =>
      rw [claimAll, FreeSlots.claimEach, Noted.value_bind, value_claimSlot, ok_bind]
      cases free.claim i.start i.stop with
      | ok middle => exact ih middle
      | error e => rfl

theorem value_register (registry : Registry) (a : Allocation) :
    (register registry a).value = do return (← a.stop, registry ++ [a]) := by
  simp only [register, Noted.value_bind, Noted.value_lift, Noted.value_note, Noted.value_pure,
    ok_bind]
  rfl

/-- The airtime with `a` registered last and its extent claimed. -/
structure Adds (guard : Nat) (a : Allocation) (air after : Airtime) : Prop where
  fits : a.Fits guard
  claimed : air.slots.claimEach (a.extent guard) = .ok after.slots
  registered : after.registry = air.registry ++ [a]

theorem reserve_claims {result : Except SlotError Nat}
    (reserved : (air.reserve terms a).value = .ok (result, after)) :
    (∀ e, air.slots.claimEach (a.extent terms.guard) = .error e →
      result = .error e ∧ after = air) ∧
    ∀ slots, air.slots.claimEach (a.extent terms.guard) = .ok slots →
      (∃ stop, result = .ok stop) ∧ Adds terms.guard a air after := by
  simp only [reserve, Noted.value_bind, Noted.value_lift, value_claimAll, bind_eq_ok_iff,
    Except.ok.injEq] at reserved
  obtain ⟨intervals, occupied, claimed, rfl, rest⟩ := reserved
  obtain ⟨rfl, fits⟩ := Allocation.occupied_eq_ok_iff.mp occupied
  cases claims : air.slots.claimEach (a.extent terms.guard) with
  | error e =>
      simp only [claims, Noted.value_pure, Except.ok.injEq, Prod.mk.injEq] at rest
      obtain ⟨rfl, rfl⟩ := rest
      exact ⟨by simp, by simp⟩
  | ok slots =>
      simp only [claims, Noted.value_bind, value_register, bind_eq_ok_iff, pure_eq_ok_iff,
        Noted.value_pure, Except.ok.injEq] at rest
      obtain ⟨_, ⟨stop, _, rfl⟩, joined⟩ := rest
      obtain ⟨rfl, rfl⟩ := Prod.mk.inj joined
      exact ⟨by simp, fun _ _ => ⟨⟨stop, rfl⟩, fits, claims, rfl⟩⟩

theorem reserve_cases {result : Except SlotError Nat}
    (reserved : (air.reserve terms a).value = .ok (result, after)) :
    (∃ e, result = .error e ∧ after = air) ∨
      ((∃ stop, result = .ok stop) ∧ Adds terms.guard a air after) := by
  obtain ⟨refused, granted⟩ := reserve_claims reserved
  cases claims : air.slots.claimEach (a.extent terms.guard) with
  | error e => exact Or.inl ⟨e, refused e claims⟩
  | ok slots => exact Or.inr (granted slots claims)

theorem value_reserve {stop : Nat} (fits : a.Fits terms.guard) (counted : a.stop = .ok stop) :
    (air.reserve terms a).value =
      .ok (match air.slots.claimEach (a.extent terms.guard) with
        | .error e => (.error e, air)
        | .ok slots => (.ok stop, ⟨air.registry ++ [a], slots⟩)) := by
  have occupied := Allocation.occupied_eq_ok_iff.mpr ⟨rfl, fits⟩
  simp only [reserve, Noted.value_bind, Noted.value_lift, value_claimAll, occupied, ok_bind]
  cases air.slots.claimEach (a.extent terms.guard) with
  | error e => rfl
  | ok slots =>
      simp only [Noted.value_bind, value_register, counted, ok_bind]
      rfl

def wholeDti (terms : Terms) (key : Allocation.Key) (dti : Nat) : Allocation :=
  { Allocation.single key .servicePeriod true 0 ((dti - terms.guard) / terms.maxBlocks) with
    blocks := terms.maxBlocks }

theorem reserveWholeDti_cases {key : Allocation.Key} {result : Except SlotError Nat}
    (reserved : (air.reserveWholeDti terms key).value = .ok (result, after)) :
    (∃ e, result = .error e ∧ after = air) ∨
      ((∃ stop, result = .ok stop) ∧
        Adds terms.guard (wholeDti terms key air.slots.dti) air after) := by
  simp only [reserveWholeDti, Noted.value_bind, Noted.value_lift, bind_eq_ok_iff,
    div_eq_ok_iff] at reserved
  obtain ⟨duration, ⟨_, rfl⟩, reserved⟩ := reserved
  split_ifs at reserved with none
  · simp only [Noted.value_pure, Except.ok.injEq, Prod.mk.injEq] at reserved
    exact Or.inl ⟨_, reserved.1.symm, reserved.2.symm⟩
  · exact reserve_cases reserved

def training (source dest : Aid) (start duration : Nat) (beamforming : Allocation.Beamforming) :
    Allocation :=
  { Allocation.single ⟨0, source, dest⟩ .servicePeriod false start duration with
    beamforming := some beamforming }

theorem reserveTraining_cases {source dest : Aid} {duration : Nat}
    {beamforming : Allocation.Beamforming} {result : Except SlotError Nat}
    (reserved : (air.reserveTraining terms source dest duration beamforming).value =
      .ok (result, after)) :
    (∃ e, result = .error e ∧ after = air) ∨
      ∃ start, result = .ok start ∧
        Adds terms.guard (training source dest start duration beamforming) air after := by
  simp only [reserveTraining, Noted.value_bind, Noted.value_lift, bind_eq_ok_iff] at reserved
  obtain ⟨_, _, needed, _, reserved⟩ := reserved
  cases room : air.slots.firstFit? needed with
  | none =>
      simp only [room, Noted.value_pure, Except.ok.injEq, Prod.mk.injEq] at reserved
      exact Or.inl ⟨_, reserved.1.symm, reserved.2.symm⟩
  | some start =>
      simp only [room, Noted.value_bind, bind_eq_ok_iff] at reserved
      obtain ⟨⟨placed, middle⟩, reserves, reserved⟩ := reserved
      rcases reserve_cases reserves with ⟨e, rfl, rfl⟩ | ⟨⟨stop, rfl⟩, adds⟩
      · simp only [Noted.value_pure, Except.ok.injEq, Prod.mk.injEq] at reserved
        exact Or.inl ⟨_, reserved.1.symm, reserved.2.symm⟩
      · simp only [Noted.value_bind, Noted.value_note, ok_bind, Noted.value_pure,
          Except.ok.injEq, Prod.mk.injEq] at reserved
        obtain ⟨rfl, rfl⟩ := reserved
        exact Or.inr ⟨start, rfl, adds⟩

/-! ## Returns -/

theorem releaseAll_of_occupied {free : FreeSlots} {list : List Interval}
    (wellFormed : free.WellFormed) (nonempty : ∀ i ∈ list, i.start < i.stop)
    (inside : ∀ i ∈ list, i.stop ≤ free.dti)
    (apart : ∀ t, coverage free.slots t + coverage list t ≤ 1) :
    ∃ after : FreeSlots, (releaseAll free list).value = .ok (.ok (), after) ∧
      after.WellFormed ∧ after.dti = free.dti ∧
      ∀ t, coverage after.slots t = coverage free.slots t + coverage list t := by
  induction list generalizing free with
  | nil => exact ⟨free, rfl, wellFormed, rfl, by simp⟩
  | cons i rest ih =>
      obtain ⟨own, nonemptyRest⟩ := List.forall_mem_cons.mp nonempty
      obtain ⟨bound, insideRest⟩ := List.forall_mem_cons.mp inside
      have occupied : ∀ t, i.start ≤ t → t < i.stop → coverage free.slots t = 0 := by
        intro t first last
        have := apart t
        rw [coverage_cons, if_pos ⟨first, last⟩] at this
        omega
      obtain ⟨middle, released⟩ :=
        FreeSlots.release_of_occupied wellFormed own bound occupied
      obtain ⟨_, wellFormedMiddle, dtiMiddle, covered⟩ :=
        FreeSlots.release_eq_ok wellFormed released
      have apartRest : ∀ t, coverage middle.slots t + coverage rest t ≤ 1 := by
        intro t
        have := apart t
        rw [coverage_cons] at this
        rw [covered t, coverage_singleton]
        dsimp only
        omega
      obtain ⟨after, releasedRest, wellFormedAfter, dtiAfter, coveredRest⟩ :=
        ih wellFormedMiddle nonemptyRest (dtiMiddle ▸ insideRest) apartRest
      refine ⟨after, ?_, wellFormedAfter, dtiAfter.trans dtiMiddle, fun t => ?_⟩
      · rw [releaseAll, Nat.min_eq_left bound, if_pos own, Noted.value_bind, value_releaseSlot,
          released, ok_bind]
        exact releasedRest
      · rw [coveredRest t, covered t, coverage_cons i rest, coverage_singleton]
        dsimp only
        omega

theorem giveBack_of_occupied (fits : a.Fits terms.guard) (wellFormed : air.slots.WellFormed)
    (nonempty : ∀ i ∈ a.extent terms.guard, i.start < i.stop)
    (inside : ∀ i ∈ a.extent terms.guard, i.stop ≤ air.slots.dti)
    (apart : ∀ t, coverage air.slots.slots t + coverage (a.extent terms.guard) t ≤ 1) :
    ∃ slots : FreeSlots, (air.giveBack terms a).value = .ok (.ok (), { air with slots }) ∧
      slots.WellFormed ∧ slots.dti = air.slots.dti ∧
      ∀ t, coverage slots.slots t =
        coverage air.slots.slots t + coverage (a.extent terms.guard) t := by
  obtain ⟨slots, released, spec⟩ := releaseAll_of_occupied wellFormed nonempty inside apart
  have occupied := Allocation.occupied_eq_ok_iff.mpr ⟨rfl, fits⟩
  refine ⟨slots, ?_, spec⟩
  simp only [giveBack, Noted.value_bind, Noted.value_lift, occupied, ok_bind, released]
  rfl

end Airtime
end BeaconScheduler
