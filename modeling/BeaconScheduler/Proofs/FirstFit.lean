import BeaconScheduler.Proofs.PeriodicGrants

/-!
# Single blocks, as early as they fit

A single block goes to the start of the first slot that is longer than the block with its guard
time.  In terms of free time that is the least offset from which one microsecond more is free
than the block needs (`firstFit?_eq_some_iff`), since slots do not touch: what is free without
a break lies in one slot.  For the same reason there is no such offset if no slot is long
enough, so a request is refused only where none could have been granted.
-/

set_option autoImplicit false

namespace BeaconScheduler

open Counter BeaconScheduler.Interval

namespace FreeSlots

variable {free after : FreeSlots} {slot : Interval} {before behind : List Interval}
  {needed start stop t : Nat}

/-! ## The least offset -/

/-- More than `needed` microseconds are free from `t` on exactly if one slot has them all. -/
theorem room_succ_iff (canonical : Canonical free.slots) :
    free.Room (needed + 1) t ↔ ∃ slot ∈ free.slots, slot.start ≤ t ∧ t + needed < slot.stop := by
  constructor
  · intro room
    obtain ⟨slot, member, first, last⟩ := room t (Nat.le_refl t) (by omega)
    have bound := (room_iff canonical member first last).mp room
    exact ⟨slot, member, first, by omega⟩
  · rintro ⟨slot, member, first, last⟩
    apply (room_iff canonical member first (by omega)).mpr
    omega

theorem firstFit?_eq_none_iff (canonical : Canonical free.slots) :
    free.firstFit? needed = none ↔ ∀ t, ¬ free.Room (needed + 1) t := by
  unfold firstFit?
  rw [Option.map_eq_none_iff, List.find?_eq_none]
  constructor
  · intro short t room
    obtain ⟨slot, member, first, last⟩ := (room_succ_iff canonical).mp room
    apply short slot member
    unfold Interval.length
    simp only [decide_eq_true_eq]
    omega
  · intro nowhere slot member long
    apply nowhere slot.start
    apply (room_succ_iff canonical).mpr
    unfold Interval.length at long
    simp only [decide_eq_true_eq] at long
    exact ⟨slot, member, Nat.le_refl _, by omega⟩

theorem isLeast_of_firstFit? (canonical : Canonical free.slots)
    (fits : free.firstFit? needed = some start) :
    IsLeast {t | free.Room (needed + 1) t} start := by
  obtain ⟨slot, found, rfl⟩ := Option.map_eq_some_iff.mp fits
  obtain ⟨long, before, behind, split, short⟩ := List.find?_eq_some_iff_append.mp found
  have long := of_decide_eq_true long
  unfold Interval.length at long
  have member : slot ∈ free.slots := List.mem_of_find?_eq_some found
  refine ⟨(room_succ_iff canonical).mpr ⟨slot, member, Nat.le_refl _, by omega⟩, ?_⟩
  intro t room
  obtain ⟨other, memberOther, first, last⟩ := (room_succ_iff canonical).mp room
  -- The slots before the first one that is long enough cannot hold the room.
  rw [split] at memberOther
  rcases List.mem_append.mp memberOther with earlier | rest
  · have tooShort := short other earlier
    simp only [Bool.not_eq_eq_eq_not, Bool.not_true] at tooShort
    have := of_decide_eq_false tooShort
    unfold Interval.length at this
    omega
  rcases List.mem_cons.mp rest with rfl | later
  · exact first
  · have apart := canonical.apart
    rw [split] at apart
    have ordered := (List.pairwise_cons.mp (List.pairwise_append.mp apart).2.1).1 other later
    omega

theorem firstFit?_eq_some_iff (canonical : Canonical free.slots) :
    free.firstFit? needed = some start ↔ IsLeast {t | free.Room (needed + 1) t} start := by
  constructor
  · exact isLeast_of_firstFit? canonical
  · intro least
    cases fits : free.firstFit? needed with
    | none => exact absurd least.1 ((firstFit?_eq_none_iff canonical).mp fits start)
    | some first => rw [(isLeast_of_firstFit? canonical fits).unique least]

/-! ## The claim at the start of a slot -/

theorem takeOut_of_start (canonical : Canonical (before ++ slot :: behind))
    (rest : stop < slot.stop) :
    takeOut slot.start stop (before ++ slot :: behind) =
      some (before ++ ⟨stop, slot.stop⟩ :: behind) := by
  induction before with
  | nil =>
      have nonempty := (canonical_cons.mp canonical).1
      rw [List.nil_append, takeOut, if_neg (by omega), if_pos ⟨Nat.le_refl _, by omega⟩]
      unfold Interval.without
      rw [if_neg (Nat.lt_irrefl _), if_pos rest]
      rfl
  | cons head others ih =>
      obtain ⟨_, ahead, canonicalOthers⟩ := canonical_cons.mp canonical
      have passed := ahead slot (List.mem_append_right _ List.mem_cons_self)
      rw [List.cons_append, takeOut, if_pos (Nat.le_of_lt passed), ih canonicalOthers]
      rfl

theorem length_of_claim_firstFit (canonical : Canonical free.slots)
    (fits : free.firstFit? needed = some start)
    (claimed : free.claim start (start + needed) = .ok after) :
    after.slots.length = free.slots.length := by
  obtain ⟨slot, member, rfl, room⟩ := firstFit?_eq_some fits
  obtain ⟨before, behind, split⟩ := List.append_of_mem member
  rw [split] at canonical
  have taken := takeOut_of_start canonical room
  unfold claim at claimed
  split_ifs at claimed with empty
  rw [split, taken] at claimed
  obtain rfl := Except.ok.inj claimed
  rw [split, List.length_append, List.length_append, List.length_cons, List.length_cons]

end FreeSlots

namespace Policy

variable {policy : Policy} {terms : Terms} {source : Aid} {spec : TrafficSpec}
  {air after : Airtime} {outcome : Outcome} {duration start : Nat}

/-- The answer that grants one block at `start`: one allocation is registered, and the block
with its guard time leaves the free time, which has as many slots as before. -/
structure GrantsBlock (terms : Terms) (source : Aid) (spec : TrafficSpec) (duration start : Nat)
    (air : Airtime) (outcome : Outcome) (after : Airtime) : Prop where
  accepted : outcome = .accepted start duration 1
  registered : after.registry = air.registry ++
    [{ key := spec.key source
       kind := spec.kind
       isStatic := spec.isStatic
       start
       blockDuration := duration
       blockPeriod := 0
       blocks := 1
       beamforming := none
       announced := false }]
  claimed : air.slots.Loses [⟨start, start + (duration + terms.guard)⟩] after.slots
  slotCount : after.slots.slots.length = air.slots.slots.length

theorem grantsBlock_of_adds (wellFormed : air.slots.WellFormed)
    (fits : air.slots.firstFit? (duration + terms.guard) = some start)
    (adds : air.Adds terms.guard (requested source spec start duration) after) :
    GrantsBlock terms source spec duration start air
      (.granted (requested source spec start duration)) after := by
  have claimed := adds.claimed
  rw [requested, Allocation.extent_single, Nat.add_assoc] at claimed
  refine ⟨rfl, adds.registered, FreeSlots.loses_of_claimEach wellFormed claimed, ?_⟩
  rw [FreeSlots.claimEach_singleton] at claimed
  exact FreeSlots.length_of_claim_firstFit wellFormed.canonical fits claimed

/-- A request for a single block gets its answer exactly if the length of the block with its
guard time can be counted.  It is granted the least offset from which more than that is free,
and refused exactly if there is none. -/
theorem single_block_admission (grants : policy ≠ .cbapOnly) (wellFormed : air.slots.WellFormed)
    (small : air.slots.dti < 2 ^ 32) (valid : spec.validate = .ok ()) (single : spec.period = 0)
    (desired : spec.desiredDuration = .ok duration) :
    (Ends (policy.grant terms source spec air).value ↔ duration + terms.guard < 2 ^ 32) ∧
    ∀ outcome after, (policy.grant terms source spec air).value = .ok (outcome, after) →
      ((∃ t, air.slots.Room (duration + terms.guard + 1) t) →
        ∃ start, IsLeast {t | air.slots.Room (duration + terms.guard + 1) t} start ∧
          GrantsBlock terms source spec duration start air outcome after) ∧
      ((∀ t, ¬ air.slots.Room (duration + terms.guard + 1) t) →
        outcome = .rejected .insufficientSpace ∧ after = air) := by
  have positive := desiredDuration_pos valid desired
  have notPeriodic : spec.isPeriodic = false := by
    simpa [TrafficSpec.isPeriodic] using single
  rw [grant_of_single grants notPeriodic desired]
  refine ⟨placeBlock_ends_iff wellFormed small positive, ?_⟩
  intro outcome after placed
  have counted := (placeBlock_ends_iff wellFormed small positive).mp ⟨_, placed⟩
  cases placeBlock_answers placed with
  | full nowhere =>
      have none := (FreeSlots.firstFit?_eq_none_iff wellFormed.canonical).mp nowhere
      refine ⟨?_, fun _ => ⟨rfl, rfl⟩⟩
      rintro ⟨t, room⟩
      exact absurd room (none t)
  | refused start e =>
      have settled : Settled (placeBlock terms source spec duration air).value :=
        placeBlock_settled wellFormed small positive counted
      exact absurd rfl (settled.not_refused placed e)
  | granted start after fits adds =>
      have least := (FreeSlots.firstFit?_eq_some_iff wellFormed.canonical).mp fits
      refine ⟨fun _ => ⟨start, least, grantsBlock_of_adds wellFormed fits adds⟩, ?_⟩
      intro nowhere
      exact absurd least.1 (nowhere start)

def contentionBlock (duration : Nat) : TrafficSpec :=
  ⟨6, .cbap, false, 255, .asynchronous, duration, duration, 0, false⟩

/-- With its guard time the first block has just the length of the first slot, so it goes to the
second one; the other has just the length of the last slot, which is the longest. -/
theorem exactFits_passed_over :
    (∃ after, (Policy.basic.grant ⟨⟨10, 4096, 255⟩, 102400⟩ 7 (contentionBlock 989)
        gappedAir).value = .ok (.accepted 2000 989 1, after) ∧
      IsLeast {t | gappedAir.slots.Room (989 + 10 + 1) t} 2000 ∧
      GrantsBlock ⟨⟨10, 4096, 255⟩, 102400⟩ 7 (contentionBlock 989) 989 2000 gappedAir
        (.accepted 2000 989 1) after) ∧
    (Policy.periodic.grant ⟨⟨10, 4096, 255⟩, 102400⟩ 7 (contentionBlock 51390) gappedAir).value =
        .ok (.rejected .insufficientSpace, gappedAir) ∧
      ∀ t, ¬ gappedAir.slots.Room (51390 + 10 + 1) t := by
  have wellFormed : gappedAir.slots.WellFormed := FreeSlots.threeSlots_wellFormed
  constructor
  · obtain ⟨after, granted⟩ : ∃ after, (Policy.basic.grant ⟨⟨10, 4096, 255⟩, 102400⟩ 7
        (contentionBlock 989) gappedAir).value = .ok (.accepted 2000 989 1, after) := ⟨_, rfl⟩
    have answers := (single_block_admission (by decide) wellFormed (by decide) (by decide)
      (by rfl) (by rfl)).2 _ after granted
    have room : gappedAir.slots.Room (989 + 10 + 1) 2000 :=
      (FreeSlots.room_succ_iff wellFormed.canonical).mpr
        ⟨⟨2000, 40000⟩, by decide, by decide, by decide⟩
    obtain ⟨start, least, grantsBlock⟩ := answers.1 ⟨2000, room⟩
    have same : start = 2000 := by
      have accepted := grantsBlock.accepted
      injection accepted with first
      exact first.symm
    subst same
    exact ⟨after, granted, least, grantsBlock⟩
  · have nowhere : ∀ t, ¬ gappedAir.slots.Room (51390 + 10 + 1) t :=
      (FreeSlots.firstFit?_eq_none_iff wellFormed.canonical).mp (by decide)
    obtain ⟨ends, answers⟩ := @single_block_admission .periodic ⟨⟨10, 4096, 255⟩, 102400⟩ 7
      (contentionBlock 51390) gappedAir 51390 (by decide) wellFormed (by decide) (by decide) rfl rfl
    obtain ⟨⟨outcome, after⟩, ended⟩ := ends.mpr (by decide)
    obtain ⟨rfl, rfl⟩ := (answers outcome after ended).2 nowhere
    exact ⟨ended, nowhere⟩

end Policy
end BeaconScheduler
