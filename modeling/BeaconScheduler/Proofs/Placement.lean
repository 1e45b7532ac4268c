import BeaconScheduler.Admission.Decision
import BeaconScheduler.Proofs.Reservation

/-!
# Placement of new allocations

The policies look for offsets and claim them.  A placement that is granted adds one
allocation of the requested shape (`grant_cases`); a rejection leaves the airtime as it was,
also when only some of the blocks could be claimed.
-/

set_option autoImplicit false

namespace BeaconScheduler

open Counter BeaconScheduler.Interval

namespace FreeSlots

variable {free : FreeSlots} {offsets : List Nat} {duration spacing guard : Nat}

theorem occurrences_eq_ok {needed count t : Nat} {slot : Interval}
    (found : free.occurrences needed spacing count slot t = .ok offsets) :
    offsets = List.range' t offsets.length spacing := by
  induction count generalizing slot t offsets with
  | zero =>
      obtain rfl := Except.ok.inj found
      rfl
  | succ count ih =>
      have step : ∀ {slot next}, t + spacing = next → ∀ {rest : List Nat},
          free.occurrences needed spacing count slot next = .ok rest →
            t :: rest = List.range' t (t :: rest).length spacing := by
        rintro slot _ rfl rest others
        rw [List.length_cons, List.range'_succ, ← ih others]
      rw [occurrences, bind_eq_ok_iff] at found
      obtain ⟨stop, _, found⟩ := found
      split_ifs at found with short
      · obtain rfl := Except.ok.inj found
        rfl
      · obtain ⟨next, follows, found⟩ := bind_eq_ok_iff.mp found
        have follows := (add_eq_ok_iff.mp follows).2
        split_ifs at found with same
        · obtain ⟨rest, others, joined⟩ := bind_eq_ok_iff.mp found
          obtain rfl := pure_eq_ok_iff.mp joined
          exact step follows others
        · split at found
          · obtain ⟨rest, others, joined⟩ := bind_eq_ok_iff.mp found
            obtain rfl := pure_eq_ok_iff.mp joined
            exact step follows others
          · obtain rfl := pure_eq_ok_iff.mp found
            rfl

theorem periodicOffsets_eq_ok {maxBlocks start : Nat} {rest : List Nat}
    (found : free.periodicOffsets duration spacing guard maxBlocks = .ok (start :: rest)) :
    0 < spacing ∧ start :: rest = List.range' start (rest.length + 1) spacing := by
  unfold periodicOffsets at found
  split_ifs at found with empty none
  · simp at found
  · obtain ⟨needed, _, found⟩ := bind_eq_ok_iff.mp found
    simp [pure_eq_ok_iff] at found
  · obtain ⟨needed, _, found⟩ := bind_eq_ok_iff.mp found
    obtain ⟨room, _, found⟩ := bind_eq_ok_iff.mp found
    have positive : 0 < spacing := by
      simp at empty
      omega
    cases room with
    | none => simp [pure_eq_ok_iff] at found
    | some slot =>
        have equidistant := occurrences_eq_ok found
        have first : start = slot.start := by
          rw [List.length_cons, List.range'_succ] at equidistant
          exact (List.cons.inj equidistant).1
        rw [← first] at equidistant
        exact ⟨positive, equidistant⟩

end FreeSlots

theorem Noted.lift_ok_bind {α β : Type} (a : α) (f : α → Noted β) :
    (liftM (Except.ok a : Except Fault α) : Noted α) >>= f = f a := rfl

namespace Policy

variable {terms : Terms} {source : Aid} {spec : TrafficSpec} {air after : Airtime}
  {outcome : Outcome}

theorem desiredDuration_pos {duration : Nat} (valid : spec.validate = .ok ())
    (desired : spec.desiredDuration = .ok duration) : 0 < duration := by
  unfold TrafficSpec.validate at valid
  split_ifs at valid with zero above
  unfold TrafficSpec.desiredDuration at desired
  cases format : spec.format with
  | asynchronous =>
      simp only [format, Except.ok.injEq] at desired
      omega
  | isochronous =>
      simp only [format, bind_eq_ok_iff, add_eq_ok_iff, pure_eq_ok_iff] at desired
      obtain ⟨_, ⟨_, rfl⟩, rfl⟩ := desired
      omega

/-! ## New allocations -/

@[simp] theorem value_findOffsets (terms : Terms) (free : FreeSlots) (duration spacing : Nat) :
    (findOffsets terms free duration spacing).value =
      free.periodicOffsets duration spacing terms.guard terms.maxBlocks := by
  unfold findOffsets
  cases free.periodicOffsets duration spacing terms.guard terms.maxBlocks with
  | error fault => simp
  | ok offsets =>
      simp only [Noted.value_bind, Noted.value_lift, ok_bind]
      split_ifs <;> rfl

theorem claimBlocks_eq_ok {duration guard : Nat} {free left : FreeSlots} {offsets : List Nat}
    (claimed : (claimBlocks duration guard free offsets).value = .ok (.ok left)) :
    (∀ start ∈ offsets, start + duration + guard < 2 ^ 32) ∧
      free.claimEach (offsets.map fun start => ⟨start, start + duration + guard⟩) = .ok left := by
  induction offsets generalizing free with
  | nil =>
      obtain rfl := Except.ok.inj (Except.ok.inj claimed)
      exact ⟨by simp, rfl⟩
  | cons start rest ih =>
      simp only [claimBlocks, Noted.value_bind, Noted.value_lift, Airtime.value_claimSlot,
        bind_eq_ok_iff, add_eq_ok_iff, Except.ok.injEq] at claimed
      obtain ⟨_, ⟨_, rfl⟩, _, ⟨bound, rfl⟩, _, rfl, claimed⟩ := claimed
      cases first : free.claim start (start + duration + guard) with
      | error e => simp [first, Except.map] at claimed
      | ok middle =>
          simp only [first] at claimed
          obtain ⟨bounds, claimedRest⟩ := ih claimed
          exact ⟨List.forall_mem_cons.mpr ⟨bound, bounds⟩,
            FreeSlots.claimEach_cons_eq_ok.mpr ⟨middle, first, claimedRest⟩⟩

/-- The shape of an allocation that is granted to a request without one. -/
structure Answers (policy : Policy) (terms : Terms) (source : Aid) (spec : TrafficSpec)
    (a : Allocation) : Prop where
  key : a.key = spec.key source
  duration : spec.desiredDuration = .ok a.blockDuration
  single : spec.period = 0 → a.blocks = 1 ∧ a.blockPeriod = 0
  periodic : spec.period ≠ 0 → policy = .periodic ∧ 2 ≤ a.blocks ∧
    a.blockPeriod = terms.interval / spec.period ∧
      a.blockDuration + terms.minBroadcastCbap ≤ a.blockPeriod

theorem unchanged_of_rejected {reason : Rejection}
    (answered : (pure (.rejected reason, air) : Noted (Outcome × Airtime)).value =
      .ok (outcome, after)) :
    ∃ reason, outcome = .rejected reason ∧ after = air := by
  simp only [Noted.value_pure, Except.ok.injEq, Prod.mk.injEq] at answered
  exact ⟨reason, answered.1.symm, answered.2.symm⟩

inductive BlockAnswer (terms : Terms) (source : Aid) (spec : TrafficSpec) (duration : Nat)
    (air : Airtime) : Outcome → Airtime → Prop where
  | full (nowhere : air.slots.firstFit? (duration + terms.guard) = none) :
      BlockAnswer terms source spec duration air (.rejected .insufficientSpace) air
  | refused (start : Nat) (e : SlotError)
      (refuses : air.slots.claim start (start + duration + terms.guard) = .error e) :
      BlockAnswer terms source spec duration air (.rejected (.slots e)) air
  | granted (start : Nat) (after : Airtime)
      (fits : air.slots.firstFit? (duration + terms.guard) = some start)
      (adds : air.Adds terms.guard (requested source spec start duration) after) :
      BlockAnswer terms source spec duration air
        (.granted (requested source spec start duration)) after

theorem placeBlock_answers {duration : Nat}
    (placed : (placeBlock terms source spec duration air).value = .ok (outcome, after)) :
    BlockAnswer terms source spec duration air outcome after := by
  simp only [placeBlock, Noted.value_bind, Noted.value_lift, bind_eq_ok_iff,
    add_eq_ok_iff] at placed
  obtain ⟨needed, ⟨_, rfl⟩, placed⟩ := placed
  cases room : air.slots.firstFit? (duration + terms.guard) with
  | none =>
      simp only [room, Noted.value_bind, Noted.value_note, ok_bind, Noted.value_pure,
        Except.ok.injEq] at placed
      obtain ⟨rfl, rfl⟩ := Prod.mk.inj placed
      exact .full room
  | some start =>
      simp only [room, Noted.value_bind, Noted.value_lift, Airtime.value_claimSlot,
        bind_eq_ok_iff, add_eq_ok_iff, Except.ok.injEq] at placed
      obtain ⟨_, ⟨_, rfl⟩, _, ⟨bound, rfl⟩, _, rfl, placed⟩ := placed
      cases claimed : air.slots.claim start (start + duration + terms.guard) with
      | error e =>
          simp only [claimed, Noted.value_pure, Except.ok.injEq] at placed
          obtain ⟨rfl, rfl⟩ := Prod.mk.inj placed
          exact .refused start e claimed
      | ok slots =>
          simp only [claimed, Noted.value_bind, Airtime.value_register, bind_eq_ok_iff,
            pure_eq_ok_iff, Noted.value_pure, Except.ok.injEq] at placed
          obtain ⟨_, ⟨_, _, rfl⟩, joined⟩ := placed
          obtain ⟨rfl, rfl⟩ := Prod.mk.inj joined
          refine .granted start _ room ⟨?_, ?_, rfl⟩
          · simpa [Allocation.Fits, requested, Allocation.extent_single] using bound
          · rw [requested, Allocation.extent_single, FreeSlots.claimEach_singleton, claimed]

theorem placeBlock_cases {duration : Nat}
    (placed : (placeBlock terms source spec duration air).value = .ok (outcome, after)) :
    (∃ reason, outcome = .rejected reason ∧ after = air) ∨
      ∃ start, outcome = .granted (requested source spec start duration) ∧
        air.Adds terms.guard (requested source spec start duration) after := by
  cases placeBlock_answers placed with
  | full => exact .inl ⟨_, rfl, rfl⟩
  | refused => exact .inl ⟨_, rfl, rfl⟩
  | granted start _ _ adds => exact .inr ⟨start, rfl, adds⟩

theorem extent_periodic {a : Allocation} {offsets : List Nat} (guard : Nat)
    (periodic : a.isPeriodic = true) (untrained : a.beamforming = none)
    (equidistant : offsets = List.range' a.start a.blocks a.blockPeriod) :
    a.extent guard = offsets.map fun start => ⟨start, start + a.blockDuration + guard⟩ := by
  subst offsets
  rw [Allocation.extent, if_pos periodic]
  refine List.ext_getElem (by simp) fun i _ _ => ?_
  simp [Allocation.blockExtent, Allocation.tailLength, untrained, Nat.mul_comm]

def requestedBlocks (source : Aid) (spec : TrafficSpec) (start duration n spacing : Nat) :
    Allocation :=
  { requested source spec start duration with
    blocks := n
    blockPeriod := spacing }

/-- Blocks that would overlap, or leave too little contention time between them. -/
def Crowded (terms : Terms) (spec : TrafficSpec) (duration : Nat) : Prop :=
  terms.interval / spec.period < duration + terms.guard ∨
    terms.interval / spec.period - duration < terms.minBroadcastCbap

inductive PeriodicAnswer (terms : Terms) (source : Aid) (spec : TrafficSpec) (duration : Nat)
    (air : Airtime) : Outcome → Airtime → Prop where
  | floor (crowded : Crowded terms spec duration) :
      PeriodicAnswer terms source spec duration air
        (.rejected (.cbapFloor (terms.interval / spec.period) duration)) air
  | few (offsets : List Nat) (uncrowded : ¬ Crowded terms spec duration)
      (found : air.slots.periodicOffsets duration (terms.interval / spec.period) terms.guard
        terms.maxBlocks = .ok offsets) (few : offsets.length < 2) :
      PeriodicAnswer terms source spec duration air
        (.rejected (.tooFewBlocks offsets.length)) air
  | refused (e : SlotError) :
      PeriodicAnswer terms source spec duration air (.rejected (.slots e)) air
  | granted (start : Nat) (rest : List Nat) (after : Airtime)
      (uncrowded : ¬ Crowded terms spec duration)
      (found : air.slots.periodicOffsets duration (terms.interval / spec.period) terms.guard
        terms.maxBlocks = .ok (start :: rest)) (several : rest ≠ [])
      (adds : air.Adds terms.guard (requestedBlocks source spec start duration (rest.length + 1)
        (terms.interval / spec.period)) after) :
      PeriodicAnswer terms source spec duration air
        (.granted (requestedBlocks source spec start duration (rest.length + 1)
          (terms.interval / spec.period))) after

theorem extent_requestedBlocks {duration start spacing guard n : Nat} {offsets : List Nat}
    (several : 1 < n) (positive : 0 < spacing)
    (equidistant : offsets = List.range' start n spacing) :
    (requestedBlocks source spec start duration n spacing).extent guard =
      offsets.map fun start => ⟨start, start + duration + guard⟩ :=
  extent_periodic guard (Allocation.isPeriodic_iff.mpr ⟨several, positive⟩) rfl equidistant

theorem placePeriodic_answers {duration : Nat}
    (placed : (placePeriodic terms source spec duration air).value = .ok (outcome, after)) :
    PeriodicAnswer terms source spec duration air outcome after := by
  simp only [placePeriodic, Noted.value_bind, Noted.value_lift, bind_eq_ok_iff, add_eq_ok_iff,
    div_eq_ok_iff] at placed
  obtain ⟨spacing, ⟨_, rfl⟩, needed, ⟨_, rfl⟩, placed⟩ := placed
  split_ifs at placed with crowded
  · simp only [Noted.value_bind, Noted.value_note, ok_bind, Noted.value_pure,
      Except.ok.injEq] at placed
    obtain ⟨rfl, rfl⟩ := Prod.mk.inj placed
    exact .floor crowded
  simp only [Noted.value_bind, value_findOffsets, bind_eq_ok_iff] at placed
  obtain ⟨offsets, found, placed⟩ := placed
  split at placed
  · next start next more =>
    simp only [Noted.value_bind, bind_eq_ok_iff] at placed
    obtain ⟨result, claimed, placed⟩ := placed
    cases result with
    | error e =>
        simp only [Noted.value_pure, Except.ok.injEq] at placed
        obtain ⟨rfl, rfl⟩ := Prod.mk.inj placed
        exact .refused e
    | ok slots =>
        simp only [Noted.value_bind, Airtime.value_register, bind_eq_ok_iff, pure_eq_ok_iff,
          Noted.value_pure, Except.ok.injEq] at placed
        obtain ⟨_, ⟨_, _, rfl⟩, joined⟩ := placed
        obtain ⟨rfl, rfl⟩ := Prod.mk.inj joined
        obtain ⟨positive, equidistant⟩ := FreeSlots.periodicOffsets_eq_ok found
        obtain ⟨bounds, claims⟩ := claimBlocks_eq_ok claimed
        have spread : (requestedBlocks source spec start duration ((next :: more).length + 1)
            (terms.interval / spec.period)).extent terms.guard = _ :=
          extent_requestedBlocks (by simp) positive equidistant
        refine .granted start (next :: more) _ crowded found (List.cons_ne_nil _ _) ⟨?_, ?_, rfl⟩
        · rw [Allocation.Fits, spread]
          simpa using bounds
        · rw [spread]
          exact claims
  · next short =>
    simp only [Noted.value_bind, Noted.value_note, ok_bind, Noted.value_pure,
      Except.ok.injEq] at placed
    obtain ⟨rfl, rfl⟩ := Prod.mk.inj placed
    refine .few offsets crowded found ?_
    obtain _ | ⟨start, _ | ⟨next, more⟩⟩ := offsets
    · exact Nat.zero_lt_two
    · exact Nat.one_lt_two
    · exact absurd rfl (short start next more)

theorem placePeriodic_cases {duration : Nat} (desired : spec.desiredDuration = .ok duration)
    (periodic : spec.period ≠ 0)
    (placed : (placePeriodic terms source spec duration air).value = .ok (outcome, after)) :
    (∃ reason, outcome = .rejected reason ∧ after = air) ∨
      ∃ a, outcome = .granted a ∧ Answers .periodic terms source spec a ∧
        air.Adds terms.guard a after := by
  cases placePeriodic_answers placed with
  | floor => exact .inl ⟨_, rfl, rfl⟩
  | few => exact .inl ⟨_, rfl, rfl⟩
  | refused e => exact .inl ⟨_, rfl, rfl⟩
  | granted start rest _ uncrowded found several adds =>
      refine .inr ⟨_, rfl, ⟨rfl, desired, fun single => absurd single periodic, ?_⟩, adds⟩
      have blocks := List.length_pos_iff.mpr several
      have apart : ¬ terms.interval / spec.period - duration < terms.minBroadcastCbap :=
        fun short => uncrowded (.inr short)
      have close : ¬ terms.interval / spec.period < duration + terms.guard :=
        fun short => uncrowded (.inl short)
      refine fun _ => ⟨rfl, Nat.succ_le_succ blocks, rfl, ?_⟩
      dsimp only [requestedBlocks, requested, Allocation.single]
      omega

theorem grant_of_single {policy : Policy} {duration : Nat} (grants : policy ≠ .cbapOnly)
    (single : spec.isPeriodic = false) (desired : spec.desiredDuration = .ok duration) :
    policy.grant terms source spec air = placeBlock terms source spec duration air := by
  cases policy with
  | cbapOnly => exact absurd rfl grants
  | basic => rw [grant, single, if_neg Bool.false_ne_true, desired, Noted.lift_ok_bind]
  | periodic => rw [grant, desired, Noted.lift_ok_bind, single, if_neg Bool.false_ne_true]

theorem grant_of_periodic {duration : Nat} (periodic : spec.isPeriodic = true)
    (desired : spec.desiredDuration = .ok duration) :
    Policy.periodic.grant terms source spec air =
      placePeriodic terms source spec duration air := by
  rw [grant, desired, Noted.lift_ok_bind, if_pos periodic]

theorem grant_routes {policy : Policy}
    (granted : (policy.grant terms source spec air).value = .ok (outcome, after)) :
    (∃ reason, outcome = .rejected reason ∧ after = air) ∨
      ∃ duration, spec.desiredDuration = .ok duration ∧
        ((spec.period = 0 ∧
            policy.grant terms source spec air = placeBlock terms source spec duration air) ∨
          (spec.period ≠ 0 ∧ policy = .periodic ∧
            policy.grant terms source spec air = placePeriodic terms source spec duration air)) := by
  cases policy with
  | cbapOnly => exact .inl (unchanged_of_rejected granted)
  | basic =>
      cases periodic : spec.isPeriodic with
      | true =>
          rw [grant, if_pos periodic] at granted
          exact .inl (unchanged_of_rejected granted)
      | false =>
          have ends := granted
          rw [grant, periodic, if_neg Bool.false_ne_true, Noted.value_bind, Noted.value_lift,
            bind_eq_ok_iff] at ends
          obtain ⟨duration, desired, _⟩ := ends
          exact .inr ⟨duration, desired, .inl ⟨by simpa [TrafficSpec.isPeriodic] using periodic,
            grant_of_single (by decide) periodic desired⟩⟩
  | periodic =>
      have ends := granted
      rw [grant, Noted.value_bind, Noted.value_lift, bind_eq_ok_iff] at ends
      obtain ⟨duration, desired, _⟩ := ends
      refine .inr ⟨duration, desired, ?_⟩
      cases periodic : spec.isPeriodic with
      | true =>
          exact .inr ⟨by simpa [TrafficSpec.isPeriodic] using periodic, rfl,
            grant_of_periodic periodic desired⟩
      | false =>
          exact .inl ⟨by simpa [TrafficSpec.isPeriodic] using periodic,
            grant_of_single (by decide) periodic desired⟩

theorem grant_cases {policy : Policy}
    (granted : (policy.grant terms source spec air).value = .ok (outcome, after)) :
    (∃ reason, outcome = .rejected reason ∧ after = air) ∨
      ∃ a, outcome = .granted a ∧ Answers policy terms source spec a ∧
        air.Adds terms.guard a after := by
  rcases grant_routes granted with
    rejected | ⟨duration, desired, ⟨single, route⟩ | ⟨periodic, rfl, route⟩⟩
  · exact .inl rejected
  · rw [route] at granted
    rcases placeBlock_cases granted with rejected | ⟨start, rfl, adds⟩
    · exact .inl rejected
    · exact .inr ⟨_, rfl, ⟨rfl, desired, fun _ => ⟨rfl, rfl⟩,
        fun several => absurd single several⟩, adds⟩
  · rw [route] at granted
    exact placePeriodic_cases desired periodic granted

theorem grant_requested {policy : Policy} {a : Allocation}
    (granted : (policy.grant terms source spec air).value = .ok (outcome, after))
    (registered : after.registry = air.registry ++ [a]) :
    ∃ start duration n spacing, spec.desiredDuration = .ok duration ∧
      a = requestedBlocks source spec start duration n spacing := by
  have unchanged : after ≠ air := by
    rintro rfl
    exact absurd (congrArg List.length registered) (by simp)
  have added : ∀ {b : Allocation}, after.registry = air.registry ++ [b] → a = b := fun same =>
    List.singleton_inj.mp (List.append_cancel_left (registered.symm.trans same))
  rcases grant_routes granted with
    ⟨_, _, same⟩ | ⟨duration, desired, ⟨_, route⟩ | ⟨_, _, route⟩⟩
  · exact absurd same unchanged
  · rw [route] at granted
    rcases placeBlock_cases granted with ⟨_, _, same⟩ | ⟨start, _, adds⟩
    · exact absurd same unchanged
    · exact ⟨start, duration, 1, 0, desired, added adds.registered⟩
  · rw [route] at granted
    cases placePeriodic_answers granted with
    | floor => exact absurd rfl unchanged
    | few => exact absurd rfl unchanged
    | refused => exact absurd rfl unchanged
    | granted start rest _ _ _ _ adds =>
        exact ⟨start, duration, rest.length + 1, _, desired, added adds.registered⟩

end Policy
end BeaconScheduler
