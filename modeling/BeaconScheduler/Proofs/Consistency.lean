import BeaconScheduler.Proofs.Boundary
import BeaconScheduler.Proofs.PartitionCheck

/-!
# Inconsistencies that never show

The program expects that airtime may fail to be returned, that a claim may be refused after
the policy has looked for room, and that the free slots may not match the registry when an
interval has ended.  In every state that a run can reach none of this happens
(`run_consistent`), as the free slots and the registered allocations divide the DTI.
-/

set_option autoImplicit false

namespace BeaconScheduler

open Counter BeaconScheduler.Interval

/-! ## The check of the partition -/

namespace Tiling

variable {guard dti : Nat} {free : FreeSlots} {holders : Registry}

theorem checkPartition (tiling : Tiling guard dti free holders) :
    free.checkPartition (Registry.extent guard holders) = .ok () := by
  refine (FreeSlots.checkPartition_eq_ok_iff tiling.wellFormed tiling.nonempty_extent).mpr
    ⟨tiling.disjoint, ?_, fun t inside => ?_⟩
  · rw [tiling.length]
    exact tiling.inside
  · rw [tiling.length] at inside
    rw [tiling.isFree_iff, and_iff_right inside]

end Tiling

/-! ## Training periods -/

namespace Airtime

variable {source dest : Aid} {start duration : Nat} {beamforming : Allocation.Beamforming}

theorem extent_training (guard : Nat) :
    (training source dest start duration beamforming).extent guard =
      [⟨start, start + (duration + Allocation.beamformingProtection + guard)⟩] := by
  have span : (training source dest start duration beamforming).spanExtent guard =
      ⟨start, start + (duration + Allocation.beamformingProtection + guard)⟩ := by
    simp only [training, Allocation.single, Allocation.spanExtent, Allocation.tailLength,
      Option.isSome_some, if_true, Interval.mk.injEq, true_and]
    omega
  have single : ¬ (training source dest start duration beamforming).isPeriodic = true := by
    simp [training, Allocation.single, Allocation.isPeriodic]
  rw [Allocation.extent, if_neg single, span]

theorem reserveTraining_places {terms : Terms} {air after : Airtime}
    {result : Except SlotError Nat} (wellFormed : air.slots.WellFormed)
    (reserved : (air.reserveTraining terms source dest duration beamforming).value =
      .ok (result, after)) :
    (after = air ∧ ∀ slot ∈ air.slots.slots,
      slot.length ≤ duration + Allocation.beamformingProtection + terms.guard) ∨
    ((∃ slot ∈ air.slots.slots,
        duration + Allocation.beamformingProtection + terms.guard < slot.length) ∧
      ∃ start, Adds terms.guard (training source dest start duration beamforming) air after) := by
  simp only [reserveTraining, Noted.value_bind, Noted.value_lift, bind_eq_ok_iff,
    add_eq_ok_iff] at reserved
  obtain ⟨_, ⟨_, rfl⟩, _, ⟨_, rfl⟩, reserved⟩ := reserved
  cases room : air.slots.firstFit? (duration + Allocation.beamformingProtection + terms.guard) with
  | none =>
      simp only [room, Noted.value_pure, Except.ok.injEq, Prod.mk.injEq] at reserved
      rw [FreeSlots.firstFit?, Option.map_eq_none_iff, List.find?_eq_none] at room
      refine .inl ⟨reserved.2.symm, fun slot member => ?_⟩
      simpa using room slot member
  | some start =>
      obtain ⟨slot, member, rfl, long⟩ := FreeSlots.firstFit?_eq_some room
      have protect : 0 < Allocation.beamformingProtection := by decide
      obtain ⟨_, slots, claimed⟩ := FreeSlots.claim_of_firstFit wellFormed (by omega) room
      have claims : air.slots.claimEach
          ((training source dest slot.start duration beamforming).extent terms.guard) =
            .ok slots := by
        rw [extent_training, FreeSlots.claimEach_singleton, claimed]
      simp only [room, Noted.value_bind, bind_eq_ok_iff] at reserved
      obtain ⟨⟨placed, middle⟩, reserves, reserved⟩ := reserved
      obtain ⟨⟨stop, rfl⟩, adds⟩ := (reserve_claims reserves).2 slots claims
      simp only [Noted.value_bind, Noted.value_note, ok_bind, Noted.value_pure,
        Except.ok.injEq, Prod.mk.injEq] at reserved
      obtain ⟨_, rfl⟩ := reserved
      refine .inr ⟨⟨slot, member, ?_⟩, slot.start, adds⟩
      rw [Interval.length]
      omega

theorem Tiled.reserveTraining_of_firstFit {dti : Nat} {air : Airtime} (terms : Terms)
    (tiled : air.Tiled terms.guard dti) (small : dti < 2 ^ 32)
    (room : air.slots.firstFit? (duration + Allocation.beamformingProtection + terms.guard) =
      some start) :
    ∃ after, (air.reserveTraining terms source dest duration beamforming).value =
      .ok (.ok start, after) := by
  obtain ⟨slot, member, first, last⟩ := FreeSlots.firstFit?_eq_some room
  have inside := tiled.wellFormed.inside slot member
  have length := tiled.length
  have extent : (training source dest start duration beamforming).extent terms.guard =
      [⟨start, start + (duration + Allocation.beamformingProtection + terms.guard)⟩] :=
    extent_training terms.guard
  have protect : add32 duration Allocation.beamformingProtection =
      .ok (duration + Allocation.beamformingProtection) := add32_of_lt (by omega)
  have needed : add32 (duration + Allocation.beamformingProtection) terms.guard =
      .ok (duration + Allocation.beamformingProtection + terms.guard) :=
    add32_of_lt (by omega)
  have positive : 0 < Allocation.beamformingProtection := by decide
  obtain ⟨stop, after, reserved⟩ : ∃ stop after, (air.reserve terms
      (training source dest start duration beamforming)).value = .ok (.ok stop, after) := by
    refine reserve_of_coverage ?_ tiled.wellFormed ?_ ?_
    · rw [Allocation.Fits, extent]
      simp only [List.mem_singleton, forall_eq]
      omega
    · rw [extent]
      simp only [List.mem_singleton, forall_eq]
      omega
    · intro t
      rw [extent, coverage_singleton]
      split_ifs with held
      · dsimp only at held
        exact coverage_pos_of_mem member (by omega) (by omega)
      · exact Nat.zero_le _
  refine ⟨after, ?_⟩
  simp only [Airtime.reserveTraining, Noted.value_bind, Noted.value_lift, protect, needed,
    ok_bind, room]
  rw [show (air.reserve terms { Allocation.single ⟨0, source, dest⟩ .servicePeriod false start
    duration with beamforming := some beamforming }).value = _ from reserved, ok_bind]
  rfl

end Airtime

namespace Scheduler

variable {s next : Scheduler} {config : Config} {commands : List Command}

/-- Airtime that is due can be returned, room that was found can be claimed, and a registered
allocation can be shortened. -/
structure Consistent (s : Scheduler) : Prop where
  occupied : ∀ a ∈ s.air.registry, Ends (a.occupied s.limits.guard)
  deletes : ∀ now key, Ends (s.delete now key).value
  deleted : ∀ key a, s.air.registry.find? key = some a → ∃ air,
    (Airtime.giveBack s.terms a { s.air with registry := s.air.registry.erase key }).value =
      .ok (.ok (), air)
  cleans : ∀ now, Ends (s.cleanUp now).value
  purged : ∀ now before a behind, s.air.registry.purge.1 = before ++ a :: behind →
    ∃ reached air,
      (giveBackAll now s.terms { s.air with registry := s.air.registry.purge.2 } before).value =
        .ok reached ∧
      (reached.giveBack s.terms a).value = .ok (.ok (), air)
  /-- After any requests, as far as their decisions end. -/
  decides : ∀ now cleaned queue responses reached request,
    (s.cleanUp now).value = .ok cleaned →
    (decideAll s.policy s.terms now cleaned.air queue).value = .ok (responses, reached) →
      (∀ outcome after,
        (s.policy.decide s.terms now request reached).value = .ok (outcome, after) →
          ∀ e, outcome ≠ .rejected (.slots e)) ∧
      (reached.registry.contains request.key = true →
        Ends (s.policy.decide s.terms now request reached).value)
  partition : ∀ now next, (s.endInterval now).value = .ok next → ∃ intervals,
    Registry.occupied s.limits.guard next.air.registry = .ok intervals ∧
      next.air.slots.checkPartition intervals = .ok ()
  trains : ∀ source dest duration beamforming start,
    s.air.slots.firstFit? (duration + Allocation.beamformingProtection + s.limits.guard) =
      some start →
    ∃ air, (s.air.reserveTraining s.terms source dest duration beamforming).value =
      .ok (.ok start, air)

theorem Tiled.delete_ends (tiled : s.Tiled) (now : Time) (key : Allocation.Key) :
    Ends (s.delete now key).value := by
  unfold delete
  cases found : s.air.registry.find? key with
  | none => exact ends_ok _
  | some a =>
      obtain ⟨slots, given, _⟩ := (tiled.owes found).giveBack s.terms
        { s.air with registry := s.air.registry.erase key }
      simp only [Noted.value_bind, Noted.value_note, given, ok_bind]
      exact ends_ok _

theorem Tiled.consistent (tiled : s.Tiled) (small : s.timing.dti < 2 ^ 32) : s.Consistent where
  occupied a registered := by
    have fits := tiled.fits a registered
    exact ⟨_, Allocation.occupied_eq_ok_iff.mpr ⟨rfl, fits⟩⟩
  deletes now key := tiled.delete_ends now key
  deleted key a found := by
    obtain ⟨slots, given, _⟩ := (tiled.owes found).giveBack s.terms
      { s.air with registry := s.air.registry.erase key }
    exact ⟨_, given⟩
  cleans now := cleanUp_ends now tiled
  purged now before a behind dropped := by
    have perm : (s.air.registry.purge.1 ++ s.air.registry.purge.2).Perm s.air.registry :=
      Registry.purge_perm rfl
    rw [dropped, List.append_assoc, List.cons_append] at perm
    have tiling := Tiling.perm tiled perm
    obtain ⟨reached, given⟩ := giveBackAll_ends now s.terms
      { s.air with registry := s.air.registry.purge.2 } (by exact tiling)
    obtain ⟨_, owed⟩ := giveBackAll_eq_ok s.terms (by exact tiling) given
    obtain ⟨slots, returned, _⟩ := owed.giveBack s.terms reached
    exact ⟨reached, _, given, returned⟩
  decides now cleaned queue responses reached request cleans decided := by
    obtain ⟨air, rfl, _, tiledCleaned⟩ := cleanUp_eq_ok tiled cleans
    have tiledReached : reached.Tiled s.limits.guard s.timing.dti :=
      decideAll_tiled tiledCleaned decided
    refine ⟨fun outcome after own e => ?_, fun registered => ?_⟩
    · exact Policy.decide_not_refused tiledReached small own e
    · exact Policy.decide_ends_of_registered tiledReached small registered
  partition now next ended := by
    obtain ⟨_, air, _, _, _, _, _, tiledAir, rfl⟩ := endInterval_eq_ok tiled ended
    have tiledNext := tiledAir.announced
    refine ⟨_, Registry.occupied_eq_ok_iff.mpr ⟨rfl, tiledNext.fits⟩, ?_⟩
    exact Tiling.checkPartition tiledNext
  trains source dest duration beamforming start room :=
    Airtime.Tiled.reserveTraining_of_firstFit s.terms tiled small room

/-! ## Runs -/

/-- No response is a refusal by the free slots. -/
def Unrefused (responses : List AdmissionResponse) : Prop :=
  ∀ response ∈ responses, ∀ e, response.outcome ≠ .rejected (.slots e)

theorem decideAll_unrefused {policy : Policy} {terms : Terms} {now : Time} {dti : Nat}
    {air after : Airtime} {queue : List AdmissionRequest} {responses : List AdmissionResponse}
    (tiled : air.Tiled terms.guard dti) (small : dti < 2 ^ 32)
    (decided : (decideAll policy terms now air queue).value = .ok (responses, after)) :
    Unrefused responses := by
  induction queue generalizing air responses with
  | nil =>
      obtain ⟨rfl, _⟩ := Prod.mk.inj (Except.ok.inj decided)
      exact fun _ member => absurd member List.not_mem_nil
  | cons request rest ih =>
      obtain ⟨_, _, others, own, decidedRest, rfl⟩ := decideAll_cons_eq_ok_iff.mp decided
      exact List.forall_mem_cons.mpr
        ⟨Policy.decide_not_refused tiled small own, ih (tiled.decide own) decidedRest⟩

theorem perform_unrefused {command : Command} (tiled : s.Tiled) (small : s.timing.dti < 2 ^ 32)
    (unrefused : Unrefused s.responses) (performed : (s.perform command).value = .ok next) :
    Unrefused next.responses := by
  rcases perform_cases tiled performed with
    ⟨now, coordinator, interval, header, announcement, wakeup, rfl, started⟩ |
    ⟨now, change, result, rfl, handled⟩ | ⟨_, kept⟩
  · rcases startInterval_eq_ok tiled started with ⟨_, rfl⟩ | ⟨_, _, _, rfl⟩
    · exact unrefused
    · exact unrefused
  · rcases handle_cases handled with
      ⟨rfl, _⟩ | ⟨_, _, _, _, _, _, _, _, rfl⟩ | ⟨_, _, ends, rfl⟩
    · exact unrefused
    · exact unrefused
    · obtain ⟨_, _, responses, _, _, tiledCleaned, decided, _, rfl⟩ := endInterval_eq_ok tiled ends
      have new := decideAll_unrefused tiledCleaned small decided
      intro response member
      rcases List.mem_append.mp member with old | answer
      · exact unrefused response old
      · exact new response answer
  · exact fun response member => unrefused response (kept response member)

theorem run_unrefused (counted : config.beacon.interval < 2 ^ 32)
    (countedCommands : ∀ command ∈ commands, command.StartsWithin (2 ^ 32))
    (ran : (run config commands).value = .ok s) : Unrefused s.responses := by
  have holds : s.Within (2 ^ 32) ∧ Unrefused s.responses := by
    refine run_induction (motive := fun s => s.Within (2 ^ 32) ∧ Unrefused s.responses) ?_ ?_
      countedCommands ran
    · intro first started
      obtain ⟨_, _, _, none, _⟩ := start_eq_ok started
      refine ⟨start_within started counted, ?_⟩
      rw [none]
      exact fun _ member => absurd member List.not_mem_nil
    · rintro before after command tiled ⟨within, unrefused⟩ starts performed
      have small := Nat.lt_of_le_of_lt within.dti within.interval
      exact ⟨perform_within tiled within starts performed,
        perform_unrefused tiled small unrefused performed⟩
  exact holds.2

/-- No run leads to a scheduler that shows an inconsistency, or has ever answered with one. -/
theorem run_consistent (ran : (run config commands).value = .ok s)
    (counted : config.beacon.interval < 2 ^ 32)
    (countedCommands : ∀ command ∈ commands, command.StartsWithin (2 ^ 32)) :
    s.Consistent ∧ Unrefused s.responses := by
  obtain ⟨tiled, _⟩ := run_tiled ran
  have within := run_within counted countedCommands ran
  exact ⟨tiled.consistent (Nat.lt_of_le_of_lt within.dti within.interval),
    run_unrefused counted countedCommands ran⟩

theorem busyRun_consistent :
    ∃ s, busyRun.value = .ok s ∧ s.air.registry.length = 2 ∧ s.air.registry.purge.1.length = 1 ∧
      s.queue.length = 2 ∧ s.Consistent ∧ Unrefused s.responses := by
  obtain ⟨s, ran, counts⟩ := exists_ok (x := busyRun.value) (b := (2, 1, 2))
    (f := fun s => (s.air.registry.length, s.air.registry.purge.1.length, s.queue.length))
    (by decide +kernel)
  simp only [Prod.mk.injEq] at counts
  obtain ⟨registered, expired, queued⟩ := counts
  exact ⟨s, ran, registered, expired, queued,
    run_consistent ran (by decide) (by simp [Command.StartsWithin])⟩

end Scheduler
end BeaconScheduler
