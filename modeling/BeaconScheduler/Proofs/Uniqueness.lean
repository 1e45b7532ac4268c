import BeaconScheduler.Proofs.History
import BeaconScheduler.Proofs.Keys
import BeaconScheduler.Proofs.Renewal

/-!
# Keys that are registered once

Nothing in a registry keeps two allocations from having one key.  It is the decisions that do:
a request is placed only if its key is not registered, and everything else that a scheduler does
of its own keeps the keys or takes some out.  So keys that differ stay different, in whatever
state the free slots and phases are (`performAll_distinct`), and then a deletion takes out all
that there is of a key (`keys_stay_distinct`).
-/

set_option autoImplicit false

namespace BeaconScheduler

open Counter

/-! ## Registries -/

namespace Registry

variable {registry after : Registry} {key : Allocation.Key}

def Distinct (registry : Registry) : Prop :=
  (registry.map (·.key)).Nodup

instance (registry : Registry) : Decidable registry.Distinct :=
  inferInstanceAs (Decidable (List.Nodup _))

theorem distinct_iff_under :
    registry.Distinct ↔ ∀ key, (registry.under key).length ≤ 1 := by
  rw [Distinct, List.nodup_iff_count]
  refine forall_congr' fun key => ?_
  rw [List.count_eq_countP, List.countP_map, List.countP_eq_length_filter]
  rfl

theorem Distinct.sublist (distinct : registry.Distinct)
    (kept : (after.map (·.key)).Sublist (registry.map (·.key))) : after.Distinct :=
  List.Nodup.sublist kept distinct

theorem keys_markAnnounced (registry : Registry) :
    registry.markAnnounced.map (·.key) = registry.map (·.key) := by
  rw [markAnnounced, List.map_map]
  rfl

theorem purge_sublist (registry : Registry) : registry.purge.2.Sublist registry := by
  rw [purge, List.partition_eq_filter_filter]
  exact List.filter_sublist

theorem Distinct.find?_eq_some_iff {a : Allocation} (distinct : registry.Distinct) :
    registry.find? key = some a ↔ a ∈ registry ∧ a.key = key := by
  constructor
  · intro found
    exact ⟨List.mem_of_find?_eq_some found, key_of_find? found⟩
  · intro known
    have few := distinct_iff_under.mp distinct key
    rw [find?_eq_head?]
    cases split : registry.under key with
    | nil =>
        rw [← mem_under_iff, split] at known
        cases known
    | cons b rest =>
        rw [← mem_under_iff, split] at known
        rw [split, List.length_cons] at few
        obtain rfl := List.length_eq_zero_iff.mp (Nat.le_zero.mp (Nat.le_of_succ_le_succ few))
        rw [List.mem_singleton.mp known]
        rfl

theorem contains_eq_false_iff :
    registry.contains key = false ↔ ∀ a ∈ registry, a.key ≠ key := by
  rw [Registry.contains, Option.isSome_eq_false_iff, Option.isNone_iff_eq_none, Registry.find?,
    List.find?_eq_none]
  simp

theorem contains_others (key : Allocation.Key) (registry : Registry) :
    Registry.contains (registry.filter fun a => a.key ≠ key) key = false := by
  rw [contains_eq_false_iff]
  intro a member
  exact of_decide_eq_true (List.mem_filter.mp member).2

theorem Distinct.erase_eq (distinct : registry.Distinct) (key : Allocation.Key) :
    registry.erase key = registry.filter fun a => a.key ≠ key := by
  induction registry with
  | nil => rfl
  | cons a rest ih =>
      obtain ⟨fresh, distinctRest⟩ := List.nodup_cons.mp distinct
      by_cases own : a.key = key
      · have others : ∀ b ∈ rest, decide (b.key ≠ key) = true := fun b member =>
          decide_eq_true fun same => fresh (List.mem_map.mpr ⟨b, member, same.trans own.symm⟩)
        rw [erase_cons_of_eq own, List.filter_cons_of_neg (by simpa using own),
          List.filter_eq_self.mpr others]
      · rw [erase_cons_of_ne own, List.filter_cons_of_pos (by simpa using own), ih distinctRest]

end Registry

/-! ## Airtime -/

namespace Airtime

variable {air after : Airtime} {terms : Terms} {a : Allocation}

theorem releaseAll_ends (free : FreeSlots) (list : List Interval) :
    Ends (releaseAll free list).value := by
  induction list generalizing free with
  | nil => exact ends_ok _
  | cons i rest ih =>
      unfold releaseAll
      dsimp only
      split_ifs
      · rw [Noted.value_bind, value_releaseSlot, ok_bind]
        cases free.release i.start (min i.stop free.dti) with
        | ok middle => exact ih middle
        | error e => exact ends_ok _
      · exact ih free

theorem giveBack_ends_iff : Ends (air.giveBack terms a).value ↔ a.Fits terms.guard := by
  simp only [giveBack, Noted.value_bind, Noted.value_lift, ends_bind_iff, Noted.value_pure]
  constructor
  · rintro ⟨intervals, occupied, _⟩
    exact (Allocation.occupied_eq_ok_iff.mp occupied).2
  · intro fits
    obtain ⟨released, releases⟩ := releaseAll_ends air.slots (a.extent terms.guard)
    exact ⟨_, Allocation.occupied_eq_ok_iff.mpr ⟨rfl, fits⟩, released, releases, ends_ok _⟩

theorem giveBack_registry {result : Except SlotError Unit}
    (given : (air.giveBack terms a).value = .ok (result, after)) :
    after.registry = air.registry := by
  simp only [giveBack, Noted.value_bind, Noted.value_lift, Noted.value_pure, bind_eq_ok_iff,
    Except.ok.injEq, Prod.mk.injEq] at given
  obtain ⟨_, _, _, _, _, rfl⟩ := given
  rfl

end Airtime

/-! ## What the scheduler does of its own -/

namespace Scheduler

variable {s next last : Scheduler} {now : Time} {key : Allocation.Key}

theorem giveBackAll_registry {terms : Terms} {air after : Airtime} {owed : List Allocation}
    (given : (giveBackAll now terms air owed).value = .ok after) :
    after.registry = air.registry := by
  induction owed generalizing air with
  | nil =>
      obtain rfl := Except.ok.inj given
      rfl
  | cons a rest ih =>
      simp only [giveBackAll, Noted.value_bind, bind_eq_ok_iff] at given
      obtain ⟨⟨result, middle⟩, returned, given⟩ := given
      rw [← Airtime.giveBack_registry returned]
      cases result with
      | ok _ => exact ih given
      | error e =>
          rw [Noted.value_bind, Noted.value_noteAt, ok_bind] at given
          exact ih given

theorem cleanUp_registry (cleaned : (s.cleanUp now).value = .ok next) :
    ∃ air, next = { s with air } ∧ air.registry = s.air.registry.purge.2 := by
  cases purged : s.air.registry.purge with
  | mk dropped kept =>
      simp only [cleanUp, purged, Noted.value_bind, value_noteEach, ok_bind,
        bind_eq_ok_iff] at cleaned
      obtain ⟨air, given, cleaned⟩ := cleaned
      refine ⟨air, ?_, giveBackAll_registry given⟩
      split_ifs at cleaned
      · exact (Except.ok.inj cleaned).symm
      · exact (Except.ok.inj cleaned).symm

theorem measure_registry (measured : s.measure = .ok next) :
    next.air.registry = s.air.registry := by
  unfold measure at measured
  split_ifs at measured
  · obtain rfl := Except.ok.inj measured
    rfl
  · obtain ⟨_, _, same⟩ := bind_eq_ok_iff.mp measured
    obtain rfl := Except.ok.inj same
    rfl

theorem refresh_registry (refreshed : s.refresh.value = .ok next) :
    next.air.registry = s.air.registry.markAnnounced := by
  simp only [refresh, Noted.value_bind, Noted.value_lift, bind_eq_ok_iff,
    value_publish] at refreshed
  obtain ⟨measured, measures, published⟩ := refreshed
  obtain rfl := Except.ok.inj published
  rw [← measure_registry measures]
  rfl

theorem adjust_registry {dti : Nat} (adjusted : (s.adjust now dti).value = .ok next) :
    next.air.registry = (s.air.registry.within s.limits.guard dti).markAnnounced := by
  simp only [adjust, Noted.value_bind, Noted.value_lift, value_noteDropped, ok_bind,
    bind_eq_ok_iff] at adjusted
  obtain ⟨⟨dropped, kept⟩, split, _, _, refreshed⟩ := adjusted
  rw [← Registry.splitBeyond_kept split]
  exact refresh_registry refreshed

theorem startInterval_registry {coordinator : Aid} {interval header announcement : Nat}
    {wakeup : Wakeup}
    (started : (s.startInterval now coordinator interval header announcement).value =
      .ok (wakeup, next)) :
    next.air.registry = s.air.registry ∨
      next.air.registry =
        (s.air.registry.within s.limits.guard (interval - header)).markAnnounced := by
  rw [value_startInterval] at started
  simp only [bind_eq_ok_iff, Except.ok.injEq, Prod.mk.injEq] at started
  obtain ⟨current, upkeep, _, _, rfl, rfl⟩ := started
  split_ifs at upkeep
  · obtain rfl := Except.ok.inj upkeep
    exact Or.inl rfl
  · have renewed := adjust_registry upkeep
    exact Or.inr renewed

theorem endInterval_registry (ended : (s.endInterval now).value = .ok next) :
    ∃ (cleaned air : Airtime) (responses : List AdmissionResponse),
      cleaned.registry = s.air.registry.purge.2 ∧
      (decideAll s.policy s.terms now cleaned s.queue).value = .ok (responses, air) ∧
      next.air.registry = air.registry.markAnnounced := by
  simp only [endInterval, Noted.value_bind, Noted.value_noteAt, ok_bind, bind_eq_ok_iff] at ended
  obtain ⟨_, cleans, ⟨responses, air⟩, decided, _, refreshed, _, _, published⟩ := ended
  obtain ⟨cleaned, rfl, registry⟩ := cleanUp_registry cleans
  obtain rfl := Except.ok.inj published
  exact ⟨cleaned, air, responses, registry, decided, refresh_registry refreshed⟩

theorem delete_registry {response : DeletionResponse}
    (deleted : (s.delete now key).value = .ok (response, next)) :
    (s.air.registry.contains key = false ∧ response = ⟨key, .notFound, now⟩ ∧ next = s) ∨
      (s.air.registry.contains key = true ∧ response = ⟨key, .found, now⟩ ∧
        next.air.registry = s.air.registry.erase key) := by
  unfold delete at deleted
  cases found : s.air.registry.find? key with
  | none =>
      rw [found] at deleted
      obtain ⟨rfl, rfl⟩ := Prod.mk.inj (Except.ok.inj deleted)
      exact Or.inl ⟨by rw [Registry.contains, found]; rfl, rfl, rfl⟩
  | some a =>
      simp only [found, Noted.value_bind, Noted.value_note, ok_bind, bind_eq_ok_iff] at deleted
      obtain ⟨⟨result, air⟩, given, deleted⟩ := deleted
      have registry := Airtime.giveBack_registry given
      refine Or.inr ⟨by rw [Registry.contains, found]; rfl, ?_⟩
      cases result with
      | ok _ =>
          obtain ⟨rfl, rfl⟩ := Prod.mk.inj (Except.ok.inj deleted)
          exact ⟨rfl, registry⟩
      | error e =>
          obtain ⟨rfl, rfl⟩ := Prod.mk.inj (Except.ok.inj deleted)
          exact ⟨rfl, registry⟩

theorem delete_ends_iff :
    Ends (s.delete now key).value ↔
      ∀ a, s.air.registry.find? key = some a → a.Fits s.limits.guard := by
  unfold delete
  cases found : s.air.registry.find? key with
  | none =>
      refine ⟨fun _ _ known => ?_, fun _ => ends_ok _⟩
      cases known
  | some a =>
      simp only [Noted.value_bind, Noted.value_note, ok_bind, Option.some.injEq, forall_eq']
      rw [ends_bind_iff]
      constructor
      · rintro ⟨given, gives, _⟩
        exact Airtime.giveBack_ends_iff.mp ⟨given, gives⟩
      · intro fits
        let erased : Airtime := { s.air with registry := s.air.registry.erase key }
        have given : Ends (erased.giveBack s.terms a).value := Airtime.giveBack_ends_iff.mpr fits
        obtain ⟨⟨result, air⟩, gives⟩ := given
        refine ⟨_, gives, ?_⟩
        cases result with
        | ok _ => exact ends_ok _
        | error e => exact ends_ok _

theorem delete_of_absent (absent : s.air.registry.contains key = false) (now : Time) :
    (s.delete now key).value = .ok (⟨key, .notFound, now⟩, s) := by
  rw [Registry.contains, Option.isSome_eq_false_iff, Option.isNone_iff_eq_none] at absent
  unfold delete
  rw [absent]
  rfl

/-! ## Runs -/

variable {command : Command} {commands : List Command}

theorem perform_distinct (distinct : s.air.registry.Distinct) (own : command.lends = false)
    (performed : (s.perform command).value = .ok next) : next.air.registry.Distinct := by
  cases command with
  | startInterval now coordinator interval header announcement =>
      obtain ⟨_, started⟩ := snd_eq_ok performed
      rcases startInterval_registry started with same | renewed
      · rw [same]
        exact distinct
      · rw [renewed]
        refine distinct.sublist ?_
        rw [Registry.keys_markAnnounced]
        exact List.filter_sublist.map _
  | handle now change =>
      obtain ⟨_, handled⟩ := snd_eq_ok performed
      rcases handle_cases handled with
        ⟨rfl, _⟩ | ⟨_, _, _, _, _, _, _, _, rfl⟩ | ⟨_, ended, ends, rfl⟩
      · exact distinct
      · exact distinct
      · obtain ⟨cleaned, air, responses, registry, decided, published⟩ :=
          endInterval_registry ends
        have kept : cleaned.registry.Distinct := by
          rw [registry]
          exact distinct.sublist ((Registry.purge_sublist _).map _)
        have decidedOn : air.registry.Distinct := by
          rw [Registry.distinct_iff_under] at kept ⊢
          exact fun key => Nat.le_trans (decideAll_length_le decided)
            (Nat.max_le.mpr ⟨kept key, Nat.le_refl 1⟩)
        dsimp only
        rw [published]
        refine decidedOn.sublist ?_
        rw [Registry.keys_markAnnounced]
  | request now source spec =>
      obtain rfl := Except.ok.inj performed
      exact distinct
  | delete now key =>
      obtain ⟨_, deleted⟩ := snd_eq_ok performed
      rcases delete_registry deleted with ⟨_, _, rfl⟩ | ⟨_, _, registry⟩
      · exact distinct
      · rw [registry]
        exact distinct.sublist (List.eraseP_sublist.map _)
  | takeResponses =>
      obtain rfl := Except.ok.inj performed
      exact distinct
  | train peer duration beamforming => cases own
  | reserve a => cases own
  | reserveBlock key kind isStatic start duration => cases own
  | reserveBlocks key kind isStatic start duration blocks => cases own
  | reserveCbap isStatic start duration => cases own
  | reserveWholeDti key => cases own
  | reserveTraining source dest duration beamforming => cases own

theorem performAll_distinct (distinct : s.air.registry.Distinct)
    (own : ∀ command ∈ commands, command.lends = false)
    (performed : (s.performAll commands).value = .ok last) : last.air.registry.Distinct := by
  induction commands generalizing s with
  | nil =>
      obtain rfl := Except.ok.inj performed
      exact distinct
  | cons command rest ih =>
      obtain ⟨first, others⟩ := List.forall_mem_cons.mp own
      rw [performAll, Noted.value_bind, bind_eq_ok_iff] at performed
      obtain ⟨middle, performs, performedRest⟩ := performed
      exact ih (perform_distinct distinct first performs) others performedRest

/-- Keys that differ at first differ after every run that does not reserve airtime directly.  A
deletion then ends if what it gives back can be computed, leaves nothing of the key and everything
else as it is, and finds nothing when it is repeated. -/
theorem keys_stay_distinct (distinct : s.air.registry.Distinct)
    (own : ∀ command ∈ commands, command.lends = false)
    (performed : (s.performAll commands).value = .ok last) :
    last.air.registry.Distinct ∧ ∀ (now : Time) (key : Allocation.Key),
      (Ends (last.delete now key).value ↔
        ∀ a ∈ last.air.registry, a.key = key → a.Fits last.limits.guard) ∧
      ∀ response next, (last.delete now key).value = .ok (response, next) →
        response = ⟨key, if last.air.registry.contains key then .found else .notFound, now⟩ ∧
        next.air.registry = (last.air.registry.filter fun a => a.key ≠ key) ∧
        ∀ later, (next.delete later key).value = .ok (⟨key, .notFound, later⟩, next) := by
  have distinctLast := performAll_distinct distinct own performed
  refine ⟨distinctLast, fun now key => ⟨?_, fun response next deleted => ?_⟩⟩
  · simp only [delete_ends_iff, distinctLast.find?_eq_some_iff, and_imp]
  have outcome := delete_registry deleted
  have others : next.air.registry = (last.air.registry.filter fun a => a.key ≠ key) := by
    rcases outcome with ⟨absent, _, rfl⟩ | ⟨_, _, registry⟩
    · refine (List.filter_eq_self.mpr fun a member => decide_eq_true ?_).symm
      exact Registry.contains_eq_false_iff.mp absent a member
    · rw [registry, distinctLast.erase_eq]
  refine ⟨?_, others, fun later => delete_of_absent ?_ later⟩
  · rcases outcome with ⟨absent, told, _⟩ | ⟨known, told, _⟩
    · rw [told, if_neg (by rw [absent]; exact Bool.false_ne_true)]
    · rw [told, if_pos known]
  · rw [others]
    exact Registry.contains_others key last.air.registry

/-- Three requests of one key in one queue, beside another station's of the same number and a
deletion that finds nothing. -/
def insistentStation : List Command :=
  [.startInterval 0 0 102400 1000 0,
    .request 10 7 ⟨3, .servicePeriod, true, 4, .asynchronous, 2000, 2000, 0, false⟩,
    .request 20 7 ⟨3, .servicePeriod, true, 4, .asynchronous, 1500, 1500, 0, false⟩,
    .request 30 8 ⟨3, .servicePeriod, true, 4, .asynchronous, 1000, 1000, 2, false⟩,
    .delete 40 ⟨3, 7, 4⟩,
    .request 50 7 ⟨3, .servicePeriod, true, 4, .asynchronous, 3000, 3000, 0, false⟩,
    .handle 1000 .dataTransferStart,
    .handle 102400 .intervalEnd]

theorem insistentStation_deleted :
    ∃ s last response next,
      (start { statics := [⟨⟨9, 0, 255⟩, .servicePeriod, 0, 1000, 1⟩] }).value = .ok s ∧
      (s.performAll insistentStation).value = .ok last ∧
      (last.delete 102500 ⟨3, 7, 4⟩).value = .ok (response, next) ∧
      last.air.registry.map (·.key) = [⟨9, 0, 255⟩, ⟨3, 7, 4⟩, ⟨3, 8, 4⟩] ∧
      next.air.registry.map (·.key) = [⟨9, 0, 255⟩, ⟨3, 8, 4⟩] ∧
      last.air.registry.Distinct ∧
      next.air.registry = (last.air.registry.filter fun a => a.key ≠ ⟨3, 7, 4⟩) ∧
      (next.delete 102500 ⟨3, 7, 4⟩).value = .ok (⟨⟨3, 7, 4⟩, .notFound, 102500⟩, next) := by
  obtain ⟨⟨s, last, response, next⟩, ran, computed⟩ := exists_ok
    (x := (do
      let s ← start { statics := [⟨⟨9, 0, 255⟩, .servicePeriod, 0, 1000, 1⟩] }
      let last ← s.performAll insistentStation
      return (s, last, ← last.delete 102500 ⟨3, 7, 4⟩) : Noted _).value)
    (f := fun run => (run.2.1.air.registry.map (·.key), run.2.2.2.air.registry.map (·.key),
      decide run.1.air.registry.Distinct))
    (b := ([⟨9, 0, 255⟩, ⟨3, 7, 4⟩, ⟨3, 8, 4⟩], [⟨9, 0, 255⟩, ⟨3, 8, 4⟩], true))
    (by decide +kernel)
  simp only [Noted.value_bind, Noted.value_pure, bind_eq_ok_iff, Except.ok.injEq,
    Prod.mk.injEq, decide_eq_true_eq] at ran computed
  obtain ⟨_, started, _, performed, _, deleted, rfl, rfl, rfl⟩ := ran
  obtain ⟨keys, keysNext, distinct⟩ := computed
  obtain ⟨distinctLast, each⟩ := keys_stay_distinct distinct (by decide) performed
  obtain ⟨_, others, again⟩ := (each 102500 ⟨3, 7, 4⟩).2 _ _ deleted
  exact ⟨_, _, _, _, started, performed, deleted, keys, keysNext, distinctLast, others,
    again 102500⟩

end Scheduler
end BeaconScheduler
