import BeaconScheduler.Proofs.Published
import Mathlib.Data.List.Basic

/-!
# When a schedule lists airtime that has changed since

A schedule `Lists` airtime if its entries are the registered allocations and one contention
period for each free slot, marks of announcement aside.  When the registry has lost
allocations since the schedule was made and gained training periods, the old schedule still
lists the airtime exactly if nothing has been gained, and whatever has been lost is itself
such a contention period (`schedule_lists_iff`).
-/

set_option autoImplicit false

namespace BeaconScheduler

open Counter BeaconScheduler.Interval

theorem perm_append_filter {α : Type} [DecidableEq α] {part whole : List α}
    (nodupPart : part.Nodup) (nodup : whole.Nodup) (subset : ∀ a ∈ part, a ∈ whole) :
    (part ++ whole.filter (· ∉ part)).Perm whole := by
  have selected : part.Perm (whole.filter (· ∈ part)) := by
    rw [List.perm_ext_iff_of_nodup nodupPart (nodup.filter _)]
    intro a
    simp only [List.mem_filter, decide_eq_true_eq]
    exact ⟨fun member => ⟨subset a member, member⟩, fun both => both.2⟩
  have split := List.filter_append_perm (· ∈ part) whole
  simp only [← decide_not] at split
  exact (selected.append_right _).trans split

namespace Allocation

/-- The allocation whether or not a beacon has carried it. -/
def unmarked (a : Allocation) : Allocation :=
  { a with announced := false }

@[simp] theorem extent_unmarked (a : Allocation) (guard : Nat) :
    a.unmarked.extent guard = a.extent guard := rfl

end Allocation

namespace Airtime

variable {air shown : Airtime} {guard dti : Nat}

def unmarked (air : Airtime) : Airtime :=
  { air with registry := air.registry.map Allocation.unmarked }

theorem Tiled.unmarked (tiled : air.Tiled guard dti) : air.unmarked.Tiled guard dti where
  wellFormed := tiled.wellFormed
  length := tiled.length
  fits a member := by
    obtain ⟨b, original, rfl⟩ := List.mem_map.mp member
    exact tiled.fits b original
  nonempty a member := by
    obtain ⟨b, original, rfl⟩ := List.mem_map.mp member
    exact tiled.nonempty b original
  once t := by
    rw [← tiled.once t]
    rw [Airtime.unmarked, Registry.extent_map fun a => a.extent_unmarked guard]

/-- The entries are the registered allocations, and contention periods for the free slots. -/
def Lists (entries : Schedule) (air : Airtime) : Prop :=
  (entries.map Allocation.unmarked).Perm (air.unmarked.registry ++ air.gapFillings)

theorem schedule_unmarked_perm (air : Airtime) :
    (air.schedule.map Allocation.unmarked).Perm (air.unmarked.registry ++ air.gapFillings) := by
  have gaps : air.gapFillings.map Allocation.unmarked = air.gapFillings := by
    rw [gapFillings, List.map_map]
    rfl
  have perm := air.schedule_perm.map Allocation.unmarked
  rw [List.map_append, gaps] at perm
  exact perm

theorem Tiled.nodup_entries (tiled : air.Tiled guard dti) :
    (air.registry ++ air.gapFillings).Nodup :=
  tiled.starts_differ.imp fun differ same => differ (congrArg Allocation.start same)

/-! ## Lost allocations -/

variable {lost : Registry}

theorem Tiled.slots_of_lost (tiledShown : shown.Tiled guard dti) (tiled : air.Tiled guard dti)
    (split : (air.registry ++ lost).Perm shown.registry)
    (freed : ∀ a ∈ lost, a ∈ air.gapFillings) :
    shown.slots.slots = air.slots.slots.filter (· ∉ lost.map Allocation.span) := by
  have canonical := tiled.wellFormed.canonical
  have balance : ∀ t, coverage air.slots.slots t =
      coverage shown.slots.slots t + coverage (Registry.extent guard lost) t := by
    intro t
    have before := tiledShown.once t
    have now := tiled.once t
    rw [← coverage_perm (Registry.extent_perm split), Registry.extent_append,
      coverage_append] at before
    omega
  -- Guard time behind a lost block would be free, but no slot touches the block's own slot.
  have extents : ∀ a ∈ lost, a.extent guard = [a.span] := by
    intro a member
    obtain ⟨slot, isSlot, rfl⟩ := List.mem_map.mp (freed a member)
    have nonempty := tiled.wellFormed.nonempty slot isSlot
    have extent : (gapFilling slot).extent guard = [⟨slot.start, slot.stop + guard⟩] := by
      rw [gapFilling, Allocation.broadcastCbap, Allocation.extent_single, Interval.length]
      congr 2
      omega
    have unguarded : guard = 0 := by
      by_contra guarded
      have covered : 0 < coverage (Registry.extent guard lost) slot.stop := by
        refine coverage_pos_of_mem (i := ⟨slot.start, slot.stop + guard⟩)
          (Registry.mem_extent_iff.mpr ⟨_, member, ?_⟩) (Nat.le_of_lt nonempty) ?_
        · rw [extent]
          exact List.mem_singleton_self _
        · dsimp only
          omega
      have := balance slot.stop
      rw [canonical.coverage_stop isSlot] at this
      omega
    rw [extent, unguarded, span_gapFilling nonempty]
    rfl
  have lostExtent : Registry.extent guard lost = lost.map Allocation.span := by
    rw [List.map_eq_flatMap]
    exact List.flatMap_congr extents
  have nodup : (lost.map Allocation.span).Nodup := by
    have differ := List.pairwise_append.mp tiledShown.starts_differ
    have differLost := (List.pairwise_append.mp
      ((split.pairwise_iff fun differ => differ.symm).mpr differ.1)).2.1
    exact List.pairwise_map.mpr
      (differLost.imp fun differ same => differ (congrArg Interval.start same))
  have spans : ∀ slot ∈ lost.map Allocation.span, slot ∈ air.slots.slots := by
    intro slot member
    obtain ⟨a, isLost, rfl⟩ := List.mem_map.mp member
    rw [← tiled.span_gapFillings]
    exact List.mem_map_of_mem (freed a isLost)
  have slotsNodup : air.slots.slots.Nodup :=
    canonical.apart.imp_of_mem fun {i j} memberI _ apart same => by
      have := canonical.nonempty i memberI
      rw [same] at this apart
      omega
  refine tiledShown.wellFormed.canonical.eq_of_coverage (canonical.sublist List.filter_sublist)
    fun t => ?_
  have whole := coverage_perm (perm_append_filter nodup slotsNodup spans) t
  have := balance t
  rw [coverage_append] at whole
  rw [lostExtent] at this
  omega

/-- Marks of announcement aside, `air` has the allocations of `shown`, without some and with
new training periods. -/
def Succeeds (shown air : Airtime) : Prop :=
  ∀ a ∈ air.unmarked.registry, a ∈ shown.unmarked.registry ∨ a.beamforming.isSome

theorem beamforming_gapFilling {a : Allocation} (filling : a ∈ air.gapFillings) :
    a.beamforming = none := by
  obtain ⟨slot, _, rfl⟩ := List.mem_map.mp filling
  rfl

/-- An old schedule lists what has become of its airtime exactly if nothing has been added and
whatever has been lost fills a free slot. -/
theorem schedule_lists_iff (tiledShown : shown.Tiled guard dti) (tiled : air.Tiled guard dti)
    (succeeds : shown.Succeeds air) :
    Lists shown.schedule air ↔
      (∀ a ∈ air.unmarked.registry, a ∈ shown.unmarked.registry) ∧
      ∀ a ∈ shown.unmarked.registry, a ∈ air.unmarked.registry ∨ a ∈ air.gapFillings := by
  have entries := shown.schedule_unmarked_perm
  constructor
  · intro lists
    have same := entries.symm.trans lists
    refine ⟨fun a member => ?_, fun a member => ?_⟩
    · rcases List.mem_append.mp (same.mem_iff.mpr (List.mem_append_left _ member)) with
        registered | filling
      · exact registered
      · refine (succeeds a member).resolve_right ?_
        rw [beamforming_gapFilling filling]
        simp
    · exact List.mem_append.mp (same.mem_iff.mp (List.mem_append_left _ member))
  · rintro ⟨kept, freed⟩
    have nodup := tiled.unmarked.nodup_entries
    have nodupShown := tiledShown.unmarked.nodup_entries
    have split := perm_append_filter (List.nodup_append.mp nodup).1
      (List.nodup_append.mp nodupShown).1 kept
    have lost : ∀ a ∈ shown.unmarked.registry.filter (· ∉ air.unmarked.registry),
        a ∈ shown.unmarked.registry ∧ a ∈ air.unmarked.gapFillings := by
      intro a member
      obtain ⟨old, gone⟩ := List.mem_filter.mp member
      exact ⟨old, (freed a old).resolve_left (of_decide_eq_true gone)⟩
    have slots := tiledShown.unmarked.slots_of_lost tiled.unmarked split fun a member =>
      (lost a member).2
    refine entries.trans ((List.perm_ext_iff_of_nodup nodupShown nodup).mpr fun a => ?_)
    rw [List.mem_append, List.mem_append]
    constructor
    · rintro (old | filling)
      · exact freed a old
      · obtain ⟨slot, isSlot, rfl⟩ := List.mem_map.mp filling
        rw [slots] at isSlot
        exact Or.inr (List.mem_map_of_mem (List.mem_filter.mp isSlot).1)
    · rintro (registered | filling)
      · exact Or.inl (kept a registered)
      · obtain ⟨slot, isSlot, rfl⟩ := List.mem_map.mp filling
        by_cases filled : slot ∈ (shown.unmarked.registry.filter
            (· ∉ air.unmarked.registry)).map Allocation.span
        · obtain ⟨b, isLost, spans⟩ := List.mem_map.mp filled
          obtain ⟨other, otherSlot, rfl⟩ := List.mem_map.mp (lost b isLost).2
          rw [span_gapFilling (tiled.wellFormed.nonempty other otherSlot)] at spans
          subst spans
          exact Or.inl (lost _ isLost).1
        · refine Or.inr (List.mem_map_of_mem ?_)
          rw [slots]
          exact List.mem_filter.mpr ⟨isSlot, decide_eq_true filled⟩

end Airtime
end BeaconScheduler
