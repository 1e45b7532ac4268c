import BeaconScheduler.Proofs.Renewal
import BeaconScheduler.Proofs.Sums
import BeaconScheduler.Proofs.Validity

/-!
# Static allocations are always placed

Validation compares the statics of a configuration in the order of their starts, where it
suffices to look at neighbours (`Interval.firstOverlap?_sort_eq_none_iff`).  Construction
claims their airtime one after another in the order of the configuration.  Both ask whether any
microsecond is wanted twice, so every static of a valid configuration is registered
(`placeStatics_registers`), and the first schedule lists all of them (`start_presents`).
-/

set_option autoImplicit false

namespace BeaconScheduler

open Counter BeaconScheduler.Interval

/-! ## What validation says -/

namespace Config

variable {config : Config}

/-- The statics have room next to each other in the DTI. -/
structure Placeable (guard dti : Nat) (statics : List Static) : Prop where
  nonempty : ∀ a ∈ statics, (a.span guard).start < (a.span guard).stop
  inside : ∀ a ∈ statics, (a.span guard).stop ≤ dti
  once : ∀ t, coverage (statics.map (Static.span guard)) t ≤ 1

theorem Valid.placeable (valid : config.Valid) :
    Placeable config.limits.guard config.beacon.room config.statics where
  nonempty := by
    intro a member
    exact (valid.statics a member).nonempty
  inside := by
    intro a member
    exact (valid.statics a member).inside
  once := by
    apply (pairwise_disjoint_iff (nonempty_spans valid.statics)).mp
    exact (pairwise_disjoint_spans_iff valid.statics).mpr valid.apart

/-! ## What construction does -/

def Static.allocation (a : Static) : Allocation :=
  { Allocation.single a.key a.kind true a.start a.blockDuration with blocks := a.blocks }

theorem Static.extent_allocation (guard : Nat) (a : Static) :
    a.allocation.extent guard = [a.span guard] := by
  simp [Static.allocation, Allocation.extent, Allocation.isPeriodic, Allocation.single,
    Allocation.spanExtent, Allocation.tailLength, Static.span]

theorem extent_allocations (guard : Nat) (statics : List Static) :
    Registry.extent guard (statics.map Static.allocation) = statics.map (Static.span guard) := by
  induction statics with
  | nil => rfl
  | cons a rest ih =>
      rw [List.map_cons, Registry.extent_cons, Static.extent_allocation, ih]
      rfl

end Config

namespace Airtime

variable {air : Airtime} {terms : Terms} {dti : Nat} {a : Config.Static}

theorem reserve_static (tiled : air.Tiled terms.guard dti) (small : dti < 2 ^ 32)
    (nonempty : (a.span terms.guard).start < (a.span terms.guard).stop)
    (inside : (a.span terms.guard).stop ≤ dti)
    (apart : ∀ t, coverage (Registry.extent terms.guard air.registry) t +
      coverage [a.span terms.guard] t ≤ 1) :
    ∃ stop after, (air.reserve terms a.allocation).value = .ok (.ok stop, after) ∧
      after.registry = air.registry ++ [a.allocation] := by
  have extent := Config.Static.extent_allocation terms.guard a
  have fits : a.allocation.Fits terms.guard := by
    rw [Allocation.Fits, extent]
    exact List.forall_mem_singleton.mpr (Nat.lt_of_le_of_lt inside small)
  have within : ∀ t, coverage (a.allocation.extent terms.guard) t ≤ coverage air.slots.slots t := by
    intro t
    have free := tiled.once t
    have wanted := apart t
    rw [extent]
    rw [coverage_singleton] at wanted ⊢
    split_ifs at free wanted ⊢ <;> omega
  obtain ⟨stop, after, reserved⟩ := reserve_of_coverage fits tiled.wellFormed
    (by rw [extent]; exact List.forall_mem_singleton.mpr nonempty) within
  rcases reserve_cases reserved with ⟨_, refused, _⟩ | ⟨_, adds⟩
  · cases refused
  · exact ⟨stop, after, reserved, adds.registered⟩

end Airtime

namespace Scheduler

variable {terms : Terms} {air : Airtime} {dti : Nat} {statics : List Config.Static}
  {config : Config}

theorem placeStatics_registers (tiled : air.Tiled terms.guard dti) (small : dti < 2 ^ 32)
    (nonempty : ∀ a ∈ statics, (a.span terms.guard).start < (a.span terms.guard).stop)
    (inside : ∀ a ∈ statics, (a.span terms.guard).stop ≤ dti)
    (apart : ∀ t, coverage (Registry.extent terms.guard air.registry) t +
      coverage (statics.map (Config.Static.span terms.guard)) t ≤ 1) :
    ∃ after, (placeStatics terms air statics).value = .ok after ∧
      after.registry = air.registry ++ statics.map Config.Static.allocation := by
  induction statics generalizing air with
  | nil => exact ⟨air, rfl, (List.append_nil _).symm⟩
  | cons a rest ih =>
      obtain ⟨own, nonemptyRest⟩ := List.forall_mem_cons.mp nonempty
      obtain ⟨ends, insideRest⟩ := List.forall_mem_cons.mp inside
      have split : ∀ t, coverage ((a :: rest).map (Config.Static.span terms.guard)) t =
          coverage [a.span terms.guard] t +
            coverage (rest.map (Config.Static.span terms.guard)) t := fun t => by
        rw [← coverage_append]
        rfl
      obtain ⟨stop, middle, reserved, registered⟩ := Airtime.reserve_static tiled small own ends
        fun t => by
          have := apart t
          rw [split t] at this
          omega
      have apartRest : ∀ t, coverage (Registry.extent terms.guard middle.registry) t +
          coverage (rest.map (Config.Static.span terms.guard)) t ≤ 1 := by
        intro t
        have := apart t
        rw [split t] at this
        rw [registered, Registry.extent_append, coverage_append, Registry.extent_cons,
          Config.Static.extent_allocation, Registry.extent_nil, List.append_nil]
        omega
      obtain ⟨after, placed, registeredRest⟩ :=
        ih (tiled.reserve terms reserved) nonemptyRest insideRest apartRest
      refine ⟨after, ?_, ?_⟩
      · rw [placeStatics, Noted.value_bind]
        rw [show (air.reserveBlocks terms a.key a.kind true a.start a.blockDuration
          a.blocks).value = .ok (.ok stop, middle) from reserved, ok_bind]
        exact placed
      · rw [registeredRest, registered, List.append_assoc]
        rfl

theorem placeStatics_sublist {after : Airtime}
    (placed : (placeStatics terms air statics).value = .ok after) :
    ∃ part : List Config.Static, part.Sublist statics ∧
      after.registry = air.registry ++ part.map Config.Static.allocation := by
  induction statics generalizing air with
  | nil =>
      obtain rfl := Except.ok.inj placed
      exact ⟨[], .slnil, (List.append_nil _).symm⟩
  | cons a rest ih =>
      simp only [placeStatics, Noted.value_bind, bind_eq_ok_iff] at placed
      obtain ⟨⟨result, middle⟩, reserved, placed⟩ := placed
      rcases Airtime.reserve_cases reserved with ⟨e, rfl, rfl⟩ | ⟨⟨stop, rfl⟩, adds⟩
      · obtain ⟨part, sublist, registered⟩ := ih placed
        exact ⟨part, sublist.cons a, registered⟩
      · obtain ⟨part, sublist, registered⟩ := ih placed
        refine ⟨a :: part, sublist.cons_cons a, ?_⟩
        rw [registered, adds.registered, List.append_assoc]
        rfl

theorem start_sublist {s : Scheduler} (started : (start config).value = .ok s) :
    config.require = .ok () ∧ ∃ part : List Config.Static, part.Sublist config.statics ∧
      s.air.registry = Registry.markAnnounced (part.map Config.Static.allocation) := by
  simp only [start, Noted.value_bind, Noted.value_lift, Noted.value_note, ok_bind,
    bind_eq_ok_iff, Noted.value_pure] at started
  obtain ⟨_, required, header, _, air, placed, _, refreshed, last⟩ := started
  have whole : (⟨[], .whole (config.beacon.interval - header)⟩ : Airtime).Tiled
      config.limits.guard (config.beacon.interval - header) := Tiling.whole _ _
  obtain rfl := Except.ok.inj last
  obtain rfl := refresh_eq_ok config.limits.guard (placeStatics_tiled whole placed) refreshed
  obtain ⟨part, sublist, registered⟩ := placeStatics_sublist placed
  exact ⟨required, part, sublist, congrArg Registry.markAnnounced registered⟩

/-- A scheduler starts on every valid configuration, and shows an airtime in which the statics
are registered in their order, and nothing else. -/
theorem start_registers (valid : config.validate = .ok (.ok ()))
    (counted : config.beacon.interval < 2 ^ 32) :
    ∃ s header air, (start config).value = .ok s ∧ config.beacon.header = .ok header ∧
      s.timing.dti = config.beacon.interval - header ∧ s.limits = config.limits ∧
      s.Shows air ∧ air.registry = config.statics.map Config.Static.allocation := by
  obtain ⟨fits, declared⟩ := Config.validate_eq_ok_iff.mp valid
  obtain ⟨header, length, placeable⟩ : ∃ header, config.beacon.header = .ok header ∧
      Config.Placeable config.limits.guard (config.beacon.interval - header) config.statics :=
    ⟨_, Config.Beacon.header_of_fits fits, declared.placeable⟩
  have small : config.beacon.interval - header < 2 ^ 32 := by omega
  have required : config.require = .ok () := Config.require_eq_ok_iff.mpr valid
  let terms : Terms := { config.limits with interval := config.beacon.interval }
  have whole : (⟨[], .whole (config.beacon.interval - header)⟩ : Airtime).Tiled terms.guard
      (config.beacon.interval - header) := Tiling.whole _ _
  obtain ⟨air, placed, registered⟩ := placeStatics_registers whole small placeable.nonempty
    placeable.inside fun t => by
      rw [Registry.extent_nil, coverage_nil, Nat.zero_add]
      exact placeable.once t
  have tiled := placeStatics_tiled whole placed
  have started : Ends (start config).value := by
    simp only [start, Noted.value_bind, Noted.value_lift, Noted.value_note, ok_bind, required,
      length]
    rw [placed, ok_bind, ends_bind_iff]
    simp only [Noted.value_pure, ends_ok, and_true]
    exact refresh_ends tiled small
  obtain ⟨s, started⟩ := started
  have steps := started
  simp only [start, Noted.value_bind, Noted.value_lift, Noted.value_note, ok_bind, required,
    length] at steps
  rw [placed, ok_bind, bind_eq_ok_iff] at steps
  obtain ⟨_, refreshed, last⟩ := steps
  obtain rfl := Except.ok.inj last
  obtain rfl := refresh_eq_ok config.limits.guard tiled refreshed
  exact ⟨_, header, air, started, length, rfl, rfl, ⟨tiled, rfl, rfl, rfl⟩, registered⟩

/-- All statics of a valid configuration are registered and announced, and listed by the first
schedule. -/
theorem start_presents (valid : config.validate = .ok (.ok ()))
    (counted : config.beacon.interval < 2 ^ 32) :
    ∃ s header, (start config).value = .ok s ∧ config.beacon.header = .ok header ∧
      s.timing.dti = config.beacon.interval - header ∧
      s.Presents config.limits.guard (config.beacon.interval - header)
        (config.statics.map Config.Static.allocation)
        (config.statics.map (Config.Static.span config.limits.guard)) := by
  obtain ⟨s, header, air, started, length, dti, limits, shows, registered⟩ :=
    start_registers valid counted
  have presents := shows.presents
  rw [registered, Config.extent_allocations, limits, dti] at presents
  exact ⟨s, header, started, length, dti, presents⟩

/-- Three statics out of order that touch each other, guard times included; the last one ends
with the DTI. -/
def adjacentStatics : Config :=
  { statics :=
      [⟨⟨9, 0, 255⟩, .cbap, 50000, 20000, 2⟩, ⟨⟨1, 0, 4⟩, .servicePeriod, 90010, 11380, 1⟩,
        ⟨⟨1, 0, 4⟩, .servicePeriod, 49490, 100, 5⟩] }

theorem adjacentStatics_presents :
    ∃ s, (start adjacentStatics).value = .ok s ∧
      s.Presents 10 101400 (adjacentStatics.statics.map Config.Static.allocation)
        [⟨50000, 90010⟩, ⟨90010, 101400⟩, ⟨49490, 50000⟩] := by
  obtain ⟨s, header, started, counted, _, presents⟩ :=
    @start_presents adjacentStatics (by decide +kernel) (by decide)
  obtain rfl := Except.ok.inj counted
  exact ⟨s, started, presents⟩

end Scheduler
end BeaconScheduler
