import BeaconScheduler.Registry
import BeaconScheduler.Proofs.Counters
import BeaconScheduler.Proofs.Coverage

/-!
# The time that allocations occupy

`extent` reads the occupied intervals of an allocation off its fields in plain
arithmetic. The counted version `occupied` has a result exactly if every interval of the
extent ends within a 32-bit counter, and the result is the extent
(`occupied_eq_ok_iff`); the same holds for a whole registry.
-/

set_option autoImplicit false

namespace BeaconScheduler

namespace Allocation

open Counter

variable {a : Allocation} {guard : Nat}

/-- Guard time, and protection time of a training period. -/
def tailLength (a : Allocation) (guard : Nat) : Nat :=
  if a.beamforming.isSome then guard + beamformingProtection else guard

def blockExtent (a : Allocation) (guard i : Nat) : Interval where
  start := a.start + i * a.blockPeriod
  stop := a.start + i * a.blockPeriod + a.blockDuration + a.tailLength guard

def spanExtent (a : Allocation) (guard : Nat) : Interval where
  start := a.start
  stop := a.start + a.blockDuration * a.blocks + a.tailLength guard

/-- One interval per block of a periodic allocation, a single one otherwise. -/
def extent (a : Allocation) (guard : Nat) : List Interval :=
  if a.isPeriodic then
    (List.range a.blocks).map (a.blockExtent guard)
  else
    [a.spanExtent guard]

theorem isPeriodic_iff : a.isPeriodic = true ↔ 1 < a.blocks ∧ 0 < a.blockPeriod := by
  simp [isPeriodic]

theorem tail_eq_ok_iff {tail : Nat} :
    a.tail guard = .ok tail ↔
      tail = a.tailLength guard ∧ (a.beamforming.isSome → a.tailLength guard < 2 ^ 32) := by
  unfold Allocation.tail tailLength
  cases a.beamforming with
  | none => simp [eq_comm]
  | some sweeps =>
      simp only [Option.isSome_some, if_true, true_implies]
      rw [add_eq_ok_iff]
      constructor
      · rintro ⟨bound, rfl⟩
        exact ⟨rfl, bound⟩
      · rintro ⟨rfl, bound⟩
        exact ⟨bound, rfl⟩

theorem blockInterval_eq_ok_iff (period : 0 < a.blockPeriod) (i : Nat) (interval : Interval) :
    a.blockInterval (a.tailLength guard) i = .ok interval ↔
      interval = a.blockExtent guard i ∧ (a.blockExtent guard i).stop < 2 ^ 32 := by
  unfold blockInterval blockStart spacing blockExtent
  rw [if_pos period]
  simp only [bind_eq_ok_iff, add_eq_ok_iff, mul_eq_ok_iff, pure_eq_ok_iff]
  constructor
  · rintro ⟨start, ⟨product, ⟨_, rfl⟩, _, rfl⟩, last, ⟨_, rfl⟩, stop, ⟨bound, rfl⟩, rfl⟩
    exact ⟨rfl, bound⟩
  · rintro ⟨rfl, bound⟩
    exact ⟨_, ⟨_, ⟨by omega, rfl⟩, by omega, rfl⟩, _, ⟨by omega, rfl⟩, _, ⟨bound, rfl⟩, rfl⟩

theorem spanStop_eq_ok_iff (single : a.isPeriodic = false) {intervals : List Interval} :
    (do let stop ← add32 (← a.stop) (a.tailLength guard); return [⟨a.start, stop⟩]) =
        Except.ok intervals ↔
      intervals = [a.spanExtent guard] ∧ (a.spanExtent guard).stop < 2 ^ 32 := by
  unfold Allocation.stop spanExtent
  rw [if_neg (by simp [single])]
  simp only [bind_eq_ok_iff, add_eq_ok_iff, mul_eq_ok_iff, pure_eq_ok_iff]
  constructor
  · rintro ⟨stop, ⟨product, ⟨_, rfl⟩, _, rfl⟩, _, ⟨bound, rfl⟩, rfl⟩
    exact ⟨rfl, bound⟩
  · rintro ⟨rfl, bound⟩
    exact ⟨_, ⟨_, ⟨by omega, rfl⟩, by omega, rfl⟩, _, ⟨bound, rfl⟩, rfl⟩

/-- Every block of a fitting allocation ends where a counter can say. -/
def Fits (guard : Nat) (a : Allocation) : Prop :=
  ∀ i ∈ a.extent guard, i.stop < 2 ^ 32

theorem extent_ne_nil (a : Allocation) (guard : Nat) : ∃ i ∈ a.extent guard,
    a.tailLength guard ≤ i.stop := by
  unfold extent
  split_ifs with periodic
  · have several := (isPeriodic_iff.mp periodic).1
    refine ⟨a.blockExtent guard 0, List.mem_map_of_mem (List.mem_range.mpr (by omega)), ?_⟩
    exact Nat.le_add_left _ _
  · exact ⟨a.spanExtent guard, List.mem_singleton_self _, Nat.le_add_left _ _⟩

theorem occupied_eq_ok_iff {intervals : List Interval} :
    a.occupied guard = .ok intervals ↔ intervals = a.extent guard ∧ a.Fits guard := by
  have body : ∀ list : List Interval,
      (if a.isPeriodic then (List.range a.blocks).mapM (a.blockInterval (a.tailLength guard))
        else do let stop ← add32 (← a.stop) (a.tailLength guard); return [⟨a.start, stop⟩]) =
          Except.ok list ↔ list = a.extent guard ∧ a.Fits guard := by
    intro list
    unfold Fits extent
    by_cases periodic : a.isPeriodic = true
    · have period := (isPeriodic_iff.mp periodic).2
      rw [if_pos periodic, if_pos periodic, mapM_eq_ok_iff (blockInterval_eq_ok_iff period)]
      simp
    · rw [if_neg periodic, if_neg periodic,
        spanStop_eq_ok_iff (Bool.not_eq_true _ ▸ periodic)]
      simp
  unfold occupied
  rw [bind_eq_ok_iff]
  constructor
  · rintro ⟨tail, tailOk, rest⟩
    obtain ⟨rfl, _⟩ := tail_eq_ok_iff.mp tailOk
    exact (body intervals).mp rest
  · intro fits
    obtain ⟨i, member, bound⟩ := a.extent_ne_nil guard
    have := fits.2 i member
    exact ⟨a.tailLength guard, tail_eq_ok_iff.mpr ⟨rfl, fun _ => by omega⟩,
      (body intervals).mpr fits⟩

theorem extent_single {key : Key} {kind : Kind} {isStatic : Bool} {start duration : Nat} :
    (single key kind isStatic start duration).extent guard =
      [⟨start, start + duration + guard⟩] := by
  simp [extent, single, isPeriodic, spanExtent, tailLength]

end Allocation

namespace Registry

open Counter BeaconScheduler.Interval

variable {registry : Registry} {guard : Nat}

def extent (guard : Nat) (registry : Registry) : List Interval :=
  registry.flatMap (·.extent guard)

theorem occupied_eq_ok_iff {intervals : List Interval} :
    Registry.occupied guard registry = .ok intervals ↔
      intervals = Registry.extent guard registry ∧ ∀ a ∈ registry, a.Fits guard := by
  induction registry generalizing intervals with
  | nil => simp [Registry.occupied, Registry.extent, eq_comm]
  | cons a rest ih =>
      rw [Registry.occupied, bind_eq_ok_iff]
      simp only [bind_eq_ok_iff, Allocation.occupied_eq_ok_iff, ih, pure_eq_ok_iff,
        List.forall_mem_cons]
      constructor
      · rintro ⟨_, ⟨rfl, fits⟩, _, ⟨rfl, fitsRest⟩, rfl⟩
        exact ⟨rfl, fits, fitsRest⟩
      · rintro ⟨rfl, fits, fitsRest⟩
        exact ⟨_, ⟨rfl, fits⟩, _, ⟨rfl, fitsRest⟩, rfl⟩

@[simp] theorem extent_nil : Registry.extent guard [] = [] := rfl

@[simp] theorem extent_cons (a : Allocation) (rest : Registry) :
    Registry.extent guard (a :: rest) = a.extent guard ++ Registry.extent guard rest := rfl

@[simp] theorem extent_append (first second : Registry) :
    Registry.extent guard (first ++ second) =
      Registry.extent guard first ++ Registry.extent guard second :=
  List.flatMap_append

theorem extent_perm {first second : Registry} (perm : first.Perm second) :
    (Registry.extent guard first).Perm (Registry.extent guard second) :=
  perm.flatMap_right _

theorem mem_extent_iff {i : Interval} :
    i ∈ Registry.extent guard registry ↔ ∃ a ∈ registry, i ∈ a.extent guard :=
  List.mem_flatMap

theorem extent_map {f : Allocation → Allocation}
    (same : ∀ a : Allocation, (f a).extent guard = a.extent guard) (registry : Registry) :
    Registry.extent guard (registry.map f) = Registry.extent guard registry := by
  unfold Registry.extent
  rw [List.flatMap_map]
  simp only [same]

@[simp] theorem extent_markAnnounced :
    Registry.extent guard registry.markAnnounced = Registry.extent guard registry :=
  extent_map (f := fun a => { a with announced := true }) (fun _ => rfl) registry

end Registry
end BeaconScheduler
