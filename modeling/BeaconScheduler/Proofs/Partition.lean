import BeaconScheduler.Proofs.Carving

/-!
# Free and occupied time divide the DTI

`Tiling` says of free slots and a list of allocations that every microsecond of the DTI is
covered exactly once, by a slot or by an occupied interval, and that nothing outside the DTI
is covered.  It is a carving of the whole DTI (`Tiling.iff_carving`), so every operation on
airtime preserves it: what is reserved or granted (`Tiled.add`), given back
(`Tiling.giveBack`), shortened (`Tiled.shorten`) or made anew for a DTI of another length
(`Tiling.complement`).
-/

set_option autoImplicit false

namespace BeaconScheduler

open Counter BeaconScheduler.Interval

/-- The free slots and the time of the holders, of whom some may have left the registry. -/
structure Tiling (guard dti : Nat) (free : FreeSlots) (holders : Registry) : Prop where
  wellFormed : free.WellFormed
  length : free.dti = dti
  fits : ∀ a ∈ holders, a.Fits guard
  nonempty : ∀ a ∈ holders, ∀ i ∈ a.extent guard, i.start < i.stop
  once : ∀ t, coverage free.slots t + coverage (Registry.extent guard holders) t =
    if t < dti then 1 else 0

def Airtime.announced (air : Airtime) : Airtime :=
  { air with registry := air.registry.markAnnounced }

/-- Free slots and registered allocations divide a DTI of this length. -/
def Airtime.Tiled (guard dti : Nat) (air : Airtime) : Prop :=
  Tiling guard dti air.slots air.registry

namespace Tiling

variable {guard dti : Nat} {free : FreeSlots} {holders : Registry}

theorem iff_carving :
    Tiling guard dti free holders ↔ Carving guard (.whole dti) free holders := by
  constructor
  · intro tiling
    refine ⟨tiling.wellFormed, tiling.length, tiling.fits, tiling.nonempty, fun t => ?_⟩
    rw [tiling.once t, FreeSlots.coverage_whole]
  · intro carving
    refine ⟨carving.wellFormed, carving.length, carving.fits, carving.nonempty, fun t => ?_⟩
    rw [carving.once t, FreeSlots.coverage_whole]

theorem whole (guard dti : Nat) : Tiling guard dti (.whole dti) [] :=
  iff_carving.mpr (.refl guard (FreeSlots.wellFormed_whole dti))

theorem eq_whole (tiling : Tiling guard dti free []) : free = .whole dti :=
  (iff_carving.mp tiling).eq_whole (FreeSlots.wellFormed_whole dti)

theorem perm {others : Registry} (tiling : Tiling guard dti free holders)
    (perm : others.Perm holders) : Tiling guard dti free others :=
  iff_carving.mpr ((iff_carving.mp tiling).perm perm)

theorem markAnnounced (tiling : Tiling guard dti free holders) :
    Tiling guard dti free (Registry.markAnnounced holders) where
  wellFormed := tiling.wellFormed
  length := tiling.length
  fits b member := by
    obtain ⟨c, original, rfl⟩ := List.mem_map.mp member
    exact tiling.fits c original
  nonempty b member := by
    obtain ⟨c, original, rfl⟩ := List.mem_map.mp member
    exact tiling.nonempty c original
  once t := by rw [Registry.extent_markAnnounced, tiling.once t]

theorem coverage_le_one (tiling : Tiling guard dti free holders) (t : Nat) :
    coverage (Registry.extent guard holders) t ≤ 1 := by
  have := tiling.once t
  split_ifs at this <;> omega

theorem isFree_iff (tiling : Tiling guard dti free holders) (t : Nat) :
    free.Free t ↔
      t < dti ∧ ∀ i ∈ Registry.extent guard holders, ¬ (i.start ≤ t ∧ t < i.stop) := by
  have once := tiling.once t
  rw [FreeSlots.free_iff, ← coverage_eq_zero_iff]
  split_ifs at once <;> omega

theorem nonempty_extent (tiling : Tiling guard dti free holders) :
    ∀ i ∈ Registry.extent guard holders, i.start < i.stop := by
  intro i member
  obtain ⟨b, holds, occupies⟩ := Registry.mem_extent_iff.mp member
  exact tiling.nonempty b holds i occupies

theorem inside (tiling : Tiling guard dti free holders) :
    ∀ i ∈ Registry.extent guard holders, i.stop ≤ dti := by
  intro i member
  have nonempty := tiling.nonempty_extent i member
  have covered := coverage_pos_of_mem (t := i.stop - 1) member (by omega) (by omega)
  have := tiling.once (i.stop - 1)
  split_ifs at this <;> omega

theorem disjoint (tiling : Tiling guard dti free holders) :
    (Registry.extent guard holders).Pairwise Interval.Disjoint :=
  (pairwise_disjoint_iff tiling.nonempty_extent).mpr tiling.coverage_le_one

/-! ## Returns -/

theorem giveBack {a : Allocation} {owed : Registry} (terms : Terms) (air : Airtime)
    (tiling : Tiling terms.guard dti air.slots (a :: owed)) :
    ∃ slots : FreeSlots, (air.giveBack terms a).value = .ok (.ok (), { air with slots }) ∧
      Tiling terms.guard dti slots owed := by
  obtain ⟨slots, given, carving⟩ :=
    (iff_carving.mp tiling).giveBack terms air (FreeSlots.wellFormed_whole dti)
  exact ⟨slots, given, iff_carving.mpr carving⟩

/-! ## A DTI of another length -/

theorem complement {former : Nat} {free : FreeSlots} {dropped kept : Registry}
    (tiling : Tiling guard former free (dropped ++ kept))
    (inside : ∀ a ∈ kept, ∀ i ∈ a.extent guard, i.stop ≤ dti) :
    Tiling guard dti (.complement dti (Registry.extent guard kept)) kept := by
  have nonempty : ∀ b ∈ kept, ∀ i ∈ b.extent guard, i.start < i.stop := fun b member =>
    tiling.nonempty b (List.mem_append_right _ member)
  obtain ⟨wellFormed, covered⟩ := FreeSlots.complement_spec dti fun i member => by
    obtain ⟨b, holds, occupies⟩ := Registry.mem_extent_iff.mp member
    exact nonempty b holds i occupies
  refine ⟨wellFormed, rfl, fun b member => tiling.fits b (List.mem_append_right _ member),
    nonempty, fun t => ?_⟩
  have atMost := tiling.coverage_le_one t
  rw [Registry.extent_append, coverage_append] at atMost
  have outside : dti ≤ t → coverage (Registry.extent guard kept) t = 0 := by
    intro beyond
    rw [coverage_eq_zero_iff]
    intro i member held
    obtain ⟨b, holds, occupies⟩ := Registry.mem_extent_iff.mp member
    have := inside b holds i occupies
    omega
  rw [covered t]
  split_ifs <;> omega

end Tiling

namespace Registry

variable {guard dti : Nat} {registry dropped kept : Registry}

theorem purge_perm (purged : registry.purge = (dropped, kept)) :
    (dropped ++ kept).Perm registry := by
  rw [Registry.purge, List.partition_eq_filter_filter] at purged
  obtain ⟨rfl, rfl⟩ := Prod.mk.inj purged
  exact List.filter_append_perm _ _

theorem exceeds_eq_ok {a : Allocation} {beyond : Bool}
    (exceeds : Registry.exceeds dti guard a = .ok beyond) :
    beyond = (a.extent guard).any fun i => dti < i.stop := by
  simp only [Registry.exceeds, bind_eq_ok_iff, Allocation.occupied_eq_ok_iff,
    pure_eq_ok_iff] at exceeds
  obtain ⟨_, ⟨rfl, _⟩, rfl⟩ := exceeds
  rfl

theorem splitBeyond_eq_ok (split : Registry.splitBeyond dti guard registry = .ok (dropped, kept)) :
    (dropped ++ kept).Perm registry ∧ ∀ a ∈ kept, ∀ i ∈ a.extent guard, i.stop ≤ dti := by
  induction registry generalizing dropped kept with
  | nil =>
      obtain ⟨rfl, rfl⟩ := Prod.mk.inj (Except.ok.inj split)
      exact ⟨.nil, by simp⟩
  | cons a rest ih =>
      simp only [Registry.splitBeyond, bind_eq_ok_iff, pure_eq_ok_iff] at split
      obtain ⟨beyond, exceeds, ⟨droppedRest, keptRest⟩, splitRest, joined⟩ := split
      obtain ⟨perm, inside⟩ := ih splitRest
      have outcome := exceeds_eq_ok exceeds
      split_ifs at joined with drops
      · obtain ⟨rfl, rfl⟩ := Prod.mk.inj joined
        exact ⟨perm.cons a, inside⟩
      · obtain ⟨rfl, rfl⟩ := Prod.mk.inj joined
        refine ⟨List.perm_middle.trans (perm.cons a), List.forall_mem_cons.mpr ⟨?_, inside⟩⟩
        intro i member
        rw [outcome, List.any_eq_true] at drops
        by_contra exceeded
        exact drops ⟨i, member, by simpa using exceeded⟩

end Registry

namespace Airtime.Tiled

variable {guard dti : Nat} {air after : Airtime} {a : Allocation}

/-! ## Additions -/

theorem add (tiled : air.Tiled guard dti) (adds : air.Adds guard a after) :
    after.Tiled guard dti := by
  rw [Tiled, adds.registered]
  exact Tiling.iff_carving.mpr ((Tiling.iff_carving.mp tiled).add adds.fits adds.claimed)

theorem reserve {result : Except SlotError Nat}
    (terms : Terms) (tiled : air.Tiled terms.guard dti)
    (reserved : (air.reserve terms a).value = .ok (result, after)) :
    after.Tiled terms.guard dti := by
  rcases Airtime.reserve_cases reserved with ⟨_, _, rfl⟩ | ⟨_, adds⟩
  · exact tiled
  · exact tiled.add adds

theorem reserveWholeDti {key : Allocation.Key} {result : Except SlotError Nat}
    (terms : Terms) (tiled : air.Tiled terms.guard dti)
    (reserved : (air.reserveWholeDti terms key).value = .ok (result, after)) :
    after.Tiled terms.guard dti := by
  rcases Airtime.reserveWholeDti_cases reserved with ⟨_, _, rfl⟩ | ⟨_, adds⟩
  · exact tiled
  · exact tiled.add adds

theorem reserveTraining {source dest : Aid} {duration : Nat}
    {beamforming : Allocation.Beamforming} {result : Except SlotError Nat}
    (terms : Terms) (tiled : air.Tiled terms.guard dti)
    (reserved : (air.reserveTraining terms source dest duration beamforming).value =
      .ok (result, after)) :
    after.Tiled terms.guard dti := by
  rcases Airtime.reserveTraining_cases reserved with ⟨_, _, rfl⟩ | ⟨_, _, adds⟩
  · exact tiled
  · exact tiled.add adds

/-! ## Shorter blocks -/

theorem shorten {key : Allocation.Key} {current : Allocation} {duration : Nat}
    (tiled : air.Tiled guard dti)
    (shortens : air.Shortens guard key current duration after) :
    after.Tiled guard dti := by
  obtain ⟨earlier, later, split, replaced, _⟩ := Registry.split_of_find? shortens.found
  rw [Tiled, split] at tiled
  rw [Tiled, shortens.registered, replaced]
  exact Tiling.iff_carving.mpr ((Tiling.iff_carving.mp tiled).shorten shortens)

theorem decide {policy : Policy} {terms : Terms} {now : Time} {request : AdmissionRequest}
    {outcome : Outcome} (tiled : air.Tiled terms.guard dti)
    (decided : (policy.decide terms now request air).value = .ok (outcome, after)) :
    after.Tiled terms.guard dti := by
  rcases Policy.decide_cases decided with ⟨_, _, rfl⟩ | ⟨_, _, _, _, adds⟩ |
    ⟨_, _, _, _, _, ⟨_, rfl⟩ | shortens⟩
  · exact tiled
  · exact tiled.add adds
  · exact tiled
  · exact tiled.shorten shortens

theorem owes {key : Allocation.Key} (tiled : air.Tiled guard dti)
    (found : air.registry.find? key = some a) :
    Tiling guard dti air.slots (a :: air.registry.erase key) := by
  obtain ⟨earlier, later, split, _, erased⟩ := Registry.split_of_find? found
  refine Tiling.perm tiled ?_
  rw [erased, split]
  exact List.perm_middle.symm

theorem announced (tiled : air.Tiled guard dti) : air.announced.Tiled guard dti :=
  Tiling.markAnnounced tiled

end Airtime.Tiled

/-! ## The partition in plain terms -/

/-- Free slots and occupied intervals divide the DTI, one microsecond after the other. -/
structure Airtime.Divides (guard dti : Nat) (air : Airtime) (occupied : List Interval) : Prop where
  occupies : Registry.occupied guard air.registry = .ok occupied
  length : air.slots.dti = dti
  slots : air.slots.WellFormed
  nonempty : ∀ i ∈ occupied, i.start < i.stop
  inside : ∀ i ∈ occupied, i.stop ≤ dti
  disjoint : occupied.Pairwise Interval.Disjoint
  once : ∀ t, t < dti → (air.slots.slots ++ occupied).countP (·.contains t) = 1

theorem Airtime.Tiled.divides {guard dti : Nat} {air : Airtime} (tiled : air.Tiled guard dti) :
    ∃ occupied, air.Divides guard dti occupied := by
  refine ⟨Registry.extent guard air.registry, ?_, tiled.length, tiled.wellFormed,
    tiled.nonempty_extent, tiled.inside, tiled.disjoint, ?_⟩
  · exact Registry.occupied_eq_ok_iff.mpr ⟨rfl, tiled.fits⟩
  · intro t inside
    have := tiled.once t
    rw [if_pos inside, ← coverage_append] at this
    exact this

theorem Airtime.Divides.tiled {guard dti : Nat} {air : Airtime} {occupied : List Interval}
    (divides : air.Divides guard dti occupied) : air.Tiled guard dti := by
  obtain ⟨rfl, fits⟩ := Registry.occupied_eq_ok_iff.mp divides.occupies
  refine ⟨divides.slots, divides.length, fits, ?_, fun t => ?_⟩
  · intro a registered i member
    exact divides.nonempty i (Registry.mem_extent_iff.mpr ⟨a, registered, member⟩)
  · split_ifs with inside
    · rw [← coverage_append]
      exact divides.once t inside
    · have outside := divides.slots.coverage_outside (t := t) (by have := divides.length; omega)
      have beyond : coverage (Registry.extent guard air.registry) t = 0 := by
        rw [coverage_eq_zero_iff]
        intro i member held
        have := divides.inside i member
        omega
      omega

end BeaconScheduler
