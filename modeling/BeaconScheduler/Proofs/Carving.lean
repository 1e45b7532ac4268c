import BeaconScheduler.Proofs.Decision
import BeaconScheduler.Proofs.Room

/-!
# What allocations carve out of free time

`Carving` says that some holders have their time from the free slots `whole`, and that the
slots `free` are what they leave of it, one microsecond after the other.  Reserving, returning
and shortening preserve it.  With nobody holding time any more, `free` is `whole` again, the
same list of slots (`Carving.eq_whole`).
-/

set_option autoImplicit false

namespace BeaconScheduler

open Counter BeaconScheduler.Interval

structure Carving (guard : Nat) (whole free : FreeSlots) (holders : Registry) : Prop where
  wellFormed : free.WellFormed
  length : free.dti = whole.dti
  fits : ∀ a ∈ holders, a.Fits guard
  nonempty : ∀ a ∈ holders, ∀ i ∈ a.extent guard, i.start < i.stop
  once : ∀ t, coverage free.slots t + coverage (Registry.extent guard holders) t =
    coverage whole.slots t

namespace Carving

variable {guard : Nat} {whole free left : FreeSlots} {holders earlier later : Registry}
  {a : Allocation}

theorem refl (guard : Nat) (wellFormed : whole.WellFormed) : Carving guard whole whole [] where
  wellFormed := wellFormed
  length := rfl
  fits := by simp
  nonempty := by simp
  once t := by rw [Registry.extent_nil, coverage_nil, Nat.add_zero]

theorem eq_whole (wellFormed : whole.WellFormed) (carving : Carving guard whole free []) :
    free = whole := by
  apply carving.wellFormed.eq_of_coverage wellFormed carving.length
  intro t
  rw [← carving.once t, Registry.extent_nil, coverage_nil, Nat.add_zero]

theorem perm {others : Registry} (carving : Carving guard whole free holders)
    (perm : others.Perm holders) : Carving guard whole free others where
  wellFormed := carving.wellFormed
  length := carving.length
  fits b member := carving.fits b (perm.mem_iff.mp member)
  nonempty b member := carving.nonempty b (perm.mem_iff.mp member)
  once t := by rw [coverage_perm (Registry.extent_perm perm), carving.once t]

theorem add (carving : Carving guard whole free holders) (fits : a.Fits guard)
    (claimed : free.claimEach (a.extent guard) = .ok left) :
    Carving guard whole left (holders ++ [a]) := by
  obtain ⟨nonempty, wellFormed, length, covered⟩ :=
    FreeSlots.claimEach_eq_ok carving.wellFormed claimed
  refine ⟨wellFormed, length.trans carving.length, ?_, ?_, fun t => ?_⟩
  · intro b member
    rcases List.mem_append.mp member with old | new
    · exact carving.fits b old
    · rw [List.mem_singleton.mp new]
      exact fits
  · intro b member
    rcases List.mem_append.mp member with old | new
    · exact carving.nonempty b old
    · rw [List.mem_singleton.mp new]
      exact nonempty
  · have before := carving.once t
    rw [covered t] at before
    simp only [Registry.extent_append, Registry.extent_cons, Registry.extent_nil,
      List.append_nil, coverage_append]
    omega

theorem giveBack {owed : Registry} (terms : Terms) (air : Airtime) (wellFormed : whole.WellFormed)
    (carving : Carving terms.guard whole air.slots (a :: owed)) :
    ∃ slots : FreeSlots, (air.giveBack terms a).value = .ok (.ok (), { air with slots }) ∧
      Carving terms.guard whole slots owed := by
  obtain ⟨fits, fitsRest⟩ := List.forall_mem_cons.mp carving.fits
  obtain ⟨nonempty, nonemptyRest⟩ := List.forall_mem_cons.mp carving.nonempty
  have once := carving.once
  simp only [Registry.extent_cons, coverage_append] at once
  have inside : ∀ i ∈ a.extent terms.guard, i.stop ≤ air.slots.dti := by
    intro i member
    have own := nonempty i member
    have covered := coverage_pos_of_mem (t := i.stop - 1) member (by omega) (by omega)
    have parts := once (i.stop - 1)
    have isFree : whole.Free (i.stop - 1) := FreeSlots.free_iff.mpr (by omega)
    have bound := wellFormed.lt_dti isFree
    have length := carving.length
    omega
  obtain ⟨slots, given, wellFormedAfter, length, covered⟩ :=
    Airtime.giveBack_of_occupied fits carving.wellFormed nonempty inside fun t => by
      have := once t
      have := wellFormed.coverage_le_one t
      omega
  refine ⟨slots, given, wellFormedAfter, length.trans carving.length, fitsRest, nonemptyRest,
    fun t => ?_⟩
  rw [covered t, ← once t]
  omega

theorem shorten {key : Allocation.Key} {air after : Airtime} {duration : Nat}
    (carving : Carving guard whole air.slots (earlier ++ a :: later))
    (shortens : air.Shortens guard key a duration after) :
    Carving guard whole after.slots (earlier ++ a.withDuration duration :: later) := by
  obtain ⟨wellFormed, length, covered⟩ := shortens.coverage_slots carving.wellFormed
  have once := carving.once
  simp only [Registry.extent_append, Registry.extent_cons, coverage_append] at once
  refine ⟨wellFormed, length.trans carving.length, ?_, ?_, fun t => ?_⟩
  · intro b member
    rcases List.mem_append.mp member with before | member
    · exact carving.fits b (List.mem_append_left _ before)
    rcases List.mem_cons.mp member with rfl | behind
    · exact shortens.fits
    · exact carving.fits b (List.mem_append_right _ (List.mem_cons_of_mem _ behind))
  · intro b member
    rcases List.mem_append.mp member with before | member
    · exact carving.nonempty b (List.mem_append_left _ before)
    rcases List.mem_cons.mp member with rfl | behind
    · exact Allocation.nonempty_withDuration shortens.positive
        (carving.nonempty a (List.mem_append_right _ List.mem_cons_self))
    · exact carving.nonempty b (List.mem_append_right _ (List.mem_cons_of_mem _ behind))
  · have before := once t
    have := covered t
    simp only [Registry.extent_append, Registry.extent_cons, coverage_append]
    omega

end Carving
end BeaconScheduler
