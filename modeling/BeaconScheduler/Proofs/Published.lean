import BeaconScheduler.Proofs.Runs

/-!
# Published schedules

The schedule of tiled airtime has strictly increasing starts, and the time that its entries
keep is the whole DTI, each microsecond once (`Tiled.schedule_divides`).  What a scheduler
publishes is such a schedule at all times, of the airtime that it had when it last published
(`run_published`).
-/

set_option autoImplicit false

namespace BeaconScheduler

open Counter BeaconScheduler.Interval

namespace Allocation

/-- A single block, without the time that has to stay free after it. -/
def span (a : Allocation) : Interval :=
  ⟨a.start, a.start + a.blockDuration⟩

theorem exists_extent_start (a : Allocation) (guard : Nat) :
    ∃ i ∈ a.extent guard, i.start = a.start := by
  unfold extent
  split_ifs with periodic
  · have several := (isPeriodic_iff.mp periodic).1
    refine ⟨a.blockExtent guard 0, List.mem_map_of_mem (List.mem_range.mpr (by omega)), ?_⟩
    rw [blockExtent, Nat.zero_mul, Nat.add_zero]
  · exact ⟨a.spanExtent guard, List.mem_singleton_self _, rfl⟩

end Allocation

namespace Airtime

variable {air : Airtime} {guard dti : Nat}

def gapFillings (air : Airtime) : List Allocation :=
  air.slots.slots.map gapFilling

theorem span_gapFilling {slot : Interval} (nonempty : slot.start < slot.stop) :
    (gapFilling slot).span = slot := by
  obtain ⟨start, stop⟩ := slot
  simp only [gapFilling, Allocation.broadcastCbap, Allocation.single, Allocation.span,
    Interval.length, Interval.mk.injEq, true_and] at nonempty ⊢
  omega

theorem schedule_perm (air : Airtime) : air.schedule.Perm (air.registry ++ air.gapFillings) :=
  Sorting.sort_perm _ _

theorem schedule_sorted (air : Airtime) :
    air.schedule.Pairwise fun a b => a.start ≤ b.start := by
  refine (Sorting.pairwise_sort ?_ ?_ _).imp fun le => of_decide_eq_true le
  · intro a b c first second
    have := of_decide_eq_true first
    have := of_decide_eq_true second
    exact decide_eq_true (by omega)
  · intro a b not
    have := of_decide_eq_false not
    exact decide_eq_true (by omega)

namespace Tiled

theorem span_gapFillings (tiled : air.Tiled guard dti) :
    air.gapFillings.map Allocation.span = air.slots.slots :=
  calc
    air.gapFillings.map Allocation.span = air.slots.slots.map id := by
      rw [gapFillings, List.map_map]
      exact List.map_congr_left fun slot member =>
        span_gapFilling (tiled.wellFormed.nonempty slot member)
    _ = air.slots.slots := List.map_id _

theorem nonempty_all (tiled : air.Tiled guard dti) :
    ∀ i ∈ Registry.extent guard air.registry ++ air.slots.slots, i.start < i.stop := by
  intro i member
  rcases List.mem_append.mp member with occupied | free
  · exact tiled.nonempty_extent i occupied
  · exact tiled.wellFormed.nonempty i free

theorem disjoint_all (tiled : air.Tiled guard dti) :
    (Registry.extent guard air.registry ++ air.slots.slots).Pairwise Interval.Disjoint := by
  refine (pairwise_disjoint_iff tiled.nonempty_all).mpr fun t => ?_
  have := tiled.once t
  rw [coverage_append]
  split_ifs at this <;> omega

theorem starts_differ (tiled : air.Tiled guard dti) :
    (air.registry ++ air.gapFillings).Pairwise fun a b => a.start ≠ b.start := by
  have apart : ∀ {i j : Interval}, i.start < i.stop → j.start < j.stop → i.Disjoint j →
      i.start ≠ j.start := by
    intro i j own other disjoint
    unfold Interval.Disjoint at disjoint
    omega
  obtain ⟨occupied, free, across⟩ := List.pairwise_append.mp tiled.disjoint_all
  refine List.pairwise_append.mpr ⟨?_, ?_, ?_⟩
  · refine (List.pairwise_flatMap.mp occupied).2.imp_of_mem fun {a b} memberA memberB disjoint => ?_
    obtain ⟨i, inA, startA⟩ := a.exists_extent_start guard
    obtain ⟨j, inB, startB⟩ := b.exists_extent_start guard
    rw [← startA, ← startB]
    exact apart (tiled.nonempty a memberA i inA) (tiled.nonempty b memberB j inB)
      (disjoint i inA j inB)
  · refine List.pairwise_map.mpr (free.imp_of_mem fun {i j} memberI memberJ disjoint => ?_)
    exact apart (tiled.wellFormed.nonempty i memberI) (tiled.wellFormed.nonempty j memberJ) disjoint
  · intro a memberA b memberB
    obtain ⟨slot, memberSlot, rfl⟩ := List.mem_map.mp memberB
    obtain ⟨i, inA, startA⟩ := a.exists_extent_start guard
    rw [← startA]
    exact apart (tiled.nonempty a memberA i inA) (tiled.wellFormed.nonempty slot memberSlot)
      (across i (Registry.mem_extent_iff.mpr ⟨a, memberA, inA⟩) slot memberSlot)

theorem schedule_increasing (tiled : air.Tiled guard dti) :
    air.schedule.Pairwise fun a b => a.start < b.start := by
  have differ : air.schedule.Pairwise fun a b => a.start ≠ b.start :=
    (air.schedule_perm.pairwise_iff fun differ => differ.symm).mpr tiled.starts_differ
  refine (air.schedule_sorted.and differ).imp fun ⟨le, ne⟩ => ?_
  omega

end Tiled
end Airtime

/-! ## What a schedule divides -/

/-- The entries of a schedule are registered allocations and contention periods for the free
slots; the time that they keep, and the contention periods, divide the DTI. -/
structure Schedule.Divides (guard dti : Nat) (shown : Airtime) (occupied : List Interval)
    (remaining : Nat) (entries : Schedule) : Prop where
  entries_perm : entries.Perm (shown.registry ++ shown.gapFillings)
  increasing : entries.Pairwise fun a b => a.start < b.start
  occupies : Registry.occupied guard shown.registry = .ok occupied
  nonempty : ∀ i ∈ occupied ++ shown.gapFillings.map Allocation.span, i.start < i.stop
  disjoint : (occupied ++ shown.gapFillings.map Allocation.span).Pairwise Interval.Disjoint
  covers : ∀ t, (∃ i ∈ occupied ++ shown.gapFillings.map Allocation.span, i.contains t) ↔ t < dti
  apart : (shown.gapFillings.map Allocation.span).Pairwise fun i j => i.stop < j.start
  remaining : remaining = (shown.gapFillings.map (·.blockDuration)).sum

theorem Airtime.Tiled.schedule_divides {guard dti : Nat} {air : Airtime}
    (tiled : air.Tiled guard dti) :
    air.schedule.Divides guard dti air (Registry.extent guard air.registry)
      air.slots.freeTime := by
  have spans := tiled.span_gapFillings
  refine ⟨air.schedule_perm, tiled.schedule_increasing,
    Registry.occupied_eq_ok_iff.mpr ⟨rfl, tiled.fits⟩, ?_, ?_, fun t => ?_, ?_, ?_⟩
  · rw [spans]
    exact tiled.nonempty_all
  · rw [spans]
    exact tiled.disjoint_all
  · have once := tiled.once t
    rw [spans]
    simp only [contains_iff]
    rw [← coverage_pos_iff, coverage_append]
    split_ifs at once <;> omega
  · rw [spans]
    exact tiled.wellFormed.apart
  · rw [FreeSlots.freeTime, Airtime.gapFillings, List.map_map]
    rfl

namespace Scheduler

variable {s next : Scheduler} {config : Config} {commands : List Command}

theorem Keeps.trans {last : Scheduler} (first : s.Keeps next) (second : next.Keeps last) :
    s.Keeps last :=
  ⟨second.tiled, second.dti.trans first.dti, second.published.trans first.published,
    second.remaining.trans first.remaining⟩

theorem performAll_published (tiled : s.Tiled)
    (performed : (s.performAll commands).value = .ok next) :
    s.Keeps next ∨ ∃ earlier origin shown, earlier <+: commands ∧
      (s.performAll earlier).value = .ok origin ∧ origin.Shows shown ∧ origin.Keeps next := by
  induction commands generalizing s with
  | nil =>
      obtain rfl := Except.ok.inj performed
      exact Or.inl ⟨tiled, rfl, rfl, rfl⟩
  | cons command rest ih =>
      simp only [performAll, Noted.value_bind, bind_eq_ok_iff] at performed
      obtain ⟨middle, first, others⟩ := performed
      have step := perform_step tiled first
      rcases ih step.tiled others with kept | ⟨earlier, origin, shown, initial, made, shows, kept⟩
      · rcases step.schedule with keeps | ⟨shown, shows⟩
        · exact Or.inl (keeps.trans kept)
        · refine Or.inr ⟨[command], middle, shown, ⟨rest, rfl⟩, ?_, shows, kept⟩
          simp only [performAll, Noted.value_bind, first, ok_bind, Noted.value_pure]
      · refine Or.inr ⟨command :: earlier, origin, shown,
          (List.prefix_cons_inj command).mpr initial, ?_, shows, kept⟩
        simp only [performAll, Noted.value_bind, first, ok_bind, made]

theorem run_published (ran : (run config commands).value = .ok s) :
    ∃ earlier origin shown, earlier <+: commands ∧ (run config earlier).value = .ok origin ∧
      origin.Shows shown ∧ origin.Keeps s := by
  obtain ⟨first, started, performed⟩ := run_eq_ok ran
  obtain ⟨shown, shows⟩ := start_shows started
  rcases performAll_published shows.scheduler_tiled performed with
    kept | ⟨earlier, origin, shown, initial, made, shows, kept⟩
  · refine ⟨[], first, shown, List.nil_prefix, ?_, shows, kept⟩
    simp only [run, Noted.value_bind, started, ok_bind, performAll, Noted.value_pure]
  · refine ⟨earlier, origin, shown, initial, ?_, shows, kept⟩
    simp only [run, Noted.value_bind, started, ok_bind, made]

/-- In every state of every run, the published schedule divides the DTI: it lists the registry
and the free slots as they were when it was published. -/
theorem run_schedule_divides (ran : (run config commands).value = .ok s) :
    ∃ earlier origin shown occupied, earlier <+: commands ∧
      (run config earlier).value = .ok origin ∧ origin.air = shown.announced ∧
      s.published.Divides config.limits.guard s.timing.dti shown occupied s.remaining := by
  obtain ⟨earlier, origin, shown, initial, made, shows, kept⟩ := run_published ran
  have limits := (run_tiled made).2.1
  have tiled := shows.tiled
  rw [limits, ← kept.dti] at tiled
  refine ⟨earlier, origin, shown, Registry.extent config.limits.guard shown.registry,
    initial, made, shows.air, ?_⟩
  rw [kept.published, shows.published, kept.remaining, shows.remaining]
  exact tiled.schedule_divides

theorem mixedRun_schedule_divides :
    ∃ s shown occupied, mixedRun.value = .ok s ∧ s.published.length = 7 ∧
      s.published.Divides 10 s.timing.dti shown occupied s.remaining := by
  obtain ⟨s, ran, listed⟩ := exists_ok (x := mixedRun.value) (b := 7)
    (f := fun s => s.published.length) (by decide +kernel)
  obtain ⟨_, _, shown, occupied, _, _, _, divides⟩ := run_schedule_divides ran
  exact ⟨s, shown, occupied, ran, listed, divides⟩

end Scheduler
end BeaconScheduler
