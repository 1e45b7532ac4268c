import BeaconScheduler.Proofs.Accounting
import BeaconScheduler.Proofs.Course
import BeaconScheduler.Proofs.Published
import BeaconScheduler.Proofs.Room

/-!
# A DTI of another length

An interval may start with a longer or shorter DTI than the one before.  Allocations that
reach beyond it are dropped, the free time is computed anew from what the others occupy
(`Airtime.fitted`), and the schedule is published again (`startInterval_presents`).  An interval
of the same length keeps all of it; neither touches the queue, the responses or the statistics
(`run_startInterval_renews`).
-/

set_option autoImplicit false

namespace BeaconScheduler

open Counter BeaconScheduler.Interval

/-! ## What is left of the airtime -/

namespace Registry

variable {guard dti : Nat} {registry dropped kept : Registry}

def within (guard dti : Nat) (registry : Registry) : Registry :=
  registry.filter fun a => (a.extent guard).all fun i => i.stop ≤ dti

theorem stop_le_of_mem_within {a : Allocation} (member : a ∈ registry.within guard dti) :
    ∀ i ∈ a.extent guard, i.stop ≤ dti := by
  intro i occupies
  have inside := List.all_eq_true.mp (List.mem_filter.mp member).2 i occupies
  exact of_decide_eq_true inside

theorem splitBeyond_kept (split : Registry.splitBeyond dti guard registry = .ok (dropped, kept)) :
    kept = registry.within guard dti := by
  induction registry generalizing dropped kept with
  | nil =>
      obtain ⟨_, rfl⟩ := Prod.mk.inj (Except.ok.inj split)
      rfl
  | cons a rest ih =>
      simp only [Registry.splitBeyond, bind_eq_ok_iff, pure_eq_ok_iff] at split
      obtain ⟨beyond, exceeds, ⟨droppedRest, keptRest⟩, splitRest, joined⟩ := split
      have others := ih splitRest
      have outcome := exceeds_eq_ok exceeds
      have opposite : (a.extent guard).all (fun i => i.stop ≤ dti) = !beyond := by
        rw [outcome, List.not_any_eq_all_not]
        refine congrArg (List.all _) (funext fun i => ?_)
        rw [← decide_not]
        exact decide_eq_decide.mpr Nat.not_lt.symm
      rw [within, List.filter_cons, opposite]
      cases beyond with
      | true =>
          obtain ⟨_, rfl⟩ := Prod.mk.inj joined
          exact others
      | false =>
          obtain ⟨_, rfl⟩ := Prod.mk.inj joined
          rw [others]
          rfl

end Registry

namespace Airtime

variable {air : Airtime} {guard former : Nat}

/-- The airtime in a DTI of another length: what lies within it is kept, and the rest is
free. -/
def fitted (guard dti : Nat) (air : Airtime) : Airtime where
  registry := air.registry.within guard dti
  slots := .complement dti (Registry.extent guard (air.registry.within guard dti))

theorem Tiled.fitted (tiled : air.Tiled guard former) (dti : Nat) :
    (air.fitted guard dti).Tiled guard dti := by
  have perm := (List.perm_append_comm).trans (List.filter_append_perm
    (fun a : Allocation => (a.extent guard).all fun i => i.stop ≤ dti) air.registry)
  exact (Tiling.perm tiled perm).complement fun a member =>
    Registry.stop_le_of_mem_within member

end Airtime

/-! ## A fresh schedule -/

namespace Scheduler

variable {s next : Scheduler} {now : Time} {dti : Nat}

/-- The scheduler has just published: all allocations are announced, the free slots are what
they leave of the DTI, and the schedule lists them and one contention period for each slot. -/
structure Presents (guard dti : Nat) (registered : Registry) (occupied : List Interval)
    (s : Scheduler) : Prop where
  registry : s.air.registry = registered.markAnnounced
  occupies : Registry.occupied guard registered = .ok occupied
  length : s.air.slots.dti = dti
  slots : s.air.slots.WellFormed
  free : ∀ t, s.air.slots.Free t ↔ t < dti ∧ ∀ i ∈ occupied, ¬ i.contains t
  published : s.published.Perm (registered ++ s.air.gapFillings)
  increasing : s.published.Pairwise fun a b => a.start < b.start

theorem Shows.presents {shown : Airtime} (shows : s.Shows shown) :
    s.Presents s.limits.guard s.timing.dti shown.registry
      (Registry.extent s.limits.guard shown.registry) := by
  have tiled := shows.tiled
  have slots : s.air.slots = shown.slots := by rw [shows.air, Airtime.announced]
  refine ⟨congrArg Airtime.registry shows.air,
    Registry.occupied_eq_ok_iff.mpr ⟨rfl, tiled.fits⟩, ?_, ?_, fun t => ?_, ?_, ?_⟩
  · rw [slots]
    exact tiled.length
  · rw [slots]
    exact tiled.wellFormed
  · have once := tiled.once t
    simp only [contains_iff]
    rw [slots, FreeSlots.free_iff, ← coverage_eq_zero_iff]
    split_ifs at once <;> omega
  · rw [shows.published, Airtime.gapFillings, slots]
    exact shown.schedule_perm
  · rw [shows.published]
    exact tiled.schedule_increasing

/-! ## The start of an interval -/

theorem value_adjust {former : Nat} (now : Time) (tiled : s.air.Tiled s.limits.guard former)
    (length : s.timing.dti = dti) (small : dti < 2 ^ 32) :
    (s.adjust now dti).value = .ok { s with
      published := (s.air.fitted s.limits.guard dti).schedule
      air := (s.air.fitted s.limits.guard dti).announced
      remaining := (s.air.fitted s.limits.guard dti).slots.freeTime } := by
  obtain ⟨next, adjusted⟩ := adjust_ends now tiled length small
  have steps := adjusted
  simp only [adjust, Noted.value_bind, Noted.value_lift, value_noteDropped, ok_bind,
    bind_eq_ok_iff, Registry.occupied_eq_ok_iff] at steps
  obtain ⟨⟨dropped, kept⟩, split, _, ⟨rfl, _⟩, refreshed⟩ := steps
  obtain rfl := Registry.splitBeyond_kept split
  have fitted := tiled.fitted dti
  rw [← length] at fitted
  subst length
  rw [adjusted, refresh_eq_ok s.limits.guard fitted refreshed]
  rfl

variable {coordinator : Aid} {interval header announcement : Nat} {wakeup : Wakeup}

theorem startInterval_keeps (tiled : s.Tiled) (same : interval - header = s.timing.dti)
    (started : (s.startInterval now coordinator interval header announcement).value =
      .ok (wakeup, next)) : next.air = s.air ∧ next.published = s.published := by
  rcases startInterval_eq_ok tiled started with ⟨_, rfl⟩ | ⟨_, other, _, rfl⟩
  · exact ⟨rfl, rfl⟩
  · exact absurd same other

theorem startInterval_shows (tiled : s.Tiled) (small : interval - header < 2 ^ 32)
    (other : interval - header ≠ s.timing.dti)
    (started : (s.startInterval now coordinator interval header announcement).value =
      .ok (wakeup, next)) : next.Shows (s.air.fitted s.limits.guard (interval - header)) := by
  have adjusted : ((s.begun now coordinator interval header announcement).adjust now
      (interval - header)).value = _ := value_adjust now tiled rfl small
  have differs : ¬ interval - header = s.air.slots.dti := fun same =>
    other (same.trans tiled.length)
  rw [value_startInterval, if_neg differs, adjusted, ok_bind, bind_eq_ok_iff] at started
  obtain ⟨_, _, last⟩ := started
  obtain ⟨_, rfl⟩ := Prod.mk.inj (Except.ok.inj last)
  exact ⟨tiled.fitted (interval - header), rfl, rfl, rfl⟩

theorem startInterval_presents (tiled : s.Tiled) (small : interval - header < 2 ^ 32)
    (other : interval - header ≠ s.timing.dti)
    (started : (s.startInterval now coordinator interval header announcement).value =
      .ok (wakeup, next)) :
    next.Presents s.limits.guard (interval - header)
      (s.air.registry.within s.limits.guard (interval - header))
      (Registry.extent s.limits.guard
        (s.air.registry.within s.limits.guard (interval - header))) := by
  have presents := (startInterval_shows tiled small other started).presents
  rw [(startInterval_step tiled started).limits,
    (startInterval_begins tiled started).2.2] at presents
  exact presents

variable {config : Config} {commands : List Command}

/-- In every state that a run reaches, an interval of any length can start if the clock can tell
its first phase change.  Only a DTI of another length changes what is registered, free and
published, and it keeps exactly the allocations that lie within it. -/
theorem run_startInterval_renews (ran : (run config commands).value = .ok s)
    (counted : interval < 2 ^ 32)
    (clocked : now + (if 0 < announcement then header - announcement else header) < 2 ^ 64) :
    ∃ wakeup next occupied,
      (s.startInterval now coordinator interval header announcement).value = .ok (wakeup, next) ∧
      next.timing.dti = interval - header ∧ s.SameBooks next ∧
      (∀ a ∈ s.air.registry, a.occupied config.limits.guard =
        .ok (a.extent config.limits.guard)) ∧
      (interval - header = s.air.slots.dti →
        next.air = s.air ∧ next.published = s.published) ∧
      (interval - header ≠ s.air.slots.dti →
        next.Presents config.limits.guard (interval - header)
          (s.air.registry.within config.limits.guard (interval - header)) occupied) := by
  obtain ⟨tiled, limits, _⟩ := run_tiled ran
  have small : interval - header < 2 ^ 32 := by omega
  have told : (if 0 < announcement then
      (⟨now + (header - announcement), .announcementStart⟩ : Wakeup)
    else ⟨now + header, .dataTransferStart⟩).time < 2 ^ 64 := by
    split_ifs at clocked ⊢ <;> exact clocked
  obtain ⟨next, started⟩ := startInterval_ends coordinator tiled small
    (firstWakeup_eq_ok_iff.mpr ⟨told, rfl⟩)
  have timing := (startInterval_begins tiled started).2.2
  rw [tiled.length, ← limits]
  refine ⟨_, next, _, started, congrArg Timing.dti timing,
    startInterval_sameBooks tiled started, fun a member => ?_,
    fun same => startInterval_keeps tiled same started,
    fun other => startInterval_presents tiled small other started⟩
  exact Allocation.occupied_eq_ok_iff.mpr ⟨rfl, tiled.fits a member⟩

/-- A static contention period, a training period, and four blocks of which the last one takes
the guard time up to 40040; a request waits. -/
def spreadRun : Noted Scheduler :=
  run { statics := [⟨⟨9, 0, 255⟩, .cbap, 0, 5000, 1⟩] }
    [.startInterval 0 0 102400 1000 0,
      .train 2 3000 ⟨true, false⟩,
      .reserve ⟨⟨3, 7, 4⟩, .servicePeriod, false, 10000, 30, 10000, 4, none, false⟩,
      .request 500 7 ⟨5, .servicePeriod, false, 4, .asynchronous, 2000, 2000, 0, false⟩,
      .handle 1000 .dataTransferStart]

theorem spreadRun_renews :
    ∃ s wakeup next occupied, spreadRun.value = .ok s ∧ s.air.registry.length = 3 ∧
      s.queue.length = 1 ∧
      (s.startInterval 2000 0 41039 1000 0).value = .ok (wakeup, next) ∧
      next.queue = s.queue ∧
      next.air.registry.map (·.key) = [⟨9, 0, 255⟩, ⟨0, 0, 2⟩] ∧
      next.Presents 10 40039 (s.air.registry.within 10 40039) occupied := by
  obtain ⟨s, ran, counts⟩ := exists_ok (x := spreadRun.value)
    (f := fun s => (s.air.registry.length, s.queue.length, s.air.slots.dti,
      (s.air.registry.within 10 40039).map (·.key)))
    (b := (3, 1, 101400, [⟨9, 0, 255⟩, ⟨0, 0, 2⟩])) (by decide +kernel)
  simp only [Prod.mk.injEq] at counts
  obtain ⟨registered, queued, length, keys⟩ := counts
  obtain ⟨wakeup, next, occupied, started, _, books, _, _, renewed⟩ :=
    @run_startInterval_renews s 2000 0 41039 1000 0 _ _ ran (by decide) (by decide)
  have presents := renewed (by rw [length]; decide)
  refine ⟨s, wakeup, next, occupied, ran, registered, queued, started, books.queue, ?_, presents⟩
  rw [presents.registry, ← keys, Registry.markAnnounced, List.map_map]
  rfl

end Scheduler
end BeaconScheduler
