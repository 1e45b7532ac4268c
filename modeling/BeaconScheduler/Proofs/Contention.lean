import BeaconScheduler.Proofs.Keys
import BeaconScheduler.Proofs.Resubmission

/-!
# Contention between the blocks of a periodic allocation

A periodic request is refused if its blocks would leave too little contention time between
them.  The refusal compares the reserve with all of the time from the end of a block to the next
start, but the beacon announces contention only after the guard time has passed
(`contentionBetween_eq`).  When an allocation has the DTI for itself, the announced contention
therefore keeps the reserve exactly if there is room for the guard time beside it
(`boundary_keeps_reserve_iff`); blocks that are closer, and still accepted, leave less
(`closeBlocks_breach_reserve`).
-/

set_option autoImplicit false

namespace BeaconScheduler

open Counter BeaconScheduler.Interval

/-! ## Free stretches -/

namespace FreeSlots

variable {free : FreeSlots} {slot other : Interval} {lo hi t : Nat}

theorem slot_unique (canonical : Canonical free.slots) (member : slot ∈ free.slots)
    (holds : slot.start ≤ t ∧ t < slot.stop) (memberOther : other ∈ free.slots)
    (holdsOther : other.start ≤ t ∧ t < other.stop) : slot = other := by
  have found := (slotAt?_eq_some_iff canonical).mpr ⟨member, holds⟩
  have foundOther := (slotAt?_eq_some_iff canonical).mpr ⟨memberOther, holdsOther⟩
  exact Option.some.inj (found.symm.trans foundOther)

theorem mem_slots_of_stretch (canonical : Canonical free.slots) (nonempty : lo < hi)
    (isFree : ∀ t, lo ≤ t → t < hi → free.Free t) (before : ∀ t, t + 1 = lo → ¬ free.Free t)
    (behind : ¬ free.Free hi) : (⟨lo, hi⟩ : Interval) ∈ free.slots := by
  obtain ⟨⟨start, stop⟩, member, first, last⟩ := isFree lo (Nat.le_refl _) nonempty
  dsimp only at first last
  have room : free.Room (hi - lo) lo := fun t after inside => isFree t after (by omega)
  have reaches : lo + (hi - lo) ≤ stop := (room_iff canonical member first last).mp room
  have starts : start = lo := by
    by_contra earlier
    refine before (lo - 1) (by omega) ⟨_, member, ?_, ?_⟩ <;> dsimp only <;> omega
  have stops : stop = hi := by
    by_contra later
    refine behind ⟨_, member, ?_, ?_⟩ <;> dsimp only <;> omega
  rwa [starts, stops] at member

end FreeSlots

/-! ## What lies between two blocks -/

namespace Schedule

/-- The contention periods that a schedule lists between block `i` of an allocation and the next
one. -/
def contentionBetween (entries : Schedule) (a : Allocation) (i : Nat) : Schedule :=
  entries.filter fun b =>
    b = .broadcastCbap b.start b.blockDuration ∧
      a.start + i * a.blockPeriod + a.blockDuration ≤ b.start ∧
      b.start + b.blockDuration ≤ a.start + (i + 1) * a.blockPeriod

/-- Any two consecutive blocks have contention time of this length between them. -/
def KeepsReserve (reserve : Nat) (entries : Schedule) (a : Allocation) : Prop :=
  ∀ i < a.blocks - 1, reserve ≤ ((contentionBetween entries a i).map (·.blockDuration)).sum

instance (reserve : Nat) (entries : Schedule) (a : Allocation) :
    Decidable (KeepsReserve reserve entries a) :=
  inferInstanceAs (Decidable (∀ i < a.blocks - 1, _))

end Schedule

namespace Airtime

variable {air : Airtime} {guard dti i t : Nat} {a : Allocation}

theorem extent_of_periodic (guard : Nat) (only : air.registry = [a])
    (periodic : a.isPeriodic = true) :
    Registry.extent guard air.registry = (List.range a.blocks).map (a.blockExtent guard) := by
  rw [only, Registry.extent_cons, Registry.extent_nil, List.append_nil, Allocation.extent,
    if_pos periodic]

namespace Tiled

theorem registry_of_vacant (tiled : air.Tiled guard dti)
    (vacant : air.slots = .whole dti) : air.registry = [] := by
  refine List.eq_nil_iff_forall_not_mem.mpr fun a member => ?_
  obtain ⟨i, occupies, _⟩ := a.exists_extent_start guard
  have held := Registry.mem_extent_iff.mpr ⟨a, member, occupies⟩
  have nonempty := tiled.nonempty_extent i held
  have inside := tiled.inside i held
  have isFree : air.slots.Free i.start := by
    rw [vacant, FreeSlots.free_iff, FreeSlots.coverage_whole, if_pos (by omega)]
    exact Nat.zero_lt_one
  exact ((Tiling.isFree_iff tiled i.start).mp isFree).2 i held ⟨Nat.le_refl _, nonempty⟩

theorem isFree_iff_of_periodic (tiled : air.Tiled guard dti) (only : air.registry = [a])
    (periodic : a.isPeriodic = true) :
    air.slots.Free t ↔ t < dti ∧ ∀ i < a.blocks,
      ¬ (a.start + i * a.blockPeriod ≤ t ∧
        t < a.start + i * a.blockPeriod + a.blockDuration + a.tailLength guard) := by
  rw [Tiling.isFree_iff tiled, extent_of_periodic guard only periodic]
  simp only [List.forall_mem_map, List.mem_range, Allocation.blockExtent]

theorem blocks_apart (tiled : air.Tiled guard dti) (only : air.registry = [a])
    (periodic : a.isPeriodic = true) :
    0 < a.blockDuration + a.tailLength guard ∧
      a.blockDuration + a.tailLength guard ≤ a.blockPeriod := by
  obtain ⟨several, _⟩ := Allocation.isPeriodic_iff.mp periodic
  have extent := extent_of_periodic guard only periodic
  have nonempty := tiled.nonempty_extent
  have disjoint := tiled.disjoint
  rw [extent] at nonempty disjoint
  have own := nonempty (a.blockExtent guard 1)
    (List.mem_map_of_mem (List.mem_range.mpr several))
  have first := List.pairwise_iff_getElem.mp disjoint 0 1
    (by rw [List.length_map, List.length_range]; omega)
    (by rw [List.length_map, List.length_range]; omega) Nat.zero_lt_one
  simp only [List.getElem_map, List.getElem_range, Interval.Disjoint, Allocation.blockExtent]
    at own first
  omega

theorem stop_le_dti (tiled : air.Tiled guard dti) (only : air.registry = [a])
    (periodic : a.isPeriodic = true) (block : i < a.blocks) :
    a.start + i * a.blockPeriod + a.blockDuration + a.tailLength guard ≤ dti := by
  have inside := tiled.inside
  rw [extent_of_periodic guard only periodic] at inside
  exact inside (a.blockExtent guard i) (List.mem_map_of_mem (List.mem_range.mpr block))

theorem stretch_mem_slots (tiled : air.Tiled guard dti) (only : air.registry = [a])
    (periodic : a.isPeriodic = true) (inner : i + 1 < a.blocks)
    (room : a.blockDuration + a.tailLength guard < a.blockPeriod) :
    (⟨a.start + i * a.blockPeriod + a.blockDuration + a.tailLength guard,
      a.start + (i + 1) * a.blockPeriod⟩ : Interval) ∈ air.slots.slots := by
  have isFree := fun t => tiled.isFree_iff_of_periodic (t := t) only periodic
  obtain ⟨positive, _⟩ := tiled.blocks_apart only periodic
  have last := tiled.stop_le_dti only periodic inner
  have next : (i + 1) * a.blockPeriod = i * a.blockPeriod + a.blockPeriod := Nat.succ_mul _ _
  refine FreeSlots.mem_slots_of_stretch tiled.wellFormed.canonical (by omega) ?_ ?_ ?_
  · intro t after before
    refine (isFree t).mpr ⟨by omega, fun j _ held => ?_⟩
    -- blocks up to this one are over, the others have not started
    rcases Nat.lt_or_ge i j with later | earlier
    · have := Nat.mul_le_mul_right a.blockPeriod (show i + 1 ≤ j from later)
      omega
    · have := Nat.mul_le_mul_right a.blockPeriod earlier
      omega
  · intro t before free
    exact ((isFree t).mp free).2 i (by omega) (by omega)
  · intro free
    exact ((isFree _).mp free).2 (i + 1) inner (by omega)

theorem mem_contentionBetween_iff (tiled : air.Tiled guard dti) (only : air.registry = [a])
    (periodic : a.isPeriodic = true) (inner : i + 1 < a.blocks) {b : Allocation} :
    b ∈ air.schedule.contentionBetween a i ↔
      a.blockDuration + a.tailLength guard < a.blockPeriod ∧
      b = .broadcastCbap (a.start + i * a.blockPeriod + a.blockDuration + a.tailLength guard)
        (a.blockPeriod - (a.blockDuration + a.tailLength guard)) := by
  have next : (i + 1) * a.blockPeriod = i * a.blockPeriod + a.blockPeriod := Nat.succ_mul _ _
  have length : a.start + (i + 1) * a.blockPeriod -
      (a.start + i * a.blockPeriod + a.blockDuration + a.tailLength guard) =
        a.blockPeriod - (a.blockDuration + a.tailLength guard) := by omega
  have member : b ∈ air.schedule ↔ b = a ∨ ∃ slot ∈ air.slots.slots, gapFilling slot = b := by
    rw [air.schedule_perm.mem_iff, only, gapFillings, List.mem_append, List.mem_singleton,
      List.mem_map]
  rw [Schedule.contentionBetween, List.mem_filter, member, decide_eq_true_eq]
  constructor
  · rintro ⟨rfl | ⟨slot, free, rfl⟩, contention, after, before⟩
    · have single := congrArg Allocation.blocks contention
      have several := (Allocation.isPeriodic_iff.mp periodic).1
      dsimp only [Allocation.broadcastCbap, Allocation.single] at single
      omega
    · dsimp only [gapFilling, Allocation.broadcastCbap, Allocation.single, Interval.length]
        at after before
      have nonempty := tiled.wellFormed.nonempty slot free
      have unoccupied := ((tiled.isFree_iff_of_periodic only periodic).mp
        ⟨slot, free, Nat.le_refl _, nonempty⟩).2 i (by omega)
      have room : a.blockDuration + a.tailLength guard < a.blockPeriod := by omega
      have stretch := tiled.stretch_mem_slots only periodic inner room
      obtain rfl := FreeSlots.slot_unique (t := slot.start) tiled.wellFormed.canonical stretch
        (by dsimp only; omega) free ⟨Nat.le_refl _, nonempty⟩
      exact ⟨room, by rw [gapFilling, Interval.length, length]⟩
  · rintro ⟨room, rfl⟩
    refine ⟨.inr ⟨_, tiled.stretch_mem_slots only periodic inner room, ?_⟩, rfl, ?_, ?_⟩
    · rw [gapFilling, Interval.length, length]
    · dsimp only [Allocation.broadcastCbap, Allocation.single]
      omega
    · dsimp only [Allocation.broadcastCbap, Allocation.single]
      omega

theorem contentionBetween_eq (tiled : air.Tiled guard dti) (only : air.registry = [a])
    (periodic : a.isPeriodic = true) (inner : i + 1 < a.blocks) :
    air.schedule.contentionBetween a i =
      if a.blockDuration + a.tailLength guard < a.blockPeriod then
        [.broadcastCbap (a.start + i * a.blockPeriod + a.blockDuration + a.tailLength guard)
          (a.blockPeriod - (a.blockDuration + a.tailLength guard))]
      else [] := by
  have member := fun b => tiled.mem_contentionBetween_iff (b := b) only periodic inner
  split_ifs with room
  · have nodup : (air.schedule.contentionBetween a i).Nodup :=
      (air.schedule_perm.nodup_iff.mpr tiled.nodup_entries).filter _
    refine List.perm_singleton.mp
      ((List.perm_ext_iff_of_nodup nodup (List.pairwise_singleton _ _)).mpr fun b => ?_)
    rw [member, List.mem_singleton, and_iff_right room]
  · exact List.eq_nil_iff_forall_not_mem.mpr fun b listed => room ((member b).mp listed).1

theorem keepsReserve_iff (tiled : air.Tiled guard dti) (only : air.registry = [a])
    (periodic : a.isPeriodic = true) (reserve : Nat) :
    air.schedule.KeepsReserve reserve a ↔
      a.blockDuration + a.tailLength guard + reserve ≤ a.blockPeriod := by
  obtain ⟨several, _⟩ := Allocation.isPeriodic_iff.mp periodic
  obtain ⟨_, apart⟩ := tiled.blocks_apart only periodic
  have total : ∀ i, i + 1 < a.blocks →
      ((air.schedule.contentionBetween a i).map (·.blockDuration)).sum =
        a.blockPeriod - (a.blockDuration + a.tailLength guard) := by
    intro i inner
    rw [tiled.contentionBetween_eq only periodic inner]
    split_ifs with room
    · exact List.sum_singleton
    · exact (Nat.sub_eq_zero_of_le (Nat.le_of_not_lt room)).symm
  constructor
  · intro keeps
    have first := keeps 0 (by omega)
    rw [total 0 (by omega)] at first
    omega
  · intro room i inner
    rw [total i (by omega)]
    omega

end Tiled
end Airtime

/-! ## Where an allocation comes from -/

theorem Allocation.Continues.shape {a b : Allocation} (continues : a.Continues b) :
    b.beamforming = a.beamforming ∧ b.blocks = a.blocks ∧ b.blockPeriod = a.blockPeriod := by
  have beamforming := congrArg Allocation.beamforming continues.same
  have blocks := congrArg Allocation.blocks continues.same
  have period := congrArg Allocation.blockPeriod continues.same
  exact ⟨beamforming, blocks, period⟩

theorem Registry.mem_of_replace {registry : Registry} {key : Allocation.Key} {b c : Allocation}
    (member : b ∈ Registry.replace key c registry) : b = c ∨ b ∈ registry := by
  induction registry with
  | nil => cases member
  | cons d rest ih =>
      rw [Registry.replace] at member
      split_ifs at member
      · exact (List.mem_cons.mp member).imp_right (List.mem_cons_of_mem d)
      · rcases List.mem_cons.mp member with rfl | later
        · exact .inr List.mem_cons_self
        · exact (ih later).imp_right (List.mem_cons_of_mem d)

namespace Policy

variable {policy : Policy} {terms : Terms} {now : Time} {request : AdmissionRequest}
  {source : Aid} {spec : TrafficSpec} {outcome : Outcome} {air after : Airtime} {a b : Allocation}

/-- What a request is granted, or what later requests of its key leave of it. -/
structure Serves (terms : Terms) (request : AdmissionRequest) (a : Allocation) : Prop where
  key : a.key = request.key
  valid : request.spec.validate = .ok ()
  untrained : a.beamforming = none
  spaced : 1 < a.blocks → request.spec.period ≠ 0 ∧
    0 < a.blockPeriod ∧ a.blockPeriod = terms.interval / request.spec.period ∧
    a.blockDuration + terms.minBroadcastCbap ≤ a.blockPeriod

theorem Serves.continued (serves : Serves terms request a) (continues : a.Continues b) :
    Serves terms request b := by
  obtain ⟨beamforming, blocks, period⟩ := continues.shape
  refine ⟨continues.key.trans serves.key, serves.valid, beamforming.trans serves.untrained,
    fun several => ?_⟩
  rw [blocks] at several
  obtain ⟨periodic, positive, spacing, reserve⟩ := serves.spaced several
  have shorter := continues.shorter
  exact ⟨periodic, by omega, period.trans spacing, by omega⟩

theorem grant_of_granted
    (decided : (policy.decide terms now request air).value = .ok (.granted a, after))
    (absent : air.registry.contains request.key = false) :
    (policy.grant terms request.source request.spec air).value = .ok (.granted a, after) := by
  obtain ⟨valid, _⟩ := valid_of_accepted decided rfl
  rw [decide] at decided
  simpa only [valid, absent, Bool.false_eq_true, if_false] using decided

theorem serves_of_granted
    (decided : (policy.decide terms now request air).value = .ok (.granted a, after))
    (absent : air.registry.contains request.key = false)
    (answers : Answers policy terms request.source request.spec a)
    (adds : air.Adds terms.guard a after) : Serves terms request a := by
  obtain ⟨valid, _⟩ := valid_of_accepted decided rfl
  have granted := grant_of_granted decided absent
  have untrained : a.beamforming = none := by
    obtain ⟨_, _, _, _, _, rfl⟩ := grant_requested granted adds.registered
    rfl
  refine ⟨answers.key, valid, untrained, fun several => ?_⟩
  have periodic : request.spec.period ≠ 0 := fun single => by
    have := (answers.single single).1
    omega
  obtain ⟨_, _, spacing, reserve⟩ := answers.periodic periodic
  have positive := desiredDuration_pos valid answers.duration
  exact ⟨periodic, by omega, spacing, reserve⟩

theorem decide_origin
    (decided : (policy.decide terms now request air).value = .ok (outcome, after)) :
    ∀ b ∈ after.registry, (∃ a ∈ air.registry, a.Continues b) ∨
      (outcome = .granted b ∧ air.registry.contains request.key = false ∧
        Answers policy terms request.source request.spec b ∧ air.Adds terms.guard b after) := by
  intro b member
  rcases decide_cases decided with ⟨_, _, rfl⟩ | ⟨absent, a, rfl, answers, adds⟩ |
    ⟨current, duration, _, found, _, ⟨_, rfl⟩ | shortens⟩
  · exact .inl ⟨b, member, .refl b⟩
  · have registered := member
    rw [adds.registered] at registered
    rcases List.mem_append.mp registered with old | new
    · exact .inl ⟨b, old, .refl b⟩
    · obtain rfl := List.mem_singleton.mp new
      exact .inr ⟨rfl, absent, answers, adds⟩
  · exact .inl ⟨b, member, .refl b⟩
  · rw [shortens.registered] at member
    rcases Registry.mem_of_replace member with rfl | old
    · exact .inl ⟨current, List.mem_of_find?_eq_some found,
        .shortened (Nat.le_of_lt shortens.shorter)⟩
    · exact .inl ⟨b, old, .refl b⟩

theorem decide_registers
    (decided : (policy.decide terms now request air).value = .ok (outcome, after)) :
    ∀ b ∈ after.registry, (∃ a ∈ air.registry, a.Continues b) ∨ Serves terms request b := by
  intro b member
  rcases decide_origin decided b member with old | ⟨rfl, absent, answers, adds⟩
  · exact .inl old
  · exact .inr (serves_of_granted decided absent answers adds)

end Policy

namespace Scheduler

variable {policy : Policy} {terms : Terms} {now : Time} {air last : Airtime}
  {queue : List AdmissionRequest} {responses : List AdmissionResponse}

theorem decideAll_origin {origin : AdmissionRequest → Allocation → Prop}
    (registers : ∀ {request : AdmissionRequest} {air after : Airtime} {outcome : Outcome},
      (policy.decide terms now request air).value = .ok (outcome, after) →
        ∀ b ∈ after.registry, (∃ a ∈ air.registry, a.Continues b) ∨ origin request b)
    (continued : ∀ {request : AdmissionRequest} {a b : Allocation},
      origin request a → a.Continues b → origin request b)
    (decided : (decideAll policy terms now air queue).value = .ok (responses, last)) :
    ∀ b ∈ last.registry, (∃ a ∈ air.registry, a.Continues b) ∨
      ∃ request ∈ queue, origin request b := by
  induction queue generalizing air responses with
  | nil =>
      obtain ⟨_, rfl⟩ := Prod.mk.inj (Except.ok.inj decided)
      exact fun b member => .inl ⟨b, member, .refl b⟩
  | cons request rest ih =>
      obtain ⟨_, after, _, own, decidedRest, _⟩ := decideAll_cons_eq_ok_iff.mp decided
      intro b member
      rcases ih decidedRest b member with ⟨a, registered, continues⟩ | ⟨later, queued, serves⟩
      · rcases registers own a registered with ⟨c, old, earlier⟩ | serves
        · exact .inl ⟨c, old, earlier.trans continues⟩
        · exact .inr ⟨request, List.mem_cons_self, continued serves continues⟩
      · exact .inr ⟨later, List.mem_cons_of_mem _ queued, serves⟩

/-! ## An allocation that has the DTI for itself -/

variable {config : Config} {commands : List Command} {s cleaned next : Scheduler} {a : Allocation}

/-- When the whole DTI is free at the end of an interval and one allocation of several blocks is
all that is granted in it, the published schedule keeps the reserve between its blocks exactly if
guard time and reserve fit there together.  Acceptance asks for room for either of them alone. -/
theorem boundary_keeps_reserve_iff (ran : (run config commands).value = .ok s)
    (cleans : (s.cleanUp now).value = .ok cleaned)
    (vacant : cleaned.air.slots = .whole s.timing.dti)
    (ended : (s.endInterval now).value = .ok next) (only : next.air.registry = [a])
    (several : 1 < a.blocks) :
    (∃ request ∈ s.queue, a.key = request.key ∧ request.spec.validate = .ok () ∧
      request.spec.period ≠ 0 ∧ a.blockPeriod = s.timing.interval / request.spec.period) ∧
    a.blockDuration + config.limits.guard ≤ a.blockPeriod ∧
    a.blockDuration + config.limits.minBroadcastCbap ≤ a.blockPeriod ∧
    (∀ i, i + 1 < a.blocks → next.published.contentionBetween a i =
      if a.blockDuration + config.limits.guard < a.blockPeriod then
        [.broadcastCbap (a.start + i * a.blockPeriod + a.blockDuration + config.limits.guard)
          (a.blockPeriod - (a.blockDuration + config.limits.guard))]
      else []) ∧
    (next.published.KeepsReserve config.limits.minBroadcastCbap a ↔
      a.blockDuration + config.limits.guard + config.limits.minBroadcastCbap ≤ a.blockPeriod) := by
  obtain ⟨tiled, limits, _⟩ := run_tiled ran
  obtain ⟨airCleaned, rfl, purged, tiledCleaned⟩ := cleanUp_eq_ok tiled cleans
  obtain ⟨earlier, air, _, _, purgedToo, _, decided, tiledAfter, rfl⟩ :=
    endInterval_eq_ok tiled ended
  have empty : earlier.registry = [] :=
    purgedToo.trans (purged.symm.trans (tiledCleaned.registry_of_vacant vacant))
  obtain ⟨b, registered, rfl⟩ := List.map_eq_singleton_iff.mp only
  dsimp only at several ⊢
  obtain ⟨request, queued, serves⟩ : ∃ request ∈ s.queue, Policy.Serves s.terms request b := by
    rcases decideAll_origin Policy.decide_registers Policy.Serves.continued decided b
        (by rw [registered]; exact List.mem_cons_self) with ⟨old, member, _⟩ | served
    · rw [empty] at member
      cases member
    · exact served
  obtain ⟨periodic, positive, spacing, reserve⟩ := serves.spaced several
  have blocks : b.isPeriodic = true := Allocation.isPeriodic_iff.mpr ⟨several, positive⟩
  have tail : b.tailLength s.limits.guard = config.limits.guard := by
    rw [Allocation.tailLength, serves.untrained, limits]
    rfl
  obtain ⟨_, apart⟩ := tiledAfter.blocks_apart registered blocks
  have between := fun i (inner : i + 1 < b.blocks) =>
    tiledAfter.contentionBetween_eq registered blocks inner
  have keeps := tiledAfter.keepsReserve_iff registered blocks config.limits.minBroadcastCbap
  rw [tail] at apart keeps
  simp only [tail] at between
  rw [terms, limits] at reserve
  exact ⟨⟨request, queued, serves.key, serves.valid, periodic, spacing⟩, apart, reserve, between,
    keeps⟩

/-- A station asks for four blocks of this length in an interval that nobody else uses. -/
def fourBlocksRun (duration : Nat) : Noted Scheduler :=
  run {} [.startInterval 0 0 102400 1000 0,
    .request 10 7 ⟨3, .servicePeriod, false, 4, .asynchronous, duration, duration, 4, false⟩,
    .handle 1000 .dataTransferStart]

def fourBlocksGranted (duration : Nat) : Allocation :=
  ⟨⟨3, 7, 4⟩, .servicePeriod, false, 0, duration, 25600, 4, none, true⟩

def fourBlocksEnd (duration : Nat) : Noted (Scheduler × Scheduler × Scheduler) := do
  let s ← fourBlocksRun duration
  return (s, ← s.cleanUp 102400, ← s.endInterval 102400)

theorem spacedBlocks_keep_reserve :
    ∃ s cleaned next, (fourBlocksRun 21494).value = .ok s ∧
      (s.cleanUp 102400).value = .ok cleaned ∧ cleaned.air.slots = .whole s.timing.dti ∧
      (s.endInterval 102400).value = .ok next ∧
      next.air.registry = [fourBlocksGranted 21494] ∧
      next.published.KeepsReserve 4096 (fourBlocksGranted 21494) := by
  obtain ⟨⟨s, cleaned, next⟩, ran, computed⟩ := exists_ok (x := (fourBlocksEnd 21494).value)
    (f := fun (s, cleaned, next) => (s.timing.dti, cleaned.air.slots, next.air.registry))
    (b := (101400, .whole 101400, [fourBlocksGranted 21494])) (by decide +kernel)
  simp only [fourBlocksEnd, Noted.value_bind, Noted.value_pure, bind_eq_ok_iff, Except.ok.injEq,
    Prod.mk.injEq] at ran computed
  obtain ⟨_, waits, _, cleans, _, ended, rfl, rfl, rfl⟩ := ran
  obtain ⟨dti, vacant, only⟩ := computed
  rw [← dti] at vacant
  obtain ⟨_, _, _, _, keeps⟩ :=
    boundary_keeps_reserve_iff waits cleans vacant ended only (by decide)
  exact ⟨_, _, _, waits, cleans, vacant, ended, only, keeps.mpr (by decide)⟩

theorem closeBlocks_breach_reserve :
    ∃ s cleaned next, (fourBlocksRun 21504).value = .ok s ∧ s.policy = .periodic ∧
      (s.cleanUp 102400).value = .ok cleaned ∧ cleaned.air.slots = .whole s.timing.dti ∧
      (s.endInterval 102400).value = .ok next ∧
      next.responses.map (·.outcome) = [.accepted 0 21504 4] ∧
      next.air.registry = [fourBlocksGranted 21504] ∧ s.limits.minBroadcastCbap = 4096 ∧
      next.published.contentionBetween (fourBlocksGranted 21504) 0 =
        [.broadcastCbap 21514 4086] ∧
      ¬ next.published.KeepsReserve 4096 (fourBlocksGranted 21504) := by
  obtain ⟨⟨s, cleaned, next⟩, ran, computed⟩ := exists_ok (x := (fourBlocksEnd 21504).value)
    (f := fun (s, cleaned, next) => (s.timing.dti, cleaned.air.slots,
      next.responses.map (·.outcome), next.air.registry,
      next.published.contentionBetween (fourBlocksGranted 21504) 0))
    (b := (101400, .whole 101400, [.accepted 0 21504 4], [fourBlocksGranted 21504],
      [.broadcastCbap 21514 4086])) (by decide +kernel)
  simp only [fourBlocksEnd, Noted.value_bind, Noted.value_pure, bind_eq_ok_iff, Except.ok.injEq,
    Prod.mk.injEq] at ran computed
  obtain ⟨_, waits, _, cleans, _, ended, rfl, rfl, rfl⟩ := ran
  obtain ⟨dti, vacant, granted, only, listed⟩ := computed
  obtain ⟨_, limits, policy⟩ := run_tiled waits
  rw [← dti] at vacant
  have breached : ¬ Schedule.KeepsReserve 4096 _ (fourBlocksGranted 21504) := fun keeps => by
    have first := keeps 0 (by decide)
    rw [listed] at first
    exact absurd first (by decide)
  exact ⟨_, _, _, waits, policy, cleans, vacant, ended, granted, only, by rw [limits], listed,
    breached⟩

end Scheduler
end BeaconScheduler
