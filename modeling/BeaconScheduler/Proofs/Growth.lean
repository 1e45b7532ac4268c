import BeaconScheduler.Proofs.FirstFit
import BeaconScheduler.Proofs.Modification
import BeaconScheduler.Proofs.Renewal
import BeaconScheduler.Proofs.Uniqueness
import Mathlib.Data.List.Flatten
import Mathlib.Logic.Relation

/-!
# More free time

The lists of slots of two DTIs may have nothing in common, but a single block goes to the least
offset with room, whatever the slots look like.  Where free time is only added, room stays room,
so the first fit can only come earlier (`Grows.firstFit`) and a request that was granted is
granted again (`placeBlock_of_grows`).

Deletions, the clean-up at the end of an interval, modifications and a longer DTI only add free
time (`Loosens.grows`), because the allocations that stay occupy no more than before and free
time is what they leave of the DTI (`Airtime.Tiled.grows`).
-/

set_option autoImplicit false

namespace BeaconScheduler

open Counter BeaconScheduler.Interval

namespace FreeSlots

variable {free wider widest : FreeSlots} {needed start t : Nat}

/-- What is free stays free, in slots that may be cut otherwise. -/
def Grows (free wider : FreeSlots) : Prop :=
  ∀ t, free.Free t → wider.Free t

theorem Grows.refl (free : FreeSlots) : free.Grows free :=
  fun _ isFree => isFree

theorem Grows.trans (first : free.Grows wider) (second : wider.Grows widest) :
    free.Grows widest := by
  intro t isFree
  apply second
  exact first t isFree

theorem Grows.room (grows : free.Grows wider) (room : free.Room needed t) :
    wider.Room needed t := by
  intro u after before
  apply grows
  exact room u after before

theorem Grows.firstFit (grows : free.Grows wider) (canonical : Canonical free.slots)
    (canonicalWider : Canonical wider.slots) (fits : free.firstFit? needed = some start) :
    ∃ earlier, wider.firstFit? needed = some earlier ∧ earlier ≤ start := by
  have room := ((firstFit?_eq_some_iff canonical).mp fits).1
  have roomWider : wider.Room (needed + 1) start := grows.room room
  cases fitsWider : wider.firstFit? needed with
  | none =>
      have nowhere := (firstFit?_eq_none_iff canonicalWider).mp fitsWider
      exact absurd roomWider (nowhere start)
  | some earlier =>
      have least := ((firstFit?_eq_some_iff canonicalWider).mp fitsWider).2
      exact ⟨earlier, rfl, least roomWider⟩

end FreeSlots

/-! ## Single blocks -/

namespace Policy

variable {policy : Policy} {terms later : Terms} {source : Aid} {spec : TrafficSpec}
  {air wider after : Airtime} {start length blocks duration : Nat}

theorem grants_of_accepted
    (granted : (policy.grant terms source spec air).value =
      .ok (.accepted start length blocks, after)) : policy ≠ .cbapOnly := by
  intro refuses
  rw [refuses] at granted
  obtain ⟨reason, rejected, _⟩ := unchanged_of_rejected granted
  cases rejected

theorem placeBlock_of_grows (guard : later.guard = terms.guard)
    (wellFormed : air.slots.WellFormed) (wellFormedWider : wider.slots.WellFormed)
    (small : wider.slots.dti < 2 ^ 32) (grows : air.slots.Grows wider.slots)
    (positive : 0 < duration)
    (placed : (placeBlock terms source spec duration air).value =
      .ok (.accepted start length blocks, after)) :
    ∃ earlier last, earlier ≤ start ∧
      (placeBlock later source spec duration wider).value =
        .ok (.accepted earlier length blocks, last) := by
  generalize answer : Outcome.accepted start length blocks = outcome at placed
  cases placeBlock_answers placed with
  | full => cases answer
  | refused => cases answer
  | granted first after fits adds =>
      have counted : duration + later.guard < 2 ^ 32 := by
        have stop := adds.fits
        rw [Allocation.Fits, requested, Allocation.extent_single] at stop
        have := stop _ (List.mem_singleton_self _)
        dsimp only at this
        omega
      rw [← guard] at fits
      obtain ⟨earlier, fitsWider, le⟩ :=
        grows.firstFit wellFormed.canonical wellFormedWider.canonical fits
      have settled : Settled (placeBlock later source spec duration wider).value :=
        placeBlock_settled wellFormedWider small positive counted
      obtain ⟨outcome, last, ended, unrefused⟩ := settled
      cases placeBlock_answers ended with
      | full nowhere =>
          rw [nowhere] at fitsWider
          cases fitsWider
      | refused _ e => exact absurd rfl (unrefused e)
      | granted second _ fitsSecond _ =>
          have same : second = earlier := Option.some.inj (fitsSecond.symm.trans fitsWider)
          subst same
          cases answer
          exact ⟨second, last, le, ended⟩

theorem grant_of_grows (guard : later.guard = terms.guard)
    (wellFormed : air.slots.WellFormed) (wellFormedWider : wider.slots.WellFormed)
    (small : wider.slots.dti < 2 ^ 32) (grows : air.slots.Grows wider.slots)
    (valid : spec.validate = .ok ()) (single : spec.period = 0)
    (granted : (policy.grant terms source spec air).value =
      .ok (.accepted start length blocks, after)) :
    ∃ earlier last, earlier ≤ start ∧
      (policy.grant later source spec wider).value =
        .ok (.accepted earlier length blocks, last) := by
  have grants := grants_of_accepted granted
  have notPeriodic : spec.isPeriodic = false := by
    simpa [TrafficSpec.isPeriodic] using single
  obtain ⟨duration, desired, positive, _⟩ := TrafficSpec.desiredDuration_of_valid valid
  rw [grant_of_single grants notPeriodic desired] at granted ⊢
  exact placeBlock_of_grows guard wellFormed wellFormedWider small grows positive granted

end Policy

/-! ## What adds free time -/

namespace Registry

theorem coverage_extent_le {guard : Nat} {kept registry : Registry} (kept_le : kept.Sublist registry)
    (t : Nat) :
    coverage (Registry.extent guard kept) t ≤ coverage (Registry.extent guard registry) t := by
  apply List.Sublist.countP_le
  exact kept_le.flatMap _

end Registry

theorem Airtime.Tiled.grows {guard dti longer : Nat} {air after : Airtime}
    (tiled : air.Tiled guard dti) (tiledAfter : after.Tiled guard longer) (length : dti ≤ longer)
    (less : ∀ t, coverage (Registry.extent guard after.registry) t ≤
      coverage (Registry.extent guard air.registry) t) :
    air.slots.Grows after.slots := by
  intro t isFree
  have once := tiled.once t
  have onceAfter := tiledAfter.once t
  have fewer := less t
  rw [FreeSlots.free_iff] at isFree ⊢
  split_ifs at once onceAfter <;> omega

namespace Scheduler

variable {s next : Scheduler} {now : Time}

/-- A deletion, the clean-up of what has expired, a modification, or the start of an interval
whose DTI is not shorter than the last one. -/
inductive Loosens (s : Scheduler) : Scheduler → Prop where
  | delete {now : Time} {key : Allocation.Key} {response : DeletionResponse} {next : Scheduler}
      (deleted : (s.delete now key).value = .ok (response, next)) : Loosens s next
  | cleanUp {now : Time} {next : Scheduler} (cleaned : (s.cleanUp now).value = .ok next) :
      Loosens s next
  | modify {source : Aid} {spec : TrafficSpec} {outcome : Outcome} {air : Airtime}
      (valid : spec.validate = .ok ())
      (modified : (s.policy.modify s.terms source spec s.air).value = .ok (outcome, air)) :
      Loosens s { s with air }
  | startInterval {now : Time} {coordinator : Aid} {interval header announcement : Nat}
      {wakeup : Wakeup} {next : Scheduler} (counted : interval < 2 ^ 32)
      (longer : s.timing.dti ≤ interval - header)
      (started : (s.startInterval now coordinator interval header announcement).value =
        .ok (wakeup, next)) : Loosens s next

structure Widens (s next : Scheduler) : Prop where
  limits : next.limits = s.limits
  tiled : next.Tiled
  small : next.timing.dti < 2 ^ 32
  grows : s.air.slots.Grows next.air.slots

theorem widens_of_air {air : Airtime} (tiled : s.Tiled) (small : s.timing.dti < 2 ^ 32)
    (tiledAir : air.Tiled s.limits.guard s.timing.dti)
    (less : ∀ t, coverage (Registry.extent s.limits.guard air.registry) t ≤
      coverage (Registry.extent s.limits.guard s.air.registry) t) :
    s.Widens { s with air } :=
  ⟨rfl, tiledAir, small, tiled.grows tiledAir (Nat.le_refl _) less⟩

theorem Widens.refl (tiled : s.Tiled) (small : s.timing.dti < 2 ^ 32) : s.Widens s :=
  ⟨rfl, tiled, small, .refl _⟩

theorem delete_widens {key : Allocation.Key} {response : DeletionResponse} (tiled : s.Tiled)
    (small : s.timing.dti < 2 ^ 32)
    (deleted : (s.delete now key).value = .ok (response, next)) : s.Widens next := by
  rcases delete_cases tiled deleted with ⟨_, same⟩ | ⟨a, slots, statistics, _, tiling, rest⟩
  · rw [same]
    exact .refl tiled small
  · have tiledAir : (⟨s.air.registry.erase key, slots⟩ : Airtime).Tiled s.limits.guard
        s.timing.dti := tiling
    have widens := widens_of_air tiled small tiledAir
      (Registry.coverage_extent_le List.eraseP_sublist)
    rw [rest]
    exact ⟨rfl, widens.tiled, small, widens.grows⟩

theorem cleanUp_widens (tiled : s.Tiled) (small : s.timing.dti < 2 ^ 32)
    (cleaned : (s.cleanUp now).value = .ok next) : s.Widens next := by
  obtain ⟨air, rest, kept, tiledAir⟩ := cleanUp_eq_ok tiled cleaned
  rw [rest]
  apply widens_of_air tiled small tiledAir
  rw [kept]
  exact Registry.coverage_extent_le (Registry.purge_sublist _)

theorem modify_widens {source : Aid} {spec : TrafficSpec} {outcome : Outcome} {air : Airtime}
    (tiled : s.Tiled) (small : s.timing.dti < 2 ^ 32) (valid : spec.validate = .ok ())
    (modified : (s.policy.modify s.terms source spec s.air).value = .ok (outcome, air)) :
    s.Widens { s with air } := by
  rcases Policy.modify_routes modified with ⟨_, _, same⟩ | shortened
  · rw [same]
    exact .refl tiled small
  rcases Policy.shorten_cases valid shortened with
    ⟨_, _, same⟩ | ⟨current, duration, _, _, _, ⟨_, same⟩ | shortens⟩
  · rw [same]
    exact .refl tiled small
  · rw [same]
    exact .refl tiled small
  · have shortens : s.air.Shortens s.limits.guard _ current duration air := shortens
    refine ⟨rfl, Airtime.Tiled.shorten tiled shortens, small, ?_⟩
    have covered := (shortens.coverage_slots tiled.wellFormed).2.2
    have cut := current.coverage_extent_cut s.limits.guard (Nat.le_of_lt shortens.shorter)
    intro t isFree
    have := covered t
    have := cut t
    rw [FreeSlots.free_iff] at isFree ⊢
    dsimp only
    omega

theorem startInterval_widens {coordinator : Aid} {interval header announcement : Nat}
    {wakeup : Wakeup} (tiled : s.Tiled) (counted : interval < 2 ^ 32)
    (longer : s.timing.dti ≤ interval - header)
    (started : (s.startInterval now coordinator interval header announcement).value =
      .ok (wakeup, next)) : s.Widens next := by
  have step := startInterval_step tiled started
  have timing := (startInterval_begins tiled started).2.2
  have dti : next.timing.dti = interval - header := congrArg Timing.dti timing
  have small : interval - header < 2 ^ 32 := by omega
  refine ⟨step.limits, step.tiled, by omega, ?_⟩
  by_cases same : interval - header = s.timing.dti
  · rw [(startInterval_keeps tiled same started).1]
    exact .refl _
  · have shows := startInterval_shows tiled small same started
    have slots : next.air.slots = (s.air.fitted s.limits.guard (interval - header)).slots := by
      rw [shows.air, Airtime.announced]
    rw [slots]
    apply Airtime.Tiled.grows tiled (tiled.fitted (interval - header)) longer
    intro t
    exact Registry.coverage_extent_le List.filter_sublist t

theorem Loosens.widens (loosens : s.Loosens next) (tiled : s.Tiled)
    (small : s.timing.dti < 2 ^ 32) : s.Widens next := by
  cases loosens with
  | delete deleted => exact delete_widens tiled small deleted
  | cleanUp cleaned => exact cleanUp_widens tiled small cleaned
  | modify valid modified => exact modify_widens tiled small valid modified
  | startInterval counted longer started =>
      exact startInterval_widens tiled counted longer started

theorem widens_of_steps (steps : Relation.ReflTransGen Loosens s next) (tiled : s.Tiled)
    (small : s.timing.dti < 2 ^ 32) : s.Widens next := by
  induction steps with
  | refl => exact .refl tiled small
  | tail _ loosens before =>
      have widens := loosens.widens before.tiled before.small
      exact ⟨widens.limits.trans before.limits, widens.tiled, widens.small,
        before.grows.trans widens.grows⟩

/-- A request for a single block that is granted is granted wherever everything that was free is
still free, no later than before and with the same duration.  So it is after any number of
deletions, clean-ups, modifications and intervals with a DTI that is no shorter. -/
theorem single_block_survives_growth {spec : TrafficSpec} (valid : spec.validate = .ok ())
    (single : spec.period = 0) (policy : Policy) (source : Aid) :
    (∀ (terms later : Terms) (air wider after : Airtime) (start duration blocks : Nat),
      later.guard = terms.guard → air.slots.WellFormed → wider.slots.WellFormed →
      wider.slots.dti < 2 ^ 32 → (∀ t, air.slots.Free t → wider.slots.Free t) →
      (policy.grant terms source spec air).value =
        .ok (.accepted start duration blocks, after) →
      ∃ earlier last, earlier ≤ start ∧
        (policy.grant later source spec wider).value =
          .ok (.accepted earlier duration blocks, last)) ∧
    ∀ (s next : Scheduler) (after : Airtime) (start duration blocks : Nat),
      s.Tiled → s.timing.dti < 2 ^ 32 → Relation.ReflTransGen Loosens s next →
      (policy.grant s.terms source spec s.air).value =
        .ok (.accepted start duration blocks, after) →
      ∃ earlier last, earlier ≤ start ∧
        (policy.grant next.terms source spec next.air).value =
          .ok (.accepted earlier duration blocks, last) := by
  constructor
  · intro terms later air wider after start duration blocks guard wellFormed wellFormedWider small
      grows granted
    exact Policy.grant_of_grows guard wellFormed wellFormedWider small grows valid single granted
  · intro s next after start duration blocks tiled small steps granted
    have widens := widens_of_steps steps tiled small
    have guard : next.terms.guard = s.terms.guard := congrArg Limits.guard widens.limits
    have length : next.air.slots.dti < 2 ^ 32 := by
      rw [widens.tiled.length]
      exact widens.small
    exact Policy.grant_of_grows guard tiled.wellFormed widens.tiled.wellFormed length widens.grows
      valid single granted

/-- The free slots of another DTI, which is longer and cut otherwise: where there were two
slots there is one, and another one comes first. -/
def mergedAir : Airtime :=
  ⟨[], ⟨120000, [⟨0, 999⟩, ⟨1500, 120000⟩]⟩⟩

theorem single_blocks_survive :
    (∃ after last earlier,
      (Policy.basic.grant ⟨⟨10, 4096, 255⟩, 102400⟩ 7 (Policy.contentionBlock 989)
        Policy.gappedAir).value = .ok (.accepted 2000 989 1, after) ∧ earlier ≤ 2000 ∧
      (Policy.basic.grant ⟨⟨10, 4096, 255⟩, 102400⟩ 7 (Policy.contentionBlock 989)
        mergedAir).value = .ok (.accepted earlier 989 1, last)) ∧
    ∃ s next after last earlier, spreadRun.value = .ok s ∧ Relation.ReflTransGen Loosens s next ∧
      next.timing.dti = 203800 ∧
      (Policy.periodic.grant s.terms 7 (Policy.contentionBlock 60000) s.air).value =
        .ok (.accepted 40040 60000 1, after) ∧ earlier ≤ 40040 ∧
      (Policy.periodic.grant next.terms 7 (Policy.contentionBlock 60000) next.air).value =
        .ok (.accepted earlier 60000 1, last) := by
  constructor
  · obtain ⟨after, granted⟩ : ∃ after, (Policy.basic.grant ⟨⟨10, 4096, 255⟩, 102400⟩ 7
        (Policy.contentionBlock 989) Policy.gappedAir).value =
          .ok (.accepted 2000 989 1, after) := ⟨_, rfl⟩
    have wider : ∀ t, Policy.gappedAir.slots.Free t → mergedAir.slots.Free t := by
      intro t isFree
      simp [FreeSlots.Free, Policy.gappedAir, FreeSlots.threeSlots, mergedAir] at isFree ⊢
      omega
    obtain ⟨survives, _⟩ := @single_block_survives_growth (Policy.contentionBlock 989)
      (by decide) rfl .basic 7
    obtain ⟨earlier, last, le, grantedWider⟩ :=
      survives _ ⟨⟨10, 4096, 255⟩, 102400⟩ _ mergedAir after 2000 989 1 rfl
        FreeSlots.threeSlots_wellFormed (by constructor <;> decide) (by decide) wider granted
    exact ⟨after, last, earlier, granted, le, grantedWider⟩
  · obtain ⟨⟨_, _, _, _⟩, ran, found⟩ := exists_ok
      (x := (do
        let s ← spreadRun
        let deleted ← s.delete 1100 ⟨3, 7, 4⟩
        let begun ← deleted.2.startInterval 102400 0 204800 1000 0
        let granted ←
          Policy.periodic.grant s.terms 7 (Policy.contentionBlock 60000) s.air
        return (s, deleted, begun, granted) : Noted _).value)
      (f := fun r => (r.1.timing.dti, r.2.1.2.timing.dti, r.2.2.1.2.timing.dti, r.2.2.2.1))
      (b := (101400, 101400, 203800, .accepted 40040 60000 1)) (by decide +kernel)
    simp only [Noted.value_bind, Noted.value_pure, bind_eq_ok_iff, Except.ok.injEq,
      Prod.mk.injEq] at ran found
    obtain ⟨s, ran, ⟨_, middle⟩, deleted, ⟨_, next⟩, started, ⟨_, after⟩, granted, rfl, rfl, rfl,
      rfl⟩ := ran
    obtain ⟨dti, dtiMiddle, dtiNext, rfl⟩ := found
    have steps : Relation.ReflTransGen Loosens s next :=
      (Relation.ReflTransGen.single (.delete deleted)).tail
        (.startInterval (by decide) (by rw [dtiMiddle]; decide) started)
    obtain ⟨tiled, _⟩ := run_tiled ran
    obtain ⟨_, survives⟩ := @single_block_survives_growth (Policy.contentionBlock 60000)
      (by decide) rfl .periodic 7
    obtain ⟨earlier, last, le, grantedNext⟩ :=
      survives s next after 40040 60000 1 tiled (by rw [dti]; decide) steps granted
    exact ⟨s, next, after, last, earlier, ran, steps, dtiNext, granted, le, grantedNext⟩

end Scheduler
end BeaconScheduler
