import BeaconScheduler.Proofs.Attempts
import BeaconScheduler.Proofs.Sums

/-!
# Grants as reservations

A policy claims the blocks of a new allocation itself, up to ends that it adds up itself, and makes
the allocation afterwards.  `reserve` starts from the allocation and claims what it occupies, and
`giveBack` later returns the same.  The three agree: from the airtime of a grant the granted
allocation could have been reserved, with the same registry and the same free slots after it
(`grant_reserves`).  Which intervals were claimed or returned is read off the journal.
-/

set_option autoImplicit false

namespace BeaconScheduler

open Counter BeaconScheduler.Interval

namespace Journal.Event

def taken? : Journal.Event → Option Interval
  | .claimed taken _ _ => some taken
  | _ => none

def returned? : Journal.Event → Option Interval
  | .released returned _ => some returned
  | _ => none

end Journal.Event

open Airtime (usualTerms blocksFor quarterBlocks)
open Journal.Event (taken? returned?)

namespace Noted

variable {α β : Type} {view : Journal.Event → Option Interval}

/-- The computation ends with `a`, and its journal shows the intervals of `list`. -/
structure Shows (view : Journal.Event → Option Interval) (x : Noted α) (a : α)
    (list : List Interval) : Prop where
  value : x.value = .ok a
  shown : x.notes.filterMap (fun entry => view entry.event) = list

namespace Shows

variable {x : Noted α} {f : α → Noted β} {a : α} {b : β} {first rest : List Interval}

theorem pure (a : α) : Shows view (Pure.pure a) a [] :=
  ⟨rfl, rfl⟩

theorem lift {value : Except Fault α} (ended : value = .ok a) : Shows view (liftM value) a [] :=
  ⟨ended, rfl⟩

theorem note (event : Journal.Event) : Shows view (Noted.note event) () (view event).toList := by
  refine ⟨rfl, ?_⟩
  simp only [Noted.note, List.filterMap_cons, List.filterMap_nil]
  cases view event <;> rfl

theorem bind (one : Shows view x a first) (other : Shows view (f a) b rest) :
    Shows view (x >>= f) b (first ++ rest) := by
  obtain ⟨value, notes⟩ := x
  obtain ⟨rfl, shown⟩ := one
  refine ⟨other.value, ?_⟩
  change (notes ++ (f a).notes).filterMap _ = _
  rw [List.filterMap_append, shown, other.shown]

theorem silently (one : Shows view x a []) (other : Shows view (f a) b rest) :
    Shows view (x >>= f) b rest :=
  one.bind other

theorem quietly (one : Shows view x a first) (other : Shows view (f a) b []) :
    Shows view (x >>= f) b first := by
  have both := one.bind other
  rwa [List.append_nil] at both

end Shows
end Noted

namespace FreeSlots

variable {free left : FreeSlots} {list : List Interval} {start stop : Nat}

theorem claimEach_nonempty (claimed : free.claimEach list = .ok left) :
    ∀ i ∈ list, i.start < i.stop := by
  induction list generalizing free with
  | nil => simp
  | cons i rest ih =>
      obtain ⟨middle, first, claimedRest⟩ := claimEach_cons_eq_ok.mp claimed
      have own : i.start < i.stop := by
        by_contra empty
        rw [claim, if_pos (by omega)] at first
        cases first
      exact List.forall_mem_cons.mpr ⟨own, ih claimedRest⟩

theorem dti_of_release (released : free.release start stop = .ok left) : left.dti = free.dti := by
  unfold release at released
  split_ifs at released
  cases returned : putBack start stop free.slots with
  | none => simp [returned] at released
  | some slots =>
      simp only [returned, Except.ok.injEq] at released
      rw [← released]

end FreeSlots

namespace Airtime

variable {terms : Terms} {air after : Airtime} {a : Allocation} {free left : FreeSlots}
  {list : List Interval} {start stop : Nat}

/-! ## What the operations on airtime show -/

theorem claimSlot_shows (claimed : free.claim start stop = .ok left) :
    (claimSlot free start stop).Shows taken? (.ok left) [⟨start, stop⟩] := by
  unfold claimSlot
  simp only [claimed]
  exact (Noted.Shows.note _).quietly (.pure _)

theorem claimAll_shows (claimed : free.claimEach list = .ok left) :
    (claimAll free list).Shows taken? (.ok left) list := by
  induction list generalizing free with
  | nil =>
      obtain rfl := Except.ok.inj claimed
      exact .pure _
  | cons i rest ih =>
      obtain ⟨middle, first, claimedRest⟩ := FreeSlots.claimEach_cons_eq_ok.mp claimed
      exact (claimSlot_shows first).bind (ih claimedRest)

theorem register_shows {guard : Nat} (registry : Registry) (fits : a.Fits guard) :
    ∃ stop, (register registry a).Shows taken? (stop, registry ++ [a]) [] := by
  obtain ⟨stop, ends⟩ := Allocation.stop_ends fits
  exact ⟨stop, .silently (.lift ends) (.silently (.note _) (.pure _))⟩

theorem Adds.eq_registered {guard : Nat} (adds : air.Adds guard a after) :
    after = ⟨air.registry ++ [a], after.slots⟩ := by
  rw [← adds.registered]

theorem Adds.reserve_shows (adds : air.Adds terms.guard a after) :
    ∃ stop, (air.reserve terms a).Shows taken? (.ok stop, after) (a.extent terms.guard) := by
  obtain ⟨stop, registers⟩ := register_shows air.registry adds.fits
  have occupied := Allocation.occupied_eq_ok_iff.mpr ⟨rfl, adds.fits⟩
  refine ⟨stop, ?_⟩
  rw [adds.eq_registered]
  exact .silently (.lift occupied)
    (.quietly (claimAll_shows adds.claimed) (.silently registers (.pure _)))

theorem releaseSlot_shows (released : free.release start stop = .ok left) :
    (releaseSlot free start stop).Shows returned? (.ok left) [⟨start, stop⟩] := by
  unfold releaseSlot
  simp only [released]
  exact (Noted.Shows.note _).quietly (.pure _)

theorem releaseAll_shows (nonempty : ∀ i ∈ list, i.start < i.stop)
    (inside : ∀ i ∈ list, i.stop ≤ free.dti)
    (released : (releaseAll free list).value = .ok (.ok (), left)) :
    (releaseAll free list).Shows returned? (.ok (), left) list := by
  induction list generalizing free with
  | nil => exact ⟨released, rfl⟩
  | cons i rest ih =>
      obtain ⟨own, nonemptyRest⟩ := List.forall_mem_cons.mp nonempty
      obtain ⟨bound, insideRest⟩ := List.forall_mem_cons.mp inside
      rw [releaseAll, Nat.min_eq_left bound, if_pos own] at released ⊢
      rw [Noted.value_bind, value_releaseSlot, ok_bind] at released
      cases first : free.release i.start i.stop with
      | error e => simp [first] at released
      | ok middle =>
          simp only [first] at released
          have length := FreeSlots.dti_of_release first
          exact (releaseSlot_shows first).bind (ih nonemptyRest (length ▸ insideRest) released)

theorem giveBack_shows {guard : Nat} (same : terms.guard = guard)
    (nonempty : ∀ i ∈ a.extent guard, i.start < i.stop)
    (inside : ∀ i ∈ a.extent guard, i.stop ≤ air.slots.dti)
    (given : (air.giveBack terms a).value = .ok (.ok (), after)) :
    (air.giveBack terms a).Shows returned? (.ok (), after) (a.extent guard) := by
  subst same
  have ends := given
  simp only [giveBack, Noted.value_bind, Noted.value_lift, bind_eq_ok_iff,
    Allocation.occupied_eq_ok_iff] at ends
  obtain ⟨_, ⟨rfl, fits⟩, ⟨result, slots⟩, released, joined⟩ := ends
  obtain ⟨rfl, rfl⟩ := Prod.mk.inj (pure_eq_ok_iff.mp joined)
  exact .silently (.lift (Allocation.occupied_eq_ok_iff.mpr ⟨rfl, fits⟩))
    (.quietly (releaseAll_shows nonempty inside released) (.pure _))

theorem Adds.restored (adds : air.Adds terms.guard a after) (wellFormed : air.slots.WellFormed) :
    (after.giveBack terms a).value = .ok (.ok (), { after with slots := air.slots }) := by
  have carving := (Carving.refl terms.guard wellFormed).add adds.fits adds.claimed
  obtain ⟨slots, given, rest⟩ := carving.giveBack terms after wellFormed
  obtain rfl := rest.eq_whole wellFormed
  exact given

end Airtime

namespace Policy

variable {policy : Policy} {terms : Terms} {source : Aid} {spec : TrafficSpec}
  {air after : Airtime} {outcome : Outcome} {duration guard : Nat} {free left : FreeSlots}
  {offsets : List Nat}

/-! ## What the placements show -/

theorem claimBlocks_shows (counted : ∀ start ∈ offsets, start + duration + guard < 2 ^ 32)
    (claimed : free.claimEach (offsets.map fun start => ⟨start, start + duration + guard⟩) =
      .ok left) :
    (claimBlocks duration guard free offsets).Shows taken? (.ok left)
      (offsets.map fun start => ⟨start, start + duration + guard⟩) := by
  induction offsets generalizing free with
  | nil =>
      obtain rfl := Except.ok.inj claimed
      exact .pure _
  | cons start rest ih =>
      obtain ⟨own, others⟩ := List.forall_mem_cons.mp counted
      obtain ⟨middle, first, claimedRest⟩ := FreeSlots.claimEach_cons_eq_ok.mp claimed
      have block : add32 start duration = .ok (start + duration) := add32_of_lt (by omega)
      have guarded : add32 (start + duration) guard = .ok (start + duration + guard) :=
        add32_of_lt own
      refine .silently (.lift block) (.silently (.lift guarded) ?_)
      exact (Airtime.claimSlot_shows first).bind (ih others claimedRest)

theorem findOffsets_shows {spacing : Nat}
    (found : free.periodicOffsets duration spacing terms.guard terms.maxBlocks = .ok offsets) :
    (findOffsets terms free duration spacing).Shows taken? offsets [] := by
  refine .silently (.lift found) ?_
  dsimp only
  split_ifs
  · exact .silently (.pure _) (.pure _)
  · exact .silently (.note _) (.pure _)

theorem placeBlock_shows {start : Nat}
    (room : air.slots.firstFit? (duration + terms.guard) = some start)
    (adds : air.Adds terms.guard (requested source spec start duration) after) :
    (placeBlock terms source spec duration air).Shows taken?
      (.granted (requested source spec start duration), after)
      ((requested source spec start duration).extent terms.guard) := by
  have same := adds.eq_registered
  obtain ⟨fits, claimed, _⟩ := adds
  obtain ⟨stop, registers⟩ := Airtime.register_shows air.registry fits
  have extent : (requested source spec start duration).extent terms.guard =
      [⟨start, start + duration + terms.guard⟩] := Allocation.extent_single
  rw [extent, FreeSlots.claimEach_singleton] at claimed
  rw [Allocation.Fits, extent] at fits
  have bound : start + duration + terms.guard < 2 ^ 32 := fits _ (List.mem_singleton_self _)
  have needed : add32 duration terms.guard = .ok (duration + terms.guard) :=
    add32_of_lt (by omega)
  have block : add32 start duration = .ok (start + duration) := add32_of_lt (by omega)
  have guarded : add32 (start + duration) terms.guard = .ok (start + duration + terms.guard) :=
    add32_of_lt bound
  refine .silently (.lift needed) ?_
  rw [room, same, extent]
  refine .silently (.lift block) (.silently (.lift guarded) ?_)
  exact (Airtime.claimSlot_shows claimed).quietly (.silently registers (.pure _))

theorem placePeriodic_shows {start : Nat} {rest : List Nat}
    (uncrowded : ¬ Crowded terms spec duration)
    (found : air.slots.periodicOffsets duration (terms.interval / spec.period) terms.guard
      terms.maxBlocks = .ok (start :: rest)) (several : rest ≠ [])
    (adds : air.Adds terms.guard (requestedBlocks source spec start duration (rest.length + 1)
      (terms.interval / spec.period)) after) :
    (placePeriodic terms source spec duration air).Shows taken?
      (.granted (requestedBlocks source spec start duration (rest.length + 1)
        (terms.interval / spec.period)), after)
      ((requestedBlocks source spec start duration (rest.length + 1)
        (terms.interval / spec.period)).extent terms.guard) := by
  have same := adds.eq_registered
  obtain ⟨fits, claimed, _⟩ := adds
  obtain ⟨stop, registers⟩ := Airtime.register_shows air.registry fits
  obtain ⟨positive, equidistant⟩ := FreeSlots.periodicOffsets_eq_ok found
  have extent : (requestedBlocks source spec start duration (rest.length + 1)
      (terms.interval / spec.period)).extent terms.guard =
        (start :: rest).map fun start => ⟨start, start + duration + terms.guard⟩ :=
    extent_requestedBlocks (by have := List.length_pos_iff.mpr several; omega) positive equidistant
  rw [extent] at claimed
  have counted : ∀ t ∈ start :: rest, t + duration + terms.guard < 2 ^ 32 := by
    rw [Allocation.Fits, extent] at fits
    intro t member
    exact fits _ (List.mem_map_of_mem member)
  have own := counted start List.mem_cons_self
  have periodic : spec.period ≠ 0 := by
    intro none
    rw [none, Nat.div_zero] at positive
    exact absurd positive (Nat.lt_irrefl 0)
  have spacing : div terms.interval spec.period = .ok (terms.interval / spec.period) :=
    div_eq_ok_iff.mpr ⟨periodic, rfl⟩
  have needed : add32 duration terms.guard = .ok (duration + terms.guard) :=
    add32_of_lt (by omega)
  obtain ⟨next, more, rfl⟩ := List.exists_cons_of_ne_nil several
  refine .silently (.lift spacing) (.silently (.lift needed) ?_)
  dsimp only
  unfold Crowded at uncrowded
  rw [if_neg uncrowded, same, extent]
  refine .silently (findOffsets_shows found) ?_
  exact (claimBlocks_shows counted claimed).quietly (.silently registers (.pure _))

/-- The grant of `a`, which has left `after`, as a reservation of the `intervals` that `a`
occupies.  Whoever gives the time of `a` back later, to a DTI that is still long enough, returns
the same intervals. -/
structure Reserves (policy : Policy) (terms : Terms) (source : Aid) (spec : TrafficSpec)
    (air : Airtime) (a : Allocation) (intervals : List Interval) (after : Airtime) : Prop where
  registered : after.registry = air.registry ++ [a]
  occupied : a.occupied terms.guard = .ok intervals
  granted : (policy.grant terms source spec air).Shows taken? (.granted a, after) intervals
  reserved : ∃ stop, (air.reserve terms a).Shows taken? (.ok stop, after) intervals
  returned : ∀ (later : Terms) (before left : Airtime), later.guard = terms.guard →
    (∀ i ∈ intervals, i.stop ≤ before.slots.dti) →
    (before.giveBack later a).value = .ok (.ok (), left) →
      (before.giveBack later a).Shows returned? (.ok (), left) intervals
  restored : air.slots.WellFormed →
    (after.giveBack terms a).value = .ok (.ok (), { after with slots := air.slots })

theorem reserves_of_adds {a : Allocation} (adds : air.Adds terms.guard a after)
    (granted : (policy.grant terms source spec air).Shows taken? (.granted a, after)
      (a.extent terms.guard)) :
    Reserves policy terms source spec air a (a.extent terms.guard) after where
  registered := adds.registered
  occupied := Allocation.occupied_eq_ok_iff.mpr ⟨rfl, adds.fits⟩
  granted := granted
  reserved := adds.reserve_shows
  returned _ _ _ same :=
    Airtime.giveBack_shows same (FreeSlots.claimEach_nonempty adds.claimed)
  restored := adds.restored

theorem placeBlock_reserves
    (same : policy.grant terms source spec air = placeBlock terms source spec duration air)
    (placed : (placeBlock terms source spec duration air).value = .ok (outcome, after))
    (accepted : outcome.isAccepted = true) :
    ∃ a intervals, outcome = .granted a ∧
      Reserves policy terms source spec air a intervals after := by
  cases placeBlock_answers placed with
  | full => exact absurd accepted Bool.false_ne_true
  | refused => exact absurd accepted Bool.false_ne_true
  | granted start _ room adds =>
      exact ⟨_, _, rfl, reserves_of_adds adds (same ▸ placeBlock_shows room adds)⟩

theorem placePeriodic_reserves
    (same : policy.grant terms source spec air = placePeriodic terms source spec duration air)
    (placed : (placePeriodic terms source spec duration air).value = .ok (outcome, after))
    (accepted : outcome.isAccepted = true) :
    ∃ a intervals, outcome = .granted a ∧
      Reserves policy terms source spec air a intervals after := by
  cases placePeriodic_answers placed with
  | floor => exact absurd accepted Bool.false_ne_true
  | few => exact absurd accepted Bool.false_ne_true
  | refused => exact absurd accepted Bool.false_ne_true
  | granted start rest _ uncrowded found several adds =>
      exact ⟨_, _, rfl, reserves_of_adds adds
        (same ▸ placePeriodic_shows uncrowded found several adds)⟩

/-- Whatever registry and free slots are, an allocation that a policy grants could have been
reserved, and both claim what the allocation occupies. -/
theorem grant_reserves
    (granted : (policy.grant terms source spec air).value = .ok (outcome, after))
    (accepted : outcome.isAccepted = true) :
    ∃ a intervals, outcome = .granted a ∧
      Reserves policy terms source spec air a intervals after := by
  rcases grant_routes granted with
    ⟨reason, rfl, _⟩ | ⟨duration, _, ⟨_, block⟩ | ⟨_, _, blocks⟩⟩
  · exact absurd accepted Bool.false_ne_true
  · rw [block] at granted
    exact placeBlock_reserves block granted accepted
  · rw [blocks] at granted
    exact placePeriodic_reserves blocks granted accepted

/-- Free slots that overlap the blocks registered under the key. -/
def overbookedAir : Airtime :=
  ⟨[quarterBlocks 0], ⟨101400, [⟨1000, 25600⟩, ⟨26000, 101400⟩]⟩⟩

theorem overbooking_reserves :
    ∃ a after, (Policy.periodic.grant usualTerms 7 (blocksFor 3 2000 4) overbookedAir).value =
        .ok (.accepted 1000 2000 4, after) ∧
      Reserves .periodic usualTerms 7 (blocksFor 3 2000 4) overbookedAir a
        [⟨1000, 3010⟩, ⟨26600, 28610⟩, ⟨52200, 54210⟩, ⟨77800, 79810⟩] after := by
  obtain ⟨after, granted⟩ : ∃ after, (Policy.periodic.grant usualTerms 7 (blocksFor 3 2000 4)
      overbookedAir).value = .ok (.accepted 1000 2000 4, after) := ⟨_, rfl⟩
  obtain ⟨a, intervals, _, reserves⟩ := grant_reserves granted rfl
  obtain rfl := reserves.granted.shown
  exact ⟨a, after, granted, reserves⟩

end Policy
end BeaconScheduler
