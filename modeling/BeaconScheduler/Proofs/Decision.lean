import BeaconScheduler.Proofs.Placement

/-!
# Shortened blocks, and decisions as a whole

A shortened allocation keeps the starts of its blocks; what each block gives up is free
afterwards (`reopenTails_eq_ok`).  `decide_cases` lists what a decision can come to: a
rejection that changes nothing, a new allocation, or shorter blocks.
-/

set_option autoImplicit false

namespace BeaconScheduler

open Counter BeaconScheduler.Interval

namespace Registry

variable {registry : Registry} {key : Allocation.Key} {a : Allocation}

theorem split_of_find? (found : registry.find? key = some a) :
    ∃ earlier later, registry = earlier ++ a :: later ∧
      (∀ b, Registry.replace key b registry = earlier ++ b :: later) ∧
      registry.erase key = earlier ++ later := by
  induction registry with
  | nil => simp [Registry.find?] at found
  | cons b rest ih =>
      by_cases same : b.key = key
      · have own : b = a := by simpa [Registry.find?, same] using found
        subst own
        exact ⟨[], rest, rfl, fun c => by simp [Registry.replace, same],
          by simp [Registry.erase, same]⟩
      · have foundRest : Registry.find? rest key = some a := by
          simpa [Registry.find?, same] using found
        obtain ⟨earlier, later, split, replaced, erased⟩ := ih foundRest
        refine ⟨b :: earlier, later, by rw [split]; rfl, fun c => ?_, ?_⟩
        · simp [Registry.replace, same, replaced c]
        · rw [Registry.erase] at erased ⊢
          simp [same, erased]

theorem key_of_find? (found : registry.find? key = some a) : a.key = key := by
  simpa using List.find?_some found

theorem find?_replace {b : Allocation} (found : registry.find? key = some a)
    (own : b.key = key) : Registry.find? (Registry.replace key b registry) key = some b := by
  induction registry with
  | nil => simp [Registry.find?] at found
  | cons c rest ih =>
      by_cases same : c.key = key
      · simp [Registry.replace, Registry.find?, same, own]
      · have foundRest : Registry.find? rest key = some a := by
          simpa [Registry.find?, same] using found
        simpa [Registry.replace, Registry.find?, same] using ih foundRest

end Registry

/-! ## Tails -/

namespace FreeSlots

variable {free after : FreeSlots} {stop length : Nat}

theorem reopenTail_eq_ok (wellFormed : free.WellFormed)
    (reopened : free.reopenTail stop length = .ok (.ok after)) :
    after.WellFormed ∧ after.dti = free.dti ∧
      ∀ t, coverage after.slots t = coverage free.slots t + coverage [⟨stop, stop + length⟩] t := by
  unfold reopenTail at reopened
  split_ifs at reopened with unchanged
  · obtain rfl := Except.ok.inj (Except.ok.inj reopened)
    refine ⟨wellFormed, rfl, fun t => ?_⟩
    rw [coverage_singleton, if_neg (by dsimp only; omega), Nat.add_zero]
  · simp only [bind_eq_ok_iff, add_eq_ok_iff, pure_eq_ok_iff] at reopened
    obtain ⟨_, ⟨_, rfl⟩, released⟩ := reopened
    exact (release_eq_ok wellFormed released).2

end FreeSlots

namespace Allocation

variable {a : Allocation} {guard duration : Nat}

def withDuration (a : Allocation) (duration : Nat) : Allocation :=
  { a with blockDuration := duration }

theorem extent_withDuration (a : Allocation) (guard duration : Nat) :
    (a.withDuration duration).extent guard =
      if a.isPeriodic then
        (List.range a.blocks).map ((a.withDuration duration).blockExtent guard)
      else
        [(a.withDuration duration).spanExtent guard] := rfl

@[simp] theorem blockExtent_withDuration (i : Nat) :
    (a.withDuration duration).blockExtent guard i =
      ⟨a.start + i * a.blockPeriod,
        a.start + i * a.blockPeriod + duration + a.tailLength guard⟩ := rfl

@[simp] theorem spanExtent_withDuration :
    (a.withDuration duration).spanExtent guard =
      ⟨a.start, a.start + duration * a.blocks + a.tailLength guard⟩ := rfl

theorem extents_withDuration (a : Allocation) (guard duration : Nat) :
    ∃ (indices : List Nat) (old new : Nat → Interval),
      a.extent guard = indices.map old ∧
      (a.withDuration duration).extent guard = indices.map new ∧
      (∀ i, (old i).start = (new i).start ∧ (new i).start ≤ (new i).stop) ∧
      (duration ≤ a.blockDuration → ∀ i, (new i).stop ≤ (old i).stop) := by
  rw [extent_withDuration, extent]
  split_ifs with periodic
  · refine ⟨List.range a.blocks, a.blockExtent guard, (a.withDuration duration).blockExtent guard,
      rfl, rfl, fun i => ⟨rfl, ?_⟩, fun shorter i => ?_⟩
    · dsimp only [blockExtent_withDuration]
      omega
    · dsimp only [blockExtent_withDuration, blockExtent]
      omega
  · refine ⟨[0], fun _ => a.spanExtent guard, fun _ => (a.withDuration duration).spanExtent guard,
      rfl, rfl, fun i => ⟨rfl, ?_⟩, fun shorter i => ?_⟩
    · dsimp only [spanExtent_withDuration]
      omega
    · have := Nat.mul_le_mul_right a.blocks shorter
      dsimp only [spanExtent_withDuration, spanExtent]
      omega

theorem nonempty_withDuration (positive : 0 < duration)
    (nonempty : ∀ i ∈ a.extent guard, i.start < i.stop) :
    ∀ i ∈ (a.withDuration duration).extent guard, i.start < i.stop := by
  rw [extent_withDuration]
  rw [extent] at nonempty
  split_ifs at nonempty ⊢ with periodic
  · intro i member
    obtain ⟨k, _, rfl⟩ := List.mem_map.mp member
    rw [blockExtent_withDuration]
    dsimp only
    omega
  · intro i member
    obtain rfl := List.mem_singleton.mp member
    have before := nonempty _ (List.mem_singleton_self _)
    rw [spanExtent_withDuration]
    dsimp only [spanExtent] at before ⊢
    rcases Nat.eq_zero_or_pos a.blocks with none | some
    · rw [none, Nat.mul_zero] at before ⊢
      exact before
    · have := Nat.mul_pos positive some
      omega

end Allocation

namespace Policy

theorem reopenTails_eq_ok {free after : FreeSlots} {blocks : List (Interval × Interval)}
    (wellFormed : free.WellFormed)
    (aligned : ∀ block ∈ blocks, block.1.start = block.2.start ∧ block.2.start ≤ block.2.stop)
    (reopened : (reopenTails free blocks).value = .ok (.ok after)) :
    after.WellFormed ∧ after.dti = free.dti ∧
      ∀ t, coverage after.slots t + coverage (blocks.map Prod.snd) t =
        coverage free.slots t + coverage (blocks.map Prod.fst) t := by
  induction blocks generalizing free with
  | nil =>
      obtain rfl := Except.ok.inj (Except.ok.inj reopened)
      exact ⟨wellFormed, rfl, fun t => rfl⟩
  | cons block rest ih =>
      obtain ⟨old, new⟩ := block
      obtain ⟨⟨starts, ordered⟩, alignedRest⟩ := List.forall_mem_cons.mp aligned
      simp only [reopenTails, Noted.value_bind, Noted.value_lift, Noted.value_note,
        Airtime.value_reopenSlot, bind_eq_ok_iff, sub_eq_ok_iff, ok_bind] at reopened
      obtain ⟨_, ⟨shrinks, rfl⟩, result, first, reopened⟩ := reopened
      cases result with
      | error e => simp at reopened
      | ok middle =>
          obtain ⟨wellFormedMiddle, dtiMiddle, covered⟩ :=
            FreeSlots.reopenTail_eq_ok wellFormed first
          obtain ⟨wellFormedAfter, dtiAfter, coveredRest⟩ :=
            ih wellFormedMiddle alignedRest reopened
          refine ⟨wellFormedAfter, dtiAfter.trans dtiMiddle, fun t => ?_⟩
          have tail := covered t
          have others := coveredRest t
          rw [coverage_singleton] at tail
          simp only [List.map_cons, coverage_cons old, coverage_cons new]
          dsimp only at tail starts ordered
          split_ifs at tail ⊢ <;> omega

end Policy

namespace Airtime

/-- The airtime with the blocks of the key's allocation cut down to `duration`. -/
structure Shortens (guard : Nat) (key : Allocation.Key) (current : Allocation) (duration : Nat)
    (air after : Airtime) : Prop where
  found : air.registry.find? key = some current
  positive : 0 < duration
  shorter : duration < current.blockDuration
  fits : (current.withDuration duration).Fits guard
  reopened : (Policy.reopenTails air.slots ((current.extent guard).zip
    ((current.withDuration duration).extent guard))).value = .ok (.ok after.slots)
  registered : after.registry = Registry.replace key (current.withDuration duration) air.registry

theorem Shortens.coverage_slots {guard duration : Nat} {key : Allocation.Key}
    {current : Allocation} {air after : Airtime} (wellFormed : air.slots.WellFormed)
    (shortens : Shortens guard key current duration air after) :
    after.slots.WellFormed ∧ after.slots.dti = air.slots.dti ∧
      ∀ t, coverage after.slots.slots t +
          coverage ((current.withDuration duration).extent guard) t =
        coverage air.slots.slots t + coverage (current.extent guard) t := by
  obtain ⟨indices, old, new, oldExtent, newExtent, aligned, _⟩ :=
    current.extents_withDuration guard duration
  have reopened := shortens.reopened
  rw [oldExtent, newExtent, List.zip_map'] at reopened
  have spec := Policy.reopenTails_eq_ok wellFormed
    (by
      intro block member
      obtain ⟨i, _, rfl⟩ := List.mem_map.mp member
      exact aligned i) reopened
  rw [oldExtent, newExtent]
  simpa only [List.map_map, Function.comp_def] using spec

end Airtime

namespace Policy

variable {policy : Policy} {terms : Terms} {source : Aid} {spec : TrafficSpec}
  {air after : Airtime} {outcome : Outcome}

theorem modify_eq_shorten (grants : policy ≠ .cbapOnly) :
    policy.modify terms source spec air = shorten terms source spec air := by
  cases policy with
  | cbapOnly => exact absurd rfl grants
  | basic => rfl
  | periodic => rfl

theorem modify_routes
    (modified : (policy.modify terms source spec air).value = .ok (outcome, after)) :
    (∃ reason, outcome = .rejected reason ∧ after = air) ∨
      (shorten terms source spec air).value = .ok (outcome, after) := by
  cases policy with
  | cbapOnly => exact .inl (unchanged_of_rejected modified)
  | basic => exact .inr modified
  | periodic => exact .inr modified

inductive ShortenAnswer (terms : Terms) (source : Aid) (spec : TrafficSpec) (air : Airtime) :
    Outcome → Airtime → Prop where
  | unknown (absent : air.registry.find? (spec.key source) = none) :
      ShortenAnswer terms source spec air (.rejected .notFound) air
  | increase (current : Allocation) (duration : Nat)
      (desired : spec.desiredDuration = .ok duration)
      (found : air.registry.find? (spec.key source) = some current)
      (longer : current.blockDuration < duration) :
      ShortenAnswer terms source spec air
        (.rejected (.durationIncrease current.blockDuration duration)) air
  | unchanged (current : Allocation)
      (desired : spec.desiredDuration = .ok current.blockDuration)
      (found : air.registry.find? (spec.key source) = some current) :
      ShortenAnswer terms source spec air (.granted current) air
  | refused (e : SlotError) : ShortenAnswer terms source spec air (.rejected (.slots e)) air
  | shortened (current : Allocation) (duration : Nat) (slots : FreeSlots)
      (desired : spec.desiredDuration = .ok duration)
      (found : air.registry.find? (spec.key source) = some current)
      (shorter : duration < current.blockDuration)
      (fits : (current.withDuration duration).Fits terms.guard)
      (reopened : (reopenTails air.slots ((current.extent terms.guard).zip
        ((current.withDuration duration).extent terms.guard))).value = .ok (.ok slots)) :
      ShortenAnswer terms source spec air (.granted (current.withDuration duration))
        ⟨Registry.replace (spec.key source) (current.withDuration duration) air.registry, slots⟩

theorem shorten_answers
    (shortened : (shorten terms source spec air).value = .ok (outcome, after)) :
    ShortenAnswer terms source spec air outcome after := by
  simp only [shorten, Noted.value_bind, Noted.value_lift, bind_eq_ok_iff] at shortened
  obtain ⟨duration, desired, shortened⟩ := shortened
  cases found : air.registry.find? (spec.key source) with
  | none =>
      simp only [found, Noted.value_pure, Except.ok.injEq] at shortened
      obtain ⟨rfl, rfl⟩ := Prod.mk.inj shortened
      exact .unknown found
  | some current =>
      simp only [found] at shortened
      split_ifs at shortened with longer same
      · simp only [Noted.value_bind, Noted.value_note, ok_bind, Noted.value_pure,
          Except.ok.injEq] at shortened
        obtain ⟨rfl, rfl⟩ := Prod.mk.inj shortened
        exact .increase current duration desired found longer
      · simp only [Noted.value_pure, Except.ok.injEq] at shortened
        obtain ⟨rfl, rfl⟩ := Prod.mk.inj shortened
        exact .unchanged current (same ▸ desired) found
      · simp only [Noted.value_bind, Noted.value_lift, bind_eq_ok_iff,
          Allocation.occupied_eq_ok_iff] at shortened
        obtain ⟨_, ⟨rfl, _⟩, _, ⟨rfl, fits⟩, result, reopened, shortened⟩ := shortened
        cases result with
        | error refused =>
            obtain ⟨start, e⟩ := refused
            simp only [Noted.value_bind, Noted.value_note, ok_bind, Noted.value_pure,
              Except.ok.injEq] at shortened
            obtain ⟨rfl, rfl⟩ := Prod.mk.inj shortened
            exact .refused e
        | ok slots =>
            simp only [Noted.value_bind, Noted.value_note, ok_bind, Noted.value_pure,
              Except.ok.injEq] at shortened
            obtain ⟨rfl, rfl⟩ := Prod.mk.inj shortened
            exact .shortened current duration slots desired found (by omega) fits reopened

theorem shorten_cases (valid : spec.validate = .ok ())
    (shortened : (shorten terms source spec air).value = .ok (outcome, after)) :
    (∃ reason, outcome = .rejected reason ∧ after = air) ∨
      ∃ current duration, spec.desiredDuration = .ok duration ∧
        air.registry.find? (spec.key source) = some current ∧
        outcome = .granted (current.withDuration duration) ∧
        ((duration = current.blockDuration ∧ after = air) ∨
          air.Shortens terms.guard (spec.key source) current duration after) := by
  cases shorten_answers shortened with
  | unknown => exact .inl ⟨_, rfl, rfl⟩
  | increase => exact .inl ⟨_, rfl, rfl⟩
  | refused => exact .inl ⟨_, rfl, rfl⟩
  | unchanged current desired found =>
      exact .inr ⟨current, current.blockDuration, desired, found, rfl, .inl ⟨rfl, rfl⟩⟩
  | shortened current duration slots desired found shorter fits reopened =>
      refine .inr ⟨current, duration, desired, found, rfl, .inr ?_⟩
      exact ⟨found, desiredDuration_pos valid desired, shorter, fits, reopened, rfl⟩

theorem decide_cases {now : Time} {request : AdmissionRequest}
    (decided : (policy.decide terms now request air).value = .ok (outcome, after)) :
    (∃ reason, outcome = .rejected reason ∧ after = air) ∨
      (air.registry.contains request.key = false ∧
        ∃ a, outcome = .granted a ∧ Answers policy terms request.source request.spec a ∧
          air.Adds terms.guard a after) ∨
      ∃ current duration, request.spec.desiredDuration = .ok duration ∧
        air.registry.find? request.key = some current ∧
        outcome = .granted (current.withDuration duration) ∧
        ((duration = current.blockDuration ∧ after = air) ∨
          air.Shortens terms.guard request.key current duration after) := by
  unfold decide at decided
  cases valid : request.spec.validate with
  | error problem =>
      simp only [valid, Noted.value_bind, Noted.value_noteAt, ok_bind] at decided
      exact Or.inl (unchanged_of_rejected decided)
  | ok _ =>
      simp only [valid] at decided
      split_ifs at decided with registered
      · rcases modify_routes decided with rejected | shortened
        · exact Or.inl rejected
        · exact (shorten_cases valid shortened).imp_right Or.inr
      · refine (grant_cases decided).imp_right fun granted => Or.inl ⟨?_, granted⟩
        simpa using registered

end Policy
end BeaconScheduler
