import BeaconScheduler.Proofs.Uniqueness

/-!
# Decisions that do not depend on the past

The free slots of a scheduler are determined by what is registered (`Tiled.slots_eq`), and a
decision sees no more of the registry than the allocation of the request's key; a new allocation
is placed by the free slots alone (`value_grant`).  So schedulers with the same allocations have
the same free slots and give the same answers, in whatever order and by whatever requests the
allocations came about.

`Alike mark` compares registries up to order, with the announced flags told apart only as far as
`mark` does: not at all for a constant, entirely for the identity.  A decision neither reads the
flags nor changes one.
-/

set_option autoImplicit false

namespace BeaconScheduler

open Counter BeaconScheduler.Interval

/-! ## Registries -/

namespace Allocation

/-- The allocation with its announced flag seen through `mark`. -/
def remark (mark : Bool → Bool) (a : Allocation) : Allocation :=
  { a with announced := mark a.announced }

theorem eq_of_remark {mark : Bool → Bool} {a b : Allocation}
    (same : a.remark mark = b.remark mark) :
    ∃ announced, mark a.announced = mark announced ∧ b = { a with announced } := by
  cases a
  cases b
  simp only [remark, Allocation.mk.injEq] at same
  obtain ⟨rfl, rfl, rfl, rfl, rfl, rfl, rfl, rfl, flags⟩ := same
  exact ⟨_, flags, rfl⟩

end Allocation

namespace Registry

variable {mark : Bool → Bool} {first second : Registry} {key : Allocation.Key} {a b : Allocation}

/-- The same allocations in any order, as far as `mark` tells their announced flags apart. -/
def Alike (mark : Bool → Bool) (first second : Registry) : Prop :=
  (first.map (Allocation.remark mark)).Perm (second.map (Allocation.remark mark))

theorem Alike.keys (alike : first.Alike mark second) :
    (first.map (·.key)).Perm (second.map (·.key)) := by
  have keys := alike.map (·.key)
  rw [List.map_map, List.map_map] at keys
  exact keys

theorem Alike.distinct (alike : first.Alike mark second) (distinct : first.Distinct) :
    second.Distinct :=
  alike.keys.nodup_iff.mp distinct

theorem Alike.extent_perm (guard : Nat) (alike : first.Alike mark second) :
    (Registry.extent guard first).Perm (Registry.extent guard second) := by
  have unseen : ∀ registry : Registry, Registry.extent guard
      (registry.map (Allocation.remark mark)) = Registry.extent guard registry :=
    extent_map fun _ => rfl
  rw [← unseen first, ← unseen second]
  exact Registry.extent_perm alike

theorem Alike.append (alike : first.Alike mark second) (added : Registry) :
    Registry.Alike mark (first ++ added) (second ++ added) := by
  unfold Alike at alike ⊢
  rw [List.map_append, List.map_append]
  exact alike.append_right _

theorem Alike.mem (alike : first.Alike mark second) (member : a ∈ first) :
    ∃ announced, mark a.announced = mark announced ∧ { a with announced } ∈ second := by
  have marked := alike.mem_iff.mp (List.mem_map_of_mem member)
  obtain ⟨b, registered, same⟩ := List.mem_map.mp marked
  obtain ⟨announced, flags, rfl⟩ := Allocation.eq_of_remark same.symm
  exact ⟨announced, flags, registered⟩

theorem Alike.find? (alike : first.Alike mark second) (distinct : second.Distinct)
    (found : first.find? key = some a) :
    ∃ announced, mark a.announced = mark announced ∧
      second.find? key = some { a with announced } := by
  have own : a.key = key := key_of_find? found
  obtain ⟨announced, flags, registered⟩ := alike.mem (List.mem_of_find?_eq_some found)
  exact ⟨announced, flags, distinct.find?_eq_some_iff.mpr ⟨registered, own⟩⟩

theorem contains_iff_mem (key : Allocation.Key) (registry : Registry) :
    registry.contains key = true ↔ key ∈ registry.map (·.key) := by
  simp [Registry.contains, Registry.find?]

theorem Alike.contains (alike : first.Alike mark second) (key : Allocation.Key) :
    first.contains key = second.contains key := by
  rw [Bool.eq_iff_iff, contains_iff_mem, contains_iff_mem]
  exact alike.keys.mem_iff

theorem Alike.replace {c d : Allocation} (alike : first.Alike mark second)
    (found : first.find? key = some a) (foundOther : second.find? key = some b)
    (same : a.remark mark = b.remark mark) (replaced : c.remark mark = d.remark mark) :
    (Registry.replace key c first).Alike mark (Registry.replace key d second) := by
  obtain ⟨earlier, later, split, replaces, _⟩ := split_of_find? found
  obtain ⟨earlierOther, laterOther, splitOther, replacesOther, _⟩ := split_of_find? foundOther
  rw [replaces, replacesOther]
  unfold Alike at alike ⊢
  rw [split, splitOther] at alike
  simp only [List.map_append, List.map_cons] at alike ⊢
  have rest := (List.perm_middle.symm.trans alike).trans List.perm_middle
  rw [same] at rest
  rw [replaced]
  exact (List.perm_middle.trans (rest.cons_inv.cons _)).trans List.perm_middle.symm

end Registry

/-! ## Free slots -/

namespace Airtime

variable {mark : Bool → Bool} {guard dti : Nat} {air other : Airtime}

theorem Tiled.slots_eq (tiled : air.Tiled guard dti) (tiledOther : other.Tiled guard dti)
    (alike : air.registry.Alike mark other.registry) : air.slots = other.slots := by
  apply tiled.wellFormed.eq_of_coverage tiledOther.wellFormed
  · rw [tiled.length, tiledOther.length]
  · intro t
    have own := tiled.once t
    have others := tiledOther.once t
    rw [coverage_perm (alike.extent_perm guard)] at own
    omega

structure Alike (mark : Bool → Bool) (air other : Airtime) : Prop where
  slots : air.slots = other.slots
  registry : air.registry.Alike mark other.registry

def behind (registry : Registry) (air : Airtime) : Airtime :=
  ⟨registry ++ air.registry, air.slots⟩

end Airtime

/-! ## New allocations -/

namespace Policy

variable {policy : Policy} {terms : Terms} {source : Aid} {spec : TrafficSpec} {duration : Nat}

theorem bind_eq_map {α β γ : Type} {x : Except Fault α} {f : α → Except Fault γ}
    {g : α → Except Fault β} {h : β → γ} (same : ∀ a, f a = (g a).map h) :
    (x >>= f) = (x >>= g).map h := by
  cases x with
  | error fault => rfl
  | ok a => exact same a

theorem map_rejected (registry : Registry) (free : FreeSlots) (reason : Rejection) :
    (pure (.rejected reason, ⟨registry, free⟩) : Noted (Outcome × Airtime)).value =
      (pure (.rejected reason, ⟨[], free⟩) : Noted (Outcome × Airtime)).value.map
        (Prod.map id (Airtime.behind registry)) := by
  rw [Noted.value_pure, Noted.value_pure, Except.map, Prod.map, Airtime.behind, List.append_nil]
  rfl

theorem map_granted (registry : Registry) (slots : FreeSlots) (a : Allocation) :
    (do
      let (_, registry) ← Airtime.register registry a
      return (.granted a, ⟨registry, slots⟩) : Noted (Outcome × Airtime)).value =
    (do
      let (_, registry) ← Airtime.register [] a
      return (.granted a, ⟨registry, slots⟩) : Noted (Outcome × Airtime)).value.map
        (Prod.map id (Airtime.behind registry)) := by
  simp only [Noted.value_bind, Airtime.value_register]
  cases a.stop with
  | error fault => rfl
  | ok stop => rfl

theorem value_placeBlock (registry : Registry) (free : FreeSlots) :
    (placeBlock terms source spec duration ⟨registry, free⟩).value =
      (placeBlock terms source spec duration ⟨[], free⟩).value.map
        (Prod.map id (Airtime.behind registry)) := by
  simp only [placeBlock, Noted.value_bind, Noted.value_lift]
  refine bind_eq_map fun needed => ?_
  cases free.firstFit? needed with
  | none => exact map_rejected registry free .insufficientSpace
  | some start =>
      simp only [Noted.value_bind, Noted.value_lift, Airtime.value_claimSlot, ok_bind]
      refine bind_eq_map fun last => bind_eq_map fun stop => ?_
      cases free.claim start stop with
      | error e => exact map_rejected registry free (.slots e)
      | ok slots => exact map_granted registry slots _

theorem value_placePeriodic (registry : Registry) (free : FreeSlots) :
    (placePeriodic terms source spec duration ⟨registry, free⟩).value =
      (placePeriodic terms source spec duration ⟨[], free⟩).value.map
        (Prod.map id (Airtime.behind registry)) := by
  simp only [placePeriodic, Noted.value_bind, Noted.value_lift]
  refine bind_eq_map fun spacing => bind_eq_map fun needed => ?_
  by_cases crowded : spacing < needed ∨ spacing - duration < terms.minBroadcastCbap
  · rw [if_pos crowded, if_pos crowded]
    exact map_rejected registry free _
  rw [if_neg crowded, if_neg crowded]
  simp only [Noted.value_bind]
  refine bind_eq_map fun offsets => ?_
  obtain _ | ⟨start, _ | ⟨next, more⟩⟩ := offsets
  · exact map_rejected registry free _
  · exact map_rejected registry free _
  · simp only [Noted.value_bind]
    refine bind_eq_map fun result => ?_
    cases result with
    | error e => exact map_rejected registry free (.slots e)
    | ok slots => exact map_granted registry slots _

theorem value_grant (registry : Registry) (free : FreeSlots) :
    (policy.grant terms source spec ⟨registry, free⟩).value =
      (policy.grant terms source spec ⟨[], free⟩).value.map
        (Prod.map id (Airtime.behind registry)) := by
  cases policy with
  | cbapOnly => exact map_rejected registry free .cbapOnly
  | basic =>
      rw [grant, grant]
      by_cases periodic : spec.isPeriodic = true
      · rw [if_pos periodic, if_pos periodic]
        exact map_rejected registry free .periodicNotSupported
      · rw [if_neg periodic, if_neg periodic]
        simp only [Noted.value_bind, Noted.value_lift]
        exact bind_eq_map fun duration => value_placeBlock registry free
  | periodic =>
      simp only [grant, Noted.value_bind, Noted.value_lift]
      refine bind_eq_map fun duration => ?_
      by_cases periodic : spec.isPeriodic = true
      · rw [if_pos periodic, if_pos periodic]
        exact value_placePeriodic registry free
      · rw [if_neg periodic, if_neg periodic]
        exact value_placeBlock registry free

/-! ## Decisions -/

variable {mark : Bool → Bool} {air other after : Airtime} {outcome : Outcome}
  {request : AdmissionRequest} {now later : Time}

theorem grant_alike (alike : air.Alike mark other)
    (granted : (policy.grant terms source spec air).value = .ok (outcome, after)) :
    ∃ last, (policy.grant terms source spec other).value = .ok (outcome, last) ∧
      after.Alike mark last := by
  obtain ⟨registry, free⟩ := air
  obtain ⟨registryOther, freeOther⟩ := other
  obtain ⟨same, alike⟩ := alike
  dsimp only at same alike
  subst same
  rw [value_grant] at granted
  cases placed : (policy.grant terms source spec ⟨[], free⟩).value with
  | error fault =>
      rw [placed] at granted
      cases granted
  | ok answer =>
      rw [placed] at granted
      obtain ⟨rfl, rfl⟩ := Prod.mk.inj (Except.ok.inj granted)
      refine ⟨answer.2.behind registryOther, ?_, rfl, alike.append answer.2.registry⟩
      rw [value_grant, placed]
      rfl

theorem shorten_alike (alike : air.Alike mark other) (distinct : other.registry.Distinct)
    (registered : air.registry.contains (spec.key source) = true)
    (shortened : (shorten terms source spec air).value = .ok (outcome, after)) :
    ∃ last, (shorten terms source spec other).value = .ok (outcome, last) ∧
      after.Alike mark last := by
  obtain ⟨registry, free⟩ := air
  obtain ⟨registryOther, freeOther⟩ := other
  obtain ⟨same, alike⟩ := alike
  dsimp only at same alike
  subst same
  obtain ⟨current, found⟩ := Option.isSome_iff_exists.mp registered
  obtain ⟨announced, flags, foundOther⟩ := alike.find? distinct found
  simp only [shorten, Noted.value_bind, Noted.value_lift, bind_eq_ok_iff, found] at shortened
  simp only [shorten, Noted.value_bind, Noted.value_lift, foundOther]
  obtain ⟨duration, desired, shortened⟩ := shortened
  rw [desired, ok_bind]
  split_ifs at shortened ⊢ with longer same
  · simp only [Noted.value_bind, Noted.value_note, ok_bind, Noted.value_pure, Except.ok.injEq] at shortened
    obtain ⟨rfl, rfl⟩ := Prod.mk.inj shortened
    exact ⟨_, rfl, rfl, alike⟩
  · obtain ⟨rfl, rfl⟩ := Prod.mk.inj (Except.ok.inj shortened)
    exact ⟨_, rfl, rfl, alike⟩
  · simp only [Noted.value_bind, Noted.value_lift, bind_eq_ok_iff] at shortened
    obtain ⟨old, occupied, new, occupies, result, reopened, shortened⟩ := shortened
    have occupiedOther : ({ current with announced } : Allocation).occupied terms.guard = .ok old :=
      occupied
    have occupiesOther : ({ current with announced, blockDuration := duration } :
        Allocation).occupied terms.guard = .ok new := occupies
    simp only [Noted.value_bind, Noted.value_lift, occupiedOther, occupiesOther, ok_bind, reopened]
    cases result with
    | error refused =>
        obtain ⟨start, e⟩ := refused
        simp only [Noted.value_bind, Noted.value_note, ok_bind, Noted.value_pure,
          Except.ok.injEq] at shortened ⊢
        obtain ⟨rfl, rfl⟩ := Prod.mk.inj shortened
        exact ⟨_, rfl, rfl, alike⟩
    | ok slots =>
        simp only [Noted.value_bind, Noted.value_note, ok_bind, Noted.value_pure,
          Except.ok.injEq] at shortened ⊢
        obtain ⟨rfl, rfl⟩ := Prod.mk.inj shortened
        refine ⟨_, rfl, rfl, alike.replace found foundOther ?_ ?_⟩
        · simp only [Allocation.remark, flags]
        · simp only [Allocation.remark, flags]

theorem decide_alike (alike : air.Alike mark other) (distinct : other.registry.Distinct)
    (decided : (policy.decide terms now request air).value = .ok (outcome, after)) (later : Time) :
    ∃ last, (policy.decide terms later request other).value = .ok (outcome, last) ∧
      after.Alike mark last := by
  unfold decide at decided ⊢
  cases valid : request.spec.validate with
  | error problem =>
      simp only [valid, Noted.value_bind, Noted.value_noteAt, ok_bind, Noted.value_pure,
        Except.ok.injEq] at decided ⊢
      obtain ⟨rfl, rfl⟩ := Prod.mk.inj decided
      exact ⟨other, rfl, alike⟩
  | ok _ =>
      simp only [valid] at decided ⊢
      rw [← alike.registry.contains]
      split_ifs at decided ⊢ with registered
      · cases policy with
        | cbapOnly =>
            obtain ⟨rfl, rfl⟩ := Prod.mk.inj (Except.ok.inj decided)
            exact ⟨other, rfl, alike⟩
        | basic => exact shorten_alike alike distinct registered decided
        | periodic => exact shorten_alike alike distinct registered decided
      · exact grant_alike alike decided

theorem decide_distinct (distinct : air.registry.Distinct)
    (decided : (policy.decide terms now request air).value = .ok (outcome, after)) :
    after.registry.Distinct := by
  rw [Registry.distinct_iff_under] at distinct ⊢
  intro key
  have before := distinct key
  cases decide_under key decided with
  | none _ same =>
      rw [same]
      exact before
  | first _ _ _ registered =>
      rw [registered]
      exact Nat.le_refl 1
  | shorter _ found _ _ registered =>
      rw [registered]
      rwa [found] at before

end Policy

/-! ## Queues -/

namespace Scheduler

variable {policy : Policy} {terms : Terms} {mark : Bool → Bool} {air other last : Airtime}
  {queue : List AdmissionRequest} {responses : List AdmissionResponse} {now : Time}

theorem decideAll_alike (alike : air.Alike mark other) (distinct : air.registry.Distinct)
    (decided : (decideAll policy terms now air queue).value = .ok (responses, last))
    (later : Time) :
    ∃ responsesOther lastOther,
      (decideAll policy terms later other queue).value = .ok (responsesOther, lastOther) ∧
      responsesOther.map (·.outcome) = responses.map (·.outcome) ∧ last.Alike mark lastOther := by
  induction queue generalizing air other responses with
  | nil =>
      obtain ⟨rfl, rfl⟩ := Prod.mk.inj (Except.ok.inj decided)
      exact ⟨[], other, rfl, rfl, alike⟩
  | cons request rest ih =>
      obtain ⟨outcome, after, others, own, decidedRest, rfl⟩ :=
        decideAll_cons_eq_ok_iff.mp decided
      obtain ⟨afterOther, ownOther, alikeAfter⟩ :=
        Policy.decide_alike alike (alike.registry.distinct distinct) own later
      obtain ⟨responsesOther, lastOther, decidedOther, same, alikeLast⟩ :=
        ih alikeAfter (Policy.decide_distinct distinct own) decidedRest
      refine ⟨_, lastOther, decideAll_cons_eq_ok_iff.mpr
        ⟨outcome, afterOther, responsesOther, ownOther, decidedOther, rfl⟩, ?_, alikeLast⟩
      rw [List.map_cons, List.map_cons, same]

/-! ## Schedulers with different pasts -/

/-- The states in which requests can be decided: those that a run leads to, and those in which
the clean-up at the end of an interval leaves them. -/
inductive Reached (config : Config) : Scheduler → Prop where
  | run {commands : List Command} {s : Scheduler} (ran : (run config commands).value = .ok s) :
      Reached config s
  | cleanUp {s next : Scheduler} {now : Time} (reached : Reached config s)
      (cleaned : (s.cleanUp now).value = .ok next) : Reached config next

variable {config : Config} {s other : Scheduler}

theorem Reached.tiled (reached : Reached config s) :
    s.Tiled ∧ s.limits = config.limits ∧ s.policy = config.policy := by
  induction reached with
  | run ran => exact run_tiled ran
  | cleanUp _ cleaned ih =>
      obtain ⟨tiled, same⟩ := ih
      obtain ⟨air, rfl, _, tiledAir⟩ := cleanUp_eq_ok tiled cleaned
      exact ⟨tiledAir, same⟩

/-- Two schedulers with the same beacon interval and the same allocations, each key once, have
the same free slots and give the same answers to every queue, after which they have the same
allocations and free slots again. -/
theorem decideAll_history_independent (reached : Reached config s)
    (reachedOther : Reached config other)
    (interval : s.timing.interval = other.timing.interval) (dti : s.timing.dti = other.timing.dti)
    (distinct : s.air.registry.Distinct) (alike : s.air.registry.Alike mark other.air.registry) :
    s.air.slots = other.air.slots ∧
      ∀ queue now responses last,
        (decideAll s.policy s.terms now s.air queue).value = .ok (responses, last) →
        ∀ later, ∃ responsesOther lastOther,
          (decideAll other.policy other.terms later other.air queue).value =
            .ok (responsesOther, lastOther) ∧
          responsesOther.map (·.outcome) = responses.map (·.outcome) ∧
          last.slots = lastOther.slots ∧ last.registry.Alike mark lastOther.registry := by
  obtain ⟨tiled, limits, policy⟩ := reached.tiled
  obtain ⟨tiledOther, limitsOther, policyOther⟩ := reachedOther.tiled
  have sameLimits : s.limits = other.limits := limits.trans limitsOther.symm
  have samePolicy : s.policy = other.policy := policy.trans policyOther.symm
  have sameTerms : s.terms = other.terms := by
    rw [Scheduler.terms, Scheduler.terms, sameLimits, interval]
  rw [Tiled, sameLimits, dti] at tiled
  have slots := tiled.slots_eq tiledOther alike
  refine ⟨slots, fun queue now responses last decided later => ?_⟩
  obtain ⟨responsesOther, lastOther, decidedOther, same, alikeLast⟩ :=
    decideAll_alike ⟨slots, alike⟩ distinct decided later
  rw [samePolicy, sameTerms] at decidedOther
  exact ⟨responsesOther, lastOther, decidedOther, same, alikeLast.slots, alikeLast.registry⟩

def reservedInOrder : List Command :=
  [.startInterval 0 0 102400 1000 0,
    .reserveBlock ⟨3, 7, 4⟩ .servicePeriod true 0 2000,
    .reserveBlock ⟨5, 8, 9⟩ .servicePeriod true 5000 1000]

/-- The second block is reserved first, and the other one is granted to a request and announced. -/
def grantedInBetween : List Command :=
  [.startInterval 0 0 102400 1000 0,
    .reserveBlock ⟨5, 8, 9⟩ .servicePeriod true 5000 1000,
    .request 10 7 ⟨3, .servicePeriod, true, 4, .asynchronous, 2000, 2000, 0, false⟩,
    .handle 1000 .dataTransferStart,
    .handle 102400 .intervalEnd]

def threeRequests : List AdmissionRequest :=
  [⟨9, ⟨1, .servicePeriod, true, 4, .asynchronous, 3000, 3000, 4, false⟩, 0⟩,
    ⟨7, ⟨3, .servicePeriod, true, 4, .asynchronous, 1500, 1500, 0, false⟩, 0⟩,
    ⟨8, ⟨5, .servicePeriod, true, 9, .isochronous, 1000, 2000, 0, false⟩, 0⟩]

theorem threeRequests_history_independent :
    ∃ s other responses last responsesOther lastOther,
      (run {} reservedInOrder).value = .ok s ∧ (run {} grantedInBetween).value = .ok other ∧
      s.air.registry ≠ other.air.registry ∧
      s.air.registry.Alike (fun _ => false) other.air.registry ∧
      s.air.slots = other.air.slots ∧
      (decideAll s.policy s.terms 50 s.air threeRequests).value = .ok (responses, last) ∧
      (decideAll other.policy other.terms 102400 other.air threeRequests).value =
        .ok (responsesOther, lastOther) ∧
      responses.map (·.outcome) =
        [.accepted 6010 3000 4, .accepted 0 1500 1, .rejected (.durationIncrease 1000 1500)] ∧
      responsesOther.map (·.outcome) = responses.map (·.outcome) ∧
      last.slots = lastOther.slots ∧ last.registry.Alike (fun _ => false) lastOther.registry := by
  obtain ⟨⟨s, other, responses, last⟩, ran, computed⟩ := exists_ok
    (x := (do
      let s ← run {} reservedInOrder
      let other ← run {} grantedInBetween
      return (s, other, ← decideAll s.policy s.terms 50 s.air threeRequests) : Noted _).value)
    (f := fun (s, other, responses, _) => (
      Decidable.decide (s.timing.interval = other.timing.interval ∧
        s.timing.dti = other.timing.dti ∧ s.air.registry.Distinct ∧
        s.air.registry ≠ other.air.registry ∧
        (s.air.registry.map (Allocation.remark fun _ => false)).Perm
          (other.air.registry.map (Allocation.remark fun _ => false))),
      responses.map (·.outcome)))
    (b := (true, [.accepted 6010 3000 4, .accepted 0 1500 1,
      .rejected (.durationIncrease 1000 1500)])) (by decide +kernel)
  simp only [Noted.value_bind, Noted.value_pure, bind_eq_ok_iff, Except.ok.injEq,
    Prod.mk.injEq, decide_eq_true_eq] at ran computed
  obtain ⟨_, ranFirst, _, ranSecond, _, decided, rfl, rfl, rfl⟩ := ran
  obtain ⟨⟨interval, dti, distinct, differ, alike⟩, outcomes⟩ := computed
  obtain ⟨slots, answers⟩ := decideAll_history_independent (.run ranFirst) (.run ranSecond)
    interval dti distinct alike
  obtain ⟨responsesOther, lastOther, decidedOther, same, slotsLast, alikeLast⟩ :=
    answers threeRequests 50 _ _ decided 102400
  exact ⟨_, _, _, _, responsesOther, lastOther, ranFirst, ranSecond, differ, alike, slots, decided,
    decidedOther, outcomes, same, slotsLast, alikeLast⟩

end Scheduler
end BeaconScheduler
