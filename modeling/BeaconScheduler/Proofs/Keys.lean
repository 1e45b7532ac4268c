import BeaconScheduler.Proofs.Listing
import BeaconScheduler.Proofs.Periodicity

/-!
# The allocations of one key

A request or a deletion is about one key.  `Registry.under` is what is registered under it, and
`decide_under` what a decision makes of that: nothing, a first allocation, or shorter blocks of
the one that is found.  Over a whole queue, requests of other keys and refusals leave it as it
is (`decideAll_under_of_refused`), and an allocation that a key has once it keeps
(`decideAll_continues`).
-/

set_option autoImplicit false

namespace BeaconScheduler

open Counter

/-! ## Registries -/

namespace Registry

variable {registry : Registry} {key other : Allocation.Key} {a b : Allocation} {rest : Registry}

def under (key : Allocation.Key) (registry : Registry) : Registry :=
  registry.filter fun a => a.key == key

theorem mem_under_iff : a ∈ registry.under key ↔ a ∈ registry ∧ a.key = key := by
  rw [under, List.mem_filter, beq_iff_eq]

theorem under_cons_of_eq (own : a.key = key) :
    Registry.under key (a :: registry) = a :: registry.under key :=
  List.filter_cons_of_pos (beq_iff_eq.mpr own)

theorem under_cons_of_ne (differ : a.key ≠ key) :
    Registry.under key (a :: registry) = registry.under key :=
  List.filter_cons_of_neg fun own => differ (beq_iff_eq.mp own)

theorem under_append (first second : Registry) :
    Registry.under key (first ++ second) = first.under key ++ second.under key :=
  List.filter_append ..

theorem find?_eq_head? : registry.find? key = (registry.under key).head? :=
  (List.head?_filter ..).symm

theorem under_of_find? (found : registry.find? key = some a) :
    ∃ rest, registry.under key = a :: rest := by
  rw [find?_eq_head?] at found
  exact List.head?_eq_some_iff.mp found

theorem under_eq_nil_iff : registry.under key = [] ↔ registry.find? key = none := by
  rw [find?_eq_head?, List.head?_eq_none_iff]

theorem erase_cons_of_eq (own : a.key = key) : Registry.erase (a :: registry) key = registry :=
  List.eraseP_cons_of_pos (beq_iff_eq.mpr own)

theorem erase_cons_of_ne (differ : a.key ≠ key) :
    Registry.erase (a :: registry) key = a :: registry.erase key :=
  List.eraseP_cons_of_neg fun own => differ (beq_iff_eq.mp own)

theorem under_erase (key : Allocation.Key) (registry : Registry) :
    (registry.erase key).under key = (registry.under key).tail := by
  induction registry with
  | nil => rfl
  | cons a rest ih =>
      by_cases own : a.key = key
      · rw [erase_cons_of_eq own, under_cons_of_eq own, List.tail_cons]
      · rw [erase_cons_of_ne own, under_cons_of_ne own, under_cons_of_ne own, ih]

theorem under_erase_of_ne (differ : key ≠ other) (registry : Registry) :
    (registry.erase key).under other = registry.under other := by
  induction registry with
  | nil => rfl
  | cons a rest ih =>
      by_cases own : a.key = key
      · rw [erase_cons_of_eq own, under_cons_of_ne fun same => differ (own.symm.trans same)]
      · rw [erase_cons_of_ne own]
        by_cases same : a.key = other
        · rw [under_cons_of_eq same, under_cons_of_eq same, ih]
        · rw [under_cons_of_ne same, under_cons_of_ne same, ih]

theorem under_eraseAll (key : Allocation.Key) (keys : List Allocation.Key) (registry : Registry) :
    (keys.foldl Registry.erase registry).under key =
      (registry.under key).drop (keys.count key) := by
  induction keys generalizing registry with
  | nil => rfl
  | cons first rest ih =>
      rw [List.foldl_cons, ih]
      by_cases own : first = key
      · subst own
        rw [under_erase, List.count_cons_self, List.drop_tail]
      · rw [under_erase_of_ne own, List.count_cons_of_ne own]

theorem under_replace (own : b.key = key) (found : registry.under key = a :: rest) :
    (Registry.replace key b registry).under key = b :: rest := by
  induction registry with
  | nil => cases found
  | cons c others ih =>
      by_cases same : c.key = key
      · rw [under_cons_of_eq same] at found
        rw [Registry.replace, if_pos (beq_iff_eq.mpr same), under_cons_of_eq own,
          (List.cons.inj found).2]
      · rw [under_cons_of_ne same] at found
        rw [Registry.replace, if_neg (by simpa using same), under_cons_of_ne same]
        exact ih found

theorem under_replace_of_ne (differ : key ≠ other) (own : b.key = key) :
    (Registry.replace key b registry).under other = registry.under other := by
  have elsewhere : ∀ {c : Allocation}, c.key = key → c.key ≠ other := fun same reached =>
    differ (same.symm.trans reached)
  induction registry with
  | nil => rfl
  | cons c others ih =>
      by_cases same : c.key = key
      · rw [Registry.replace, if_pos (beq_iff_eq.mpr same), under_cons_of_ne (elsewhere own),
          under_cons_of_ne (elsewhere same)]
      · rw [Registry.replace, if_neg (by simpa using same)]
        by_cases reached : c.key = other
        · rw [under_cons_of_eq reached, under_cons_of_eq reached, ih]
        · rw [under_cons_of_ne reached, under_cons_of_ne reached, ih]

theorem under_purge (key : Allocation.Key) (registry : Registry) :
    registry.purge.2.under key = (registry.under key).filter fun a => !expired a := by
  rw [Registry.purge, List.partition_eq_filter_filter]
  dsimp only
  rw [under, under, List.filter_filter, List.filter_filter]
  exact List.filter_congr fun _ _ => Bool.and_comm _ _

theorem under_markAnnounced (key : Allocation.Key) (registry : Registry) :
    registry.markAnnounced.under key = (registry.under key).markAnnounced := by
  rw [under, Registry.markAnnounced, List.filter_map]
  rfl

end Registry

/-! ## One decision -/

namespace Allocation

/-- The same allocation later on: its blocks may have become shorter, and a beacon may have
carried it. -/
structure Continues (a b : Allocation) : Prop where
  same : b.unmarked = (a.withDuration b.blockDuration).unmarked
  shorter : b.blockDuration ≤ a.blockDuration

variable {a b c : Allocation}

theorem Continues.refl (a : Allocation) : a.Continues a :=
  ⟨rfl, Nat.le_refl _⟩

theorem Continues.trans (first : a.Continues b) (second : b.Continues c) : a.Continues c := by
  refine ⟨?_, Nat.le_trans second.shorter first.shorter⟩
  have same := congrArg (withDuration · c.blockDuration) first.same
  exact second.same.trans same

theorem Continues.shortened {duration : Nat} (shorter : duration ≤ a.blockDuration) :
    a.Continues (a.withDuration duration) :=
  ⟨rfl, shorter⟩

theorem Continues.marked (a : Allocation) : a.Continues { a with announced := true } :=
  ⟨rfl, Nat.le_refl _⟩

theorem Continues.key (continues : a.Continues b) : b.key = a.key := by
  have same := congrArg Allocation.key continues.same
  exact same

theorem Continues.isStatic (continues : a.Continues b) : b.isStatic = a.isStatic := by
  have same := congrArg Allocation.isStatic continues.same
  exact same

end Allocation

namespace Policy

variable {policy : Policy} {terms : Terms} {now : Time} {request : AdmissionRequest}
  {outcome : Outcome} {air after : Airtime}

/-- What a decision makes of the allocations of a key. -/
inductive Effect (key : Allocation.Key) (request : AdmissionRequest) (outcome : Outcome)
    (before after : Registry) : Prop where
  | none (unanswered : request.key = key → outcome.isAccepted = false)
      (same : after.under key = before.under key)
  | first {a : Allocation} (own : request.key = key) (absent : before.under key = [])
      (granted : outcome = .granted a) (registered : after.under key = [a])
  | shorter {current : Allocation} {duration : Nat} {rest : Registry} (own : request.key = key)
      (found : before.under key = current :: rest) (bound : duration ≤ current.blockDuration)
      (granted : outcome = .granted (current.withDuration duration))
      (registered : after.under key = current.withDuration duration :: rest)

theorem decide_under (key : Allocation.Key)
    (decided : (policy.decide terms now request air).value = .ok (outcome, after)) :
    Effect key request outcome air.registry after.registry := by
  rcases decide_cases decided with ⟨reason, rfl, rfl⟩ | ⟨absent, a, rfl, answers, adds⟩ |
    ⟨current, duration, _, found, rfl, shortened⟩
  · exact .none (fun _ => rfl) rfl
  · have answered : a.key = request.key := answers.key
    by_cases own : request.key = key
    · subst own
      have none : air.registry.under request.key = [] :=
        Registry.under_eq_nil_iff.mpr (by simpa [Registry.contains] using absent)
      refine .first rfl none rfl ?_
      rw [adds.registered, Registry.under_append, none, Registry.under_cons_of_eq answered]
      rfl
    · refine .none (fun same => absurd same own) ?_
      rw [adds.registered, Registry.under_append,
        Registry.under_cons_of_ne fun same => own (answered.symm.trans same)]
      exact List.append_nil _
  · have kept : (current.withDuration duration).key = request.key := by
      have registered : current.key = request.key := Registry.key_of_find? found
      exact registered
    by_cases own : request.key = key
    · subst own
      obtain ⟨rest, split⟩ := Registry.under_of_find? found
      rcases shortened with ⟨rfl, rfl⟩ | shortens
      · exact .shorter rfl split (Nat.le_refl _) rfl split
      · refine .shorter rfl split (Nat.le_of_lt shortens.shorter) rfl ?_
        rw [shortens.registered]
        exact Registry.under_replace kept split
    · refine .none (fun same => absurd same own) ?_
      rcases shortened with ⟨_, rfl⟩ | shortens
      · rfl
      · rw [shortens.registered]
        exact Registry.under_replace_of_ne own kept

end Policy

/-! ## A queue of decisions -/

namespace Scheduler

variable {policy : Policy} {terms : Terms} {now : Time} {air last : Airtime}
  {queue : List AdmissionRequest} {responses : List AdmissionResponse} {key : Allocation.Key}

def Accepts (key : Allocation.Key) (responses : List AdmissionResponse) : Prop :=
  ∃ r ∈ responses, r.key = key ∧ r.outcome.isAccepted = true

instance (key : Allocation.Key) (responses : List AdmissionResponse) :
    Decidable (Accepts key responses) :=
  inferInstanceAs (Decidable (∃ r ∈ responses, _))

theorem accepts_append_iff {first second : List AdmissionResponse} :
    Accepts key (first ++ second) ↔ Accepts key first ∨ Accepts key second := by
  simp only [Accepts, List.mem_append, or_and_right, exists_or]

theorem decideAll_under_of_refused
    (decided : (decideAll policy terms now air queue).value = .ok (responses, last))
    (refused : ¬ Accepts key responses) : last.registry.under key = air.registry.under key := by
  induction queue generalizing air responses with
  | nil =>
      obtain ⟨_, rfl⟩ := Prod.mk.inj (Except.ok.inj decided)
      rfl
  | cons request rest ih =>
      obtain ⟨outcome, after, others, own, decidedRest, rfl⟩ := decideAll_cons_eq_ok_iff.mp decided
      have refusedRest : ¬ Accepts key others := fun ⟨r, member, accepted⟩ =>
        refused ⟨r, List.mem_cons_of_mem _ member, accepted⟩
      have first : request.key = key → outcome.isAccepted ≠ true := fun same accepted =>
        refused ⟨_, List.mem_cons_self, same, accepted⟩
      rw [ih decidedRest refusedRest]
      cases Policy.decide_under key own with
      | none _ same => exact same
      | first same _ granted _ =>
          subst granted
          exact absurd rfl (first same)
      | shorter same _ _ granted _ =>
          subst granted
          exact absurd rfl (first same)

theorem decideAll_continues {a : Allocation}
    (decided : (decideAll policy terms now air queue).value = .ok (responses, last))
    (single : air.registry.under key = [a]) :
    ∃ b, last.registry.under key = [b] ∧ a.Continues b := by
  induction queue generalizing air responses a with
  | nil =>
      obtain ⟨_, rfl⟩ := Prod.mk.inj (Except.ok.inj decided)
      exact ⟨a, single, .refl a⟩
  | cons request rest ih =>
      obtain ⟨_, after, _, own, decidedRest, _⟩ := decideAll_cons_eq_ok_iff.mp decided
      cases Policy.decide_under key own with
      | none _ same => exact ih decidedRest (same.trans single)
      | first _ absent =>
          rw [single] at absent
          cases absent
      | shorter _ found bound _ registered =>
          obtain ⟨rfl, rfl⟩ := List.cons.inj (single.symm.trans found)
          obtain ⟨b, registeredLast, continues⟩ := ih decidedRest registered
          exact ⟨b, registeredLast, (Allocation.Continues.shortened bound).trans continues⟩

theorem decideAll_length_le
    (decided : (decideAll policy terms now air queue).value = .ok (responses, last)) :
    (last.registry.under key).length ≤ max (air.registry.under key).length 1 := by
  induction queue generalizing air responses with
  | nil =>
      obtain ⟨_, rfl⟩ := Prod.mk.inj (Except.ok.inj decided)
      exact Nat.le_max_left _ _
  | cons request rest ih =>
      obtain ⟨_, after, _, own, decidedRest, _⟩ := decideAll_cons_eq_ok_iff.mp decided
      have later := ih decidedRest
      cases Policy.decide_under key own with
      | none _ same => rwa [same] at later
      | first _ _ _ registered =>
          rw [registered] at later
          exact Nat.le_trans later (Nat.le_max_right _ _)
      | shorter _ found _ _ registered =>
          rw [registered] at later
          rwa [found]

end Scheduler
end BeaconScheduler
