import BeaconScheduler.Proofs.Carving

/-!
# Admissions and their withdrawal

`Admits` describes what a series of requests can make of an airtime: new keys get an
allocation, and these can be shortened.  `withdrawAll` removes allocations by their keys and
returns what they occupied.  Whatever the order of the keys, it ends with the airtime that the
series began with, slot by slot (`withdrawAll_admitted`).
-/

set_option autoImplicit false

namespace BeaconScheduler

namespace Registry

variable {registry first second : Registry} {key : Allocation.Key}

def keys (registry : Registry) : List Allocation.Key :=
  registry.map (·.key)

@[simp] theorem keys_append : keys (first ++ second) = keys first ++ keys second :=
  List.map_append

@[simp] theorem keys_cons (a : Allocation) : keys (a :: registry) = a.key :: keys registry := rfl

theorem find?_eq_none_iff : registry.find? key = none ↔ key ∉ keys registry := by
  unfold Registry.find? keys
  simp

theorem find?_append_of_none (absent : Registry.find? first key = none) :
    Registry.find? (first ++ second) key = Registry.find? second key := by
  unfold Registry.find? at absent ⊢
  rw [List.find?_append, absent, Option.none_or]

theorem erase_append_of_none (absent : Registry.find? first key = none) :
    Registry.erase (first ++ second) key = first ++ Registry.erase second key := by
  unfold Registry.find? at absent
  exact List.eraseP_append_right second (List.find?_eq_none.mp absent)

theorem replace_append_of_none {a : Allocation} (absent : Registry.find? first key = none) :
    Registry.replace key a (first ++ second) = first ++ Registry.replace key a second := by
  induction first with
  | nil => rfl
  | cons b rest ih =>
      rw [find?_eq_none_iff, keys_cons, List.mem_cons, not_or] at absent
      have other : ¬ (b.key == key) = true := fun same => absent.1 (beq_iff_eq.mp same).symm
      rw [List.cons_append, replace, if_neg other, ih (find?_eq_none_iff.mpr absent.2)]
      rfl

end Registry

namespace Airtime

variable {terms : Terms} {initial air after : Airtime}

/-- The airtime after a series of requests, with the keys that were granted something. Only
keys that are not registered are added, and none that was registered before is modified. -/
inductive Admits (terms : Terms) (initial : Airtime) : List Allocation.Key → Airtime → Prop where
  | start : Admits terms initial [] initial
  | grant {added : List Allocation.Key} {air after : Airtime} {outcome : Outcome}
      (policy : Policy) (source : Aid) (spec : TrafficSpec)
      (former : Admits terms initial added air)
      (valid : spec.validate = .ok ())
      (unregistered : air.registry.contains (spec.key source) = false)
      (granted : (policy.grant terms source spec air).value = .ok (outcome, after))
      (accepted : outcome.isAccepted = true) :
      Admits terms initial (added ++ [spec.key source]) after
  | refuse {added : List Allocation.Key} {air after : Airtime} {outcome : Outcome}
      (policy : Policy) (source : Aid) (spec : TrafficSpec)
      (former : Admits terms initial added air)
      (valid : spec.validate = .ok ())
      (unregistered : air.registry.contains (spec.key source) = false)
      (refused : (policy.grant terms source spec air).value = .ok (outcome, after))
      (rejected : outcome.isAccepted = false) :
      Admits terms initial added after
  | modify {added : List Allocation.Key} {air after : Airtime} {outcome : Outcome}
      (policy : Policy) (source : Aid) (spec : TrafficSpec)
      (former : Admits terms initial added air)
      (valid : spec.validate = .ok ())
      (new : initial.registry.contains (spec.key source) = false)
      (modified : (policy.modify terms source spec air).value = .ok (outcome, after)) :
      Admits terms initial added after

/-- Removes the allocation of each key and returns its airtime, up to a key that is not
registered, or airtime that cannot be returned. -/
def withdrawAll (terms : Terms) (air : Airtime) : List Allocation.Key → Option Airtime
  | [] => some air
  | key :: rest =>
      match air.registry.find? key with
      | none => none
      | some a =>
          match (giveBack terms a { air with registry := air.registry.erase key }).value with
          | .ok (.ok (), after) => withdrawAll terms after rest
          | _ => none

/-- The airtime with further holders, each with a key of its own. -/
structure Extends (guard : Nat) (initial : Airtime) (holders : Registry) (air : Airtime) :
    Prop where
  registry : air.registry = initial.registry ++ holders
  distinct : holders.keys.Nodup
  new : ∀ key ∈ holders.keys, initial.registry.find? key = none
  carving : Carving guard initial.slots air.slots holders

namespace Extends

variable {guard : Nat} {holders : Registry} {key : Allocation.Key} {a : Allocation}

theorem refl (guard : Nat) (wellFormed : initial.slots.WellFormed) :
    Extends guard initial [] initial where
  registry := (List.append_nil _).symm
  distinct := List.nodup_nil
  new := by simp [Registry.keys]
  carving := .refl guard wellFormed

theorem eq_initial (wellFormed : initial.slots.WellFormed)
    (extension : Extends guard initial [] air) : air = initial := by
  have slots := extension.carving.eq_whole wellFormed
  have registry := extension.registry
  rw [List.append_nil] at registry
  calc
    air = ⟨air.registry, air.slots⟩ := rfl
    _ = initial := by rw [registry, slots]

theorem add (extension : Extends guard initial holders air)
    (unregistered : air.registry.find? a.key = none) (adds : air.Adds guard a after) :
    Extends guard initial (holders ++ [a]) after := by
  rw [extension.registry, Registry.find?_eq_none_iff, Registry.keys_append, List.mem_append,
    not_or] at unregistered
  obtain ⟨absent, own⟩ := unregistered
  refine ⟨?_, ?_, ?_, extension.carving.add adds.fits adds.claimed⟩
  · rw [adds.registered, extension.registry, List.append_assoc]
  · rw [Registry.keys_append]
    refine List.nodup_append.mpr ⟨extension.distinct, by simp [Registry.keys], ?_⟩
    intro key member last single same
    rw [same, List.mem_singleton.mp single] at member
    exact own member
  · intro key member
    rw [Registry.keys_append] at member
    rcases List.mem_append.mp member with old | last
    · exact extension.new key old
    · rw [List.mem_singleton.mp last]
      exact Registry.find?_eq_none_iff.mpr absent

theorem shorten {duration : Nat} (extension : Extends guard initial holders air)
    (new : initial.registry.find? key = none) (shortens : air.Shortens guard key a duration after) :
    ∃ others, Extends guard initial others after ∧ others.keys = holders.keys := by
  have found := shortens.found
  rw [extension.registry, Registry.find?_append_of_none new] at found
  obtain ⟨earlier, later, rfl, replaced, _⟩ := Registry.split_of_find? found
  have keys : Registry.keys (earlier ++ a.withDuration duration :: later) =
      Registry.keys (earlier ++ a :: later) := by
    rw [Registry.keys_append, Registry.keys_append]
    rfl
  refine ⟨earlier ++ a.withDuration duration :: later,
    ⟨?_, keys ▸ extension.distinct, keys ▸ extension.new, extension.carving.shorten shortens⟩, keys⟩
  rw [shortens.registered, extension.registry, Registry.replace_append_of_none new, replaced]

theorem withdraw (wellFormed : initial.slots.WellFormed)
    (extension : Extends terms.guard initial holders air) (held : key ∈ holders.keys) :
    ∃ a others slots, air.registry.find? key = some a ∧
      (giveBack terms a { air with registry := air.registry.erase key }).value =
        .ok (.ok (), ⟨air.registry.erase key, slots⟩) ∧
      Extends terms.guard initial others ⟨air.registry.erase key, slots⟩ ∧
      holders.keys.Perm (key :: others.keys) := by
  have new := extension.new key held
  obtain ⟨a, found⟩ : ∃ a, Registry.find? holders key = some a := by
    refine Option.ne_none_iff_exists'.mp fun none => ?_
    exact Registry.find?_eq_none_iff.mp none held
  obtain ⟨earlier, later, rfl, _, erased⟩ := Registry.split_of_find? found
  have registry : air.registry.erase key = initial.registry ++ (earlier ++ later) := by
    rw [extension.registry, Registry.erase_append_of_none new, erased]
  have perm : (earlier ++ a :: later).Perm (a :: (earlier ++ later)) := List.perm_middle
  obtain ⟨slots, given, carving⟩ := (extension.carving.perm perm.symm).giveBack terms
    { air with registry := air.registry.erase key } wellFormed
  have keys : (Registry.keys (earlier ++ a :: later)).Perm
      (key :: Registry.keys (earlier ++ later)) := by
    rw [← Registry.key_of_find? found]
    exact perm.map _
  have distinct := keys.nodup_iff.mp extension.distinct
  refine ⟨a, earlier ++ later, slots, ?_, given, ⟨registry, ?_, ?_, carving⟩, keys⟩
  · rw [extension.registry, Registry.find?_append_of_none new, found]
  · exact (List.nodup_cons.mp distinct).2
  · intro other member
    exact extension.new other (keys.mem_iff.mpr (List.mem_cons_of_mem _ member))

theorem withdrawAll {order : List Allocation.Key} (wellFormed : initial.slots.WellFormed)
    (extension : Extends terms.guard initial holders air) (perm : order.Perm holders.keys) :
    air.withdrawAll terms order = some initial := by
  induction order generalizing air holders with
  | nil =>
      have none : holders = [] := List.map_eq_nil_iff.mp perm.nil_eq.symm
      rw [none] at extension
      rw [Airtime.withdrawAll, extension.eq_initial wellFormed]
  | cons key rest ih =>
      have held : key ∈ holders.keys := perm.mem_iff.mp List.mem_cons_self
      obtain ⟨a, others, slots, found, given, extensionRest, keys⟩ :=
        extension.withdraw wellFormed held
      rw [Airtime.withdrawAll, found]
      simp only [given]
      exact ih extensionRest (perm.trans keys).cons_inv

end Extends

/-! ## Series of requests -/

theorem Admits.extends {added : List Allocation.Key} (wellFormed : initial.slots.WellFormed)
    (admits : Admits terms initial added after) :
    ∃ holders, Extends terms.guard initial holders after ∧ holders.keys = added := by
  induction admits with
  | start => exact ⟨[], .refl terms.guard wellFormed, rfl⟩
  | grant policy source spec former valid unregistered granted accepted ih =>
      obtain ⟨holders, extension, rfl⟩ := ih
      rcases Policy.grant_cases granted with ⟨reason, rfl, _⟩ | ⟨a, rfl, answers, adds⟩
      · cases accepted
      · refine ⟨holders ++ [a], extension.add ?_ adds, ?_⟩
        · rw [answers.key]
          simpa [Registry.contains] using unregistered
        · rw [Registry.keys_append, ← answers.key]
          rfl
  | refuse policy source spec former valid unregistered refused rejected ih =>
      obtain ⟨holders, extension, rfl⟩ := ih
      rcases Policy.grant_cases refused with ⟨reason, _, rfl⟩ | ⟨a, rfl, _, _⟩
      · exact ⟨holders, extension, rfl⟩
      · cases rejected
  | @modify added air after outcome policy source spec former valid new modified ih =>
      obtain ⟨holders, extension, rfl⟩ := ih
      have unregistered : initial.registry.find? (spec.key source) = none := by
        simpa [Registry.contains] using new
      rcases Policy.modify_routes modified with ⟨_, _, rfl⟩ | shortened
      · exact ⟨holders, extension, rfl⟩
      rcases Policy.shorten_cases valid shortened with
        ⟨_, _, rfl⟩ | ⟨_, _, _, _, _, ⟨_, rfl⟩ | shortens⟩
      · exact ⟨holders, extension, rfl⟩
      · exact ⟨holders, extension, rfl⟩
      · exact extension.shorten unregistered shortens

/-- Withdrawing what a series of requests was granted, in any order, undoes the series. -/
theorem withdrawAll_admitted {added order : List Allocation.Key}
    (wellFormed : initial.slots.WellFormed) (admits : Admits terms initial added after)
    (perm : order.Perm added) : after.withdrawAll terms order = some initial := by
  obtain ⟨holders, extension, rfl⟩ := admits.extends wellFormed
  exact extension.withdrawAll wellFormed perm

def usualTerms : Terms := ⟨⟨10, 4096, 255⟩, 102400⟩

def sharedDti : Airtime :=
  ⟨[.single ⟨1, 9, 255⟩ .servicePeriod true 20000 4990],
    ⟨101400, [⟨0, 20000⟩, ⟨25000, 101400⟩]⟩⟩

def blocksFor (id : UInt8) (duration period : Nat) : TrafficSpec :=
  ⟨id, .servicePeriod, false, 4, .asynchronous, duration, duration, period, false⟩

theorem sharedDti_restored :
    ∃ after, Admits usualTerms sharedDti [⟨3, 7, 4⟩, ⟨5, 8, 4⟩] after ∧
      after.registry.length = 3 ∧ after.slots.slots.length = 6 ∧
      after.withdrawAll usualTerms [⟨5, 8, 4⟩, ⟨3, 7, 4⟩] = some sharedDti := by
  have wellFormed : sharedDti.slots.WellFormed := ⟨by decide, by decide, by decide⟩
  have four : Admits usualTerms sharedDti [⟨3, 7, 4⟩] _ :=
    .grant .periodic 7 (blocksFor 3 2000 4) .start rfl rfl rfl rfl
  have single : Admits usualTerms sharedDti [⟨3, 7, 4⟩, ⟨5, 8, 4⟩] _ :=
    .grant .periodic 8 (blocksFor 5 3000 0) four rfl rfl rfl rfl
  have shorter : Admits usualTerms sharedDti [⟨3, 7, 4⟩, ⟨5, 8, 4⟩] _ :=
    .modify .periodic 7 (blocksFor 3 1500 0) single rfl rfl rfl
  exact ⟨_, shorter, rfl, rfl, withdrawAll_admitted wellFormed shorter (by decide)⟩

end Airtime
end BeaconScheduler
