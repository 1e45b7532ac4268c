import BeaconScheduler.Interval
import Mathlib.Data.List.Pairwise
import Mathlib.Tactic.SplitIfs

/-!
# How often intervals cover a microsecond

`coverage list t` counts the intervals of a list that hold microsecond `t`. Taking time
out of a list and putting it back are additions and subtractions of coverage, whatever
the list looks like.  Nonempty intervals cover every microsecond at most once exactly if
no two of them overlap (`pairwise_disjoint_iff`).

A `Canonical` list has nonempty intervals in order that do not touch; there is only one
such list for each coverage (`Canonical.eq_of_coverage`).
-/

set_option autoImplicit false

namespace BeaconScheduler.Interval

def coverage (list : List Interval) (t : Nat) : Nat :=
  list.countP (·.contains t)

def Disjoint (i j : Interval) : Prop :=
  i.stop ≤ j.start ∨ j.stop ≤ i.start

@[simp] theorem coverage_nil (t : Nat) : coverage [] t = 0 := rfl

theorem coverage_cons (i : Interval) (rest : List Interval) (t : Nat) :
    coverage (i :: rest) t =
      (if i.start ≤ t ∧ t < i.stop then 1 else 0) + coverage rest t := by
  simp only [coverage, List.countP_cons, contains_iff]
  exact Nat.add_comm _ _

theorem coverage_singleton (i : Interval) (t : Nat) :
    coverage [i] t = if i.start ≤ t ∧ t < i.stop then 1 else 0 := by
  rw [coverage_cons, coverage_nil, Nat.add_zero]

@[simp] theorem coverage_append (first second : List Interval) (t : Nat) :
    coverage (first ++ second) t = coverage first t + coverage second t :=
  List.countP_append

theorem coverage_perm {first second : List Interval} (perm : first.Perm second) (t : Nat) :
    coverage first t = coverage second t :=
  perm.countP_eq _

theorem coverage_pos_iff {list : List Interval} {t : Nat} :
    0 < coverage list t ↔ ∃ i ∈ list, i.start ≤ t ∧ t < i.stop := by
  simp only [coverage, List.countP_pos_iff, contains_iff]

theorem coverage_eq_zero_iff {list : List Interval} {t : Nat} :
    coverage list t = 0 ↔ ∀ i ∈ list, ¬ (i.start ≤ t ∧ t < i.stop) := by
  simp only [coverage, List.countP_eq_zero, contains_iff]

theorem coverage_pos_of_mem {list : List Interval} {i : Interval} {t : Nat}
    (member : i ∈ list) (first : i.start ≤ t) (last : t < i.stop) : 0 < coverage list t :=
  coverage_pos_iff.mpr ⟨i, member, first, last⟩

/-! ## Overlap -/

theorem pairwise_disjoint_iff {list : List Interval}
    (nonempty : ∀ i ∈ list, i.start < i.stop) :
    list.Pairwise Disjoint ↔ ∀ t, coverage list t ≤ 1 := by
  induction list with
  | nil => simp
  | cons i rest ih =>
      have own : i.start < i.stop := nonempty i List.mem_cons_self
      have others : ∀ j ∈ rest, j.start < j.stop := fun j member =>
        nonempty j (List.mem_cons_of_mem _ member)
      rw [List.pairwise_cons, ih others]
      constructor
      · rintro ⟨apart, once⟩ t
        rw [coverage_cons]
        split_ifs with holds
        · have none : coverage rest t = 0 := by
            rw [coverage_eq_zero_iff]
            intro j member held
            have := apart j member
            unfold Disjoint at this
            omega
          omega
        · simpa using once t
      · intro once
        refine ⟨?_, fun t => ?_⟩
        · intro j member
          by_contra overlap
          unfold Disjoint at overlap
          have bound := once (max i.start j.start)
          rw [coverage_cons, if_pos (by omega)] at bound
          have := coverage_pos_of_mem (t := max i.start j.start) member (by omega)
            (by have := others j member; omega)
          omega
        · have bound := once t
          rw [coverage_cons] at bound
          omega

/-! ## Canonical lists -/

structure Canonical (list : List Interval) : Prop where
  nonempty : ∀ i ∈ list, i.start < i.stop
  apart : list.Pairwise fun a b => a.stop < b.start

theorem canonical_nil : Canonical [] :=
  ⟨by simp, .nil⟩

theorem canonical_cons {i : Interval} {rest : List Interval} :
    Canonical (i :: rest) ↔
      i.start < i.stop ∧ (∀ j ∈ rest, i.stop < j.start) ∧ Canonical rest := by
  constructor
  · intro canonical
    obtain ⟨behind, apart⟩ := List.pairwise_cons.mp canonical.apart
    exact ⟨canonical.nonempty i List.mem_cons_self, behind,
      fun j member => canonical.nonempty j (List.mem_cons_of_mem _ member), apart⟩
  · rintro ⟨nonempty, behind, canonical⟩
    refine ⟨?_, List.pairwise_cons.mpr ⟨behind, canonical.apart⟩⟩
    intro j member
    rcases List.mem_cons.mp member with rfl | member
    · exact nonempty
    · exact canonical.nonempty j member

theorem canonical_singleton {i : Interval} (nonempty : i.start < i.stop) : Canonical [i] :=
  canonical_cons.mpr ⟨nonempty, by simp, canonical_nil⟩

theorem Canonical.sublist {list part : List Interval} (canonical : Canonical list)
    (sublist : part.Sublist list) : Canonical part :=
  ⟨fun i member => canonical.nonempty i (sublist.subset member),
    canonical.apart.sublist sublist⟩

theorem coverage_eq_zero_of_before {list : List Interval} {t : Nat}
    (before : ∀ i ∈ list, t < i.start) : coverage list t = 0 :=
  coverage_eq_zero_iff.mpr fun i member held => by
    have := before i member
    omega

theorem Canonical.coverage_stop {list : List Interval} (canonical : Canonical list)
    {i : Interval} (member : i ∈ list) : coverage list i.stop = 0 := by
  induction list with
  | nil => simp at member
  | cons j rest ih =>
      obtain ⟨nonempty, behind, canonicalRest⟩ := canonical_cons.mp canonical
      rw [coverage_cons]
      rcases List.mem_cons.mp member with rfl | member
      · rw [if_neg (by omega), coverage_eq_zero_of_before behind]
      · have := behind i member
        have := canonicalRest.nonempty i member
        rw [if_neg (by omega), ih canonicalRest member]

theorem Canonical.start_le_of_coverage {i : Interval} {rest : List Interval}
    (canonical : Canonical (i :: rest)) {t : Nat} (covered : 0 < coverage (i :: rest) t) :
    i.start ≤ t := by
  obtain ⟨nonempty, behind, _⟩ := canonical_cons.mp canonical
  obtain ⟨j, member, first, _⟩ := coverage_pos_iff.mp covered
  rcases List.mem_cons.mp member with rfl | member
  · exact first
  · have := behind j member
    omega

theorem Canonical.eq_of_coverage {first second : List Interval} (canonical : Canonical first)
    (canonical' : Canonical second) (same : ∀ t, coverage first t = coverage second t) :
    first = second := by
  induction first generalizing second with
  | nil =>
      cases second with
      | nil => rfl
      | cons j others =>
          have nonempty := (canonical_cons.mp canonical').1
          have covered := coverage_pos_of_mem (t := j.start) (List.mem_cons_self (l := others))
            (Nat.le_refl _) nonempty
          rw [← same, coverage_nil] at covered
          omega
  | cons i rest ih =>
      cases second with
      | nil =>
          have nonempty := (canonical_cons.mp canonical).1
          have covered := coverage_pos_of_mem (t := i.start) (List.mem_cons_self (l := rest))
            (Nat.le_refl _) nonempty
          rw [same, coverage_nil] at covered
          omega
      | cons j others =>
          obtain ⟨nonempty, behind, canonicalRest⟩ := canonical_cons.mp canonical
          obtain ⟨nonempty', behind', canonicalOthers⟩ := canonical_cons.mp canonical'
          have startEq : i.start = j.start := by
            apply Nat.le_antisymm
            · apply canonical.start_le_of_coverage
              rw [same]
              exact coverage_pos_of_mem List.mem_cons_self (Nat.le_refl _) nonempty'
            · apply canonical'.start_le_of_coverage
              rw [← same]
              exact coverage_pos_of_mem List.mem_cons_self (Nat.le_refl _) nonempty
          have stopEq : i.stop = j.stop := by
            have afterFirst := same i.stop
            have afterSecond := same j.stop
            rw [canonical.coverage_stop List.mem_cons_self, coverage_cons] at afterFirst
            rw [canonical'.coverage_stop List.mem_cons_self, coverage_cons] at afterSecond
            split_ifs at afterFirst afterSecond <;> omega
          have headEq : i = j := by
            cases i
            cases j
            simp_all
          subst headEq
          have restEq : rest = others := by
            refine ih canonicalRest canonicalOthers fun t => ?_
            have := same t
            rw [coverage_cons, coverage_cons] at this
            omega
          rw [restEq]

end BeaconScheduler.Interval
