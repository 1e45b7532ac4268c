import BeaconScheduler.Timeline.Basic
import Mathlib.Data.List.TakeWhile

/-!
# Waiting arrivals

Submissions are numbered in the order in which they are made.  A selection of them goes by
arrival time, and by number where times are equal; there is only one for each condition
(`Selects.unique`).  The arrivals that wait are such a selection, and stay one when another
frame is submitted (`Selects.submit`) and when those before a time leave (`Selects.split`).
-/

set_option autoImplicit false

namespace BeaconScheduler.Timeline

/-! ## Splitting a list at a time -/

section Split

variable {α : Type} {p q : α → Bool} {list : List α}

theorem takeWhile_of_imp (weaker : ∀ a, p a = true → q a = true) (list : List α) :
    list.takeWhile q = list.takeWhile p ++ (list.dropWhile p).takeWhile q := by
  induction list with
  | nil => rfl
  | cons a rest ih =>
      by_cases holds : p a = true
      · rw [List.takeWhile_cons_of_pos (weaker a holds), List.takeWhile_cons_of_pos holds,
          List.dropWhile_cons_of_pos holds, ih, List.cons_append]
      · rw [List.takeWhile_cons_of_neg holds, List.dropWhile_cons_of_neg holds, List.nil_append]

theorem dropWhile_of_imp (weaker : ∀ a, p a = true → q a = true) (list : List α) :
    (list.dropWhile p).dropWhile q = list.dropWhile q := by
  induction list with
  | nil => rfl
  | cons a rest ih =>
      by_cases holds : p a = true
      · rw [List.dropWhile_cons_of_pos holds, List.dropWhile_cons_of_pos (weaker a holds), ih]
      · rw [List.dropWhile_cons_of_neg holds]

theorem split_of_pairwise {R : α → α → Prop} (ordered : list.Pairwise R)
    (below : ∀ a b, R a b → p b = true → p a = true) :
    list.takeWhile p = list.filter p ∧ list.dropWhile p = list.filter fun a => !p a := by
  induction list with
  | nil => exact ⟨rfl, rfl⟩
  | cons a rest ih =>
      obtain ⟨first, orderedRest⟩ := List.pairwise_cons.mp ordered
      obtain ⟨takes, drops⟩ := ih orderedRest
      by_cases holds : p a = true
      · rw [List.takeWhile_cons_of_pos holds, List.dropWhile_cons_of_pos holds,
          List.filter_cons_of_pos holds, List.filter_cons_of_neg (by simp [holds]), takes, drops]
        exact ⟨rfl, rfl⟩
      · have none : ∀ b ∈ rest, ¬ p b = true := fun b member after =>
          holds (below a b (first b member) after)
        rw [List.takeWhile_cons_of_neg holds, List.dropWhile_cons_of_neg holds,
          List.filter_cons_of_neg holds, List.filter_cons_of_pos (by simpa using holds),
          List.filter_eq_nil_iff.mpr none,
          List.filter_eq_self.mpr fun b member => by simpa using none b member]
        exact ⟨rfl, rfl⟩

end Split

theorem split_of_sorted {arrivals : List Arrival}
    (sorted : arrivals.Pairwise fun a b => a.time ≤ b.time) (limit : Time) :
    arrivals.takeWhile (·.time < limit) = arrivals.filter (·.time < limit) ∧
      arrivals.dropWhile (·.time < limit) = arrivals.filter fun a => !decide (a.time < limit) := by
  apply split_of_pairwise sorted
  intro a b notLater early
  rw [decide_eq_true_eq] at early ⊢
  exact Nat.lt_of_le_of_lt notLater early

theorem insertArrival_eq (a : Arrival) (arrivals : List Arrival) :
    insertArrival a arrivals =
      arrivals.takeWhile (·.time ≤ a.time) ++ a :: arrivals.dropWhile (·.time ≤ a.time) := by
  induction arrivals with
  | nil => rfl
  | cons b rest ih =>
      by_cases notLater : b.time ≤ a.time
      · rw [insertArrival, if_pos notLater, ih,
          List.takeWhile_cons_of_pos (by simpa using notLater),
          List.dropWhile_cons_of_pos (by simpa using notLater), List.cons_append]
      · rw [insertArrival, if_neg notLater,
          List.takeWhile_cons_of_neg (by simpa using notLater),
          List.dropWhile_cons_of_neg (by simpa using notLater), List.nil_append]

/-! ## Submissions -/

structure Submission where
  arrival : Arrival
  after : Nat
deriving DecidableEq, Repr

namespace Submission

variable {s : Submission} {length k : Nat}

def time (s : Submission) : Time :=
  s.arrival.time

/-- The interval that the frame arrives in, if it is not over; else the one to be run next. -/
def interval (length : Nat) (s : Submission) : Nat :=
  max (s.time / length) s.after

theorem interval_lt_iff (positive : 0 < length) (made : s.after ≤ k) :
    s.interval length < k + 1 ↔ s.time < (k + 1) * length := by
  rw [interval, Nat.max_lt, Nat.div_lt_iff_lt_mul positive]
  exact and_iff_left (Nat.lt_succ_of_le made)

theorem interval_eq_iff (positive : 0 < length) (made : s.after ≤ k) :
    s.interval length = k ↔ k ≤ s.interval length ∧ s.time < (k + 1) * length := by
  rw [← interval_lt_iff positive made]
  omega

theorem lt_interval_iff (positive : 0 < length) (made : s.after ≤ k) :
    k + 1 ≤ s.interval length ↔ (k + 1) * length ≤ s.time := by
  rw [← Nat.not_lt, interval_lt_iff positive made, Nat.not_lt]

theorem le_interval_iff (positive : 0 < length) :
    k ≤ s.interval length ↔ k * length ≤ s.time ∨ k ≤ s.after := by
  rw [← Nat.not_lt, interval, Nat.max_lt, Nat.div_lt_iff_lt_mul positive,
    Decidable.not_and_iff_not_or_not, Nat.not_lt, Nat.not_lt]

theorem max_time_of_interval (positive : 0 < length) (own : s.interval length = k) :
    max s.time (k * length) = max s.time (s.after * length) := by
  have made : s.after ≤ k := own ▸ Nat.le_max_right _ _
  have waits : s.after * length ≤ k * length := Nat.mul_le_mul_right length made
  by_cases early : s.time < k * length
  · have past : s.time / length < k := (Nat.div_lt_iff_lt_mul positive).mpr early
    have next : s.after = k := by
      refine Nat.le_antisymm made (Nat.le_of_not_lt fun sooner => ?_)
      exact Nat.ne_of_lt (Nat.max_lt.mpr ⟨past, sooner⟩) own
    rw [next]
  · have begun : k * length ≤ s.time := Nat.le_of_not_lt early
    rw [Nat.max_eq_left begun, Nat.max_eq_left (Nat.le_trans waits begun)]

end Submission

/-- By arrival time, and by number where times are equal. -/
def Earlier (x y : Submission × Nat) : Prop :=
  x.1.time < y.1.time ∨ (x.1.time = y.1.time ∧ x.2 < y.2)

instance : DecidableRel Earlier := fun x y =>
  inferInstanceAs (Decidable (x.1.time < y.1.time ∨ (x.1.time = y.1.time ∧ x.2 < y.2)))

theorem Earlier.asymm {x y : Submission × Nat} (first : Earlier x y) : ¬ Earlier y x := by
  intro second
  rcases first, second with ⟨before | ⟨same, before⟩, after | ⟨again, after⟩⟩
  · exact Nat.lt_asymm before after
  · exact Nat.ne_of_lt before again.symm
  · exact Nat.ne_of_lt after same.symm
  · exact Nat.lt_asymm before after

/-- The numbered submissions that fulfil a condition, each once, in order. -/
structure Selects (keep : Submission → Prop) (submissions : List Submission)
    (chosen : List (Submission × Nat)) : Prop where
  order : chosen.Pairwise Earlier
  mem_iff : ∀ x, x ∈ chosen ↔ x ∈ submissions.zipIdx ∧ keep x.1

def waiting (chosen : List (Submission × Nat)) : List Arrival :=
  chosen.map (·.1.arrival)

namespace Selects

variable {keep keep' : Submission → Prop} {submissions : List Submission} {new : Submission}
  {chosen others : List (Submission × Nat)}

theorem nil : Selects keep [] [] :=
  ⟨.nil, by simp⟩

theorem congr (selects : Selects keep submissions chosen)
    (same : ∀ s ∈ submissions, keep s ↔ keep' s) : Selects keep' submissions chosen := by
  refine ⟨selects.order, ?_⟩
  intro x
  rw [selects.mem_iff]
  constructor
  · rintro ⟨member, kept⟩
    exact ⟨member, (same x.1 (List.fst_mem_of_mem_zipIdx member)).mp kept⟩
  · rintro ⟨member, kept⟩
    exact ⟨member, (same x.1 (List.fst_mem_of_mem_zipIdx member)).mpr kept⟩

theorem filter (selects : Selects keep submissions chosen) (p : Submission → Bool) :
    Selects (fun s => keep s ∧ p s = true) submissions (chosen.filter fun x => p x.1) := by
  refine ⟨selects.order.filter _, ?_⟩
  intro x
  rw [List.mem_filter, selects.mem_iff, and_assoc]

theorem zipIdx_snoc (submissions : List Submission) (new : Submission) :
    (submissions ++ [new]).zipIdx = submissions.zipIdx ++ [(new, submissions.length)] := by
  rw [List.zipIdx_append, Nat.zero_add]
  rfl

theorem lt_length {x : Submission × Nat} (member : x ∈ submissions.zipIdx) :
    x.2 < submissions.length := by
  rw [List.mem_zipIdx_iff_getElem?] at member
  exact (List.getElem?_eq_some_iff.mp member).1

theorem skip {more : List Submission} (selects : Selects keep submissions chosen)
    (others : ∀ s ∈ more, ¬ keep s) : Selects keep (submissions ++ more) chosen := by
  refine ⟨selects.order, ?_⟩
  intro x
  rw [selects.mem_iff, List.zipIdx_append, List.mem_append]
  constructor
  · rintro ⟨member, kept⟩
    exact ⟨Or.inl member, kept⟩
  · rintro ⟨member | member, kept⟩
    · exact ⟨member, kept⟩
    · exact absurd kept (others x.1 (List.fst_mem_of_mem_zipIdx member))

theorem sorted (selects : Selects keep submissions chosen) :
    (waiting chosen).Pairwise fun a b => a.time ≤ b.time := by
  rw [waiting, List.pairwise_map]
  refine selects.order.imp ?_
  intro x y earlier
  rcases earlier with before | ⟨same, _⟩
  · exact Nat.le_of_lt before
  · exact Nat.le_of_eq same

theorem ordered_insert {number : Nat} (ordered : chosen.Pairwise Earlier)
    (last : ∀ x ∈ chosen, x.2 < number) :
    (chosen.takeWhile (fun x => x.1.time ≤ new.time) ++
      (new, number) :: chosen.dropWhile (fun x => x.1.time ≤ new.time)).Pairwise Earlier := by
  have split := split_of_pairwise (p := fun x => decide (x.1.time ≤ new.time)) ordered (by
    intro x y earlier notLater
    simp only [decide_eq_true_eq] at notLater ⊢
    rcases earlier with before | ⟨same, _⟩
    · exact Nat.le_trans (Nat.le_of_lt before) notLater
    · exact same ▸ notLater)
  rw [split.1, split.2, List.pairwise_append, List.pairwise_cons]
  refine ⟨ordered.filter _, ⟨?_, ordered.filter _⟩, ?_⟩
  · intro y member
    obtain ⟨_, later⟩ := List.mem_filter.mp member
    exact Or.inl (by simpa using later)
  · intro x member y behind
    obtain ⟨old, notLater⟩ := List.mem_filter.mp member
    simp only [decide_eq_true_eq] at notLater
    rcases List.mem_cons.mp behind with rfl | behind
    · rcases Nat.lt_or_eq_of_le notLater with before | same
      · exact Or.inl before
      · exact Or.inr ⟨same, last x old⟩
    · obtain ⟨_, later⟩ := List.mem_filter.mp behind
      exact Or.inl (Nat.lt_of_le_of_lt notLater (by simpa using later))

theorem submit (selects : Selects keep submissions chosen) (kept : keep new) :
    ∃ longer, Selects keep (submissions ++ [new]) longer ∧
      waiting longer = insertArrival new.arrival (waiting chosen) := by
  refine ⟨chosen.takeWhile (fun x => x.1.time ≤ new.time) ++
    (new, submissions.length) :: chosen.dropWhile (fun x => x.1.time ≤ new.time), ⟨?_, ?_⟩, ?_⟩
  · apply ordered_insert selects.order
    intro x old
    exact lt_length ((selects.mem_iff x).mp old).1
  · intro x
    rw [List.mem_append, List.mem_cons, or_left_comm, ← List.mem_append,
      List.takeWhile_append_dropWhile, selects.mem_iff, zipIdx_snoc, List.mem_append,
      List.mem_singleton]
    constructor
    · rintro (rfl | ⟨member, keeps⟩)
      · exact ⟨Or.inr rfl, kept⟩
      · exact ⟨Or.inl member, keeps⟩
    · rintro ⟨member | rfl, keeps⟩
      · exact Or.inr ⟨member, keeps⟩
      · exact Or.inl rfl
  · rw [insertArrival_eq, waiting, waiting, List.map_append, List.map_cons, List.takeWhile_map,
      List.dropWhile_map]
    rfl

theorem nodup (ordered : chosen.Pairwise Earlier) : chosen.Nodup := by
  refine ordered.imp ?_
  rintro x _ earlier rfl
  exact earlier.asymm earlier

theorem iff_perm [DecidablePred keep] : Selects keep submissions chosen ↔
    chosen.Pairwise Earlier ∧ chosen.Perm (submissions.zipIdx.filter fun x => keep x.1) := by
  have numbers : (submissions.zipIdx.map Prod.snd).Nodup := by
    rw [List.zipIdx_map_snd]
    exact List.nodup_range' 1
  have each : (submissions.zipIdx.filter fun x => decide (keep x.1)).Nodup :=
    (List.Pairwise.of_map Prod.snd (fun _ _ other same => other (congrArg _ same)) numbers).filter _
  constructor
  · intro selects
    refine ⟨selects.order, (List.perm_ext_iff_of_nodup (nodup selects.order) each).mpr ?_⟩
    intro x
    rw [selects.mem_iff, List.mem_filter, decide_eq_true_eq]
  · rintro ⟨ordered, perm⟩
    refine ⟨ordered, ?_⟩
    intro x
    rw [perm.mem_iff, List.mem_filter, decide_eq_true_eq]

instance [DecidablePred keep] : Decidable (Selects keep submissions chosen) :=
  decidable_of_iff _ iff_perm.symm

theorem unique (first : Selects keep submissions chosen)
    (second : Selects keep submissions others) : chosen = others := by
  have perm : chosen.Perm others := by
    refine (List.perm_ext_iff_of_nodup (nodup first.order) (nodup second.order)).mpr ?_
    intro x
    rw [first.mem_iff, second.mem_iff]
  exact perm.eq_of_pairwise (fun _ _ _ _ before after => absurd after before.asymm) first.order
    second.order

theorem split (selects : Selects keep submissions chosen) (limit : Time) :
    ∃ first others, (waiting chosen).takeWhile (·.time < limit) = waiting first ∧
      (waiting chosen).dropWhile (·.time < limit) = waiting others ∧
      Selects (fun s => keep s ∧ s.time < limit) submissions first ∧
      Selects (fun s => keep s ∧ limit ≤ s.time) submissions others := by
  obtain ⟨leave, stay⟩ := split_of_sorted selects.sorted limit
  rw [leave, stay, waiting, List.filter_map, List.filter_map]
  refine ⟨_, _, rfl, rfl, ?_, ?_⟩
  · exact (selects.filter fun s => decide (s.time < limit)).congr fun s _ => by simp
  · exact (selects.filter fun s => !decide (s.time < limit)).congr fun s _ => by simp

end Selects

end BeaconScheduler.Timeline
