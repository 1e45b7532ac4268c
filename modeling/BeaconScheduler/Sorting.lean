/-!
# Stable sorting

Insertion sort by a comparison that may leave entries tied. Main statements: the
result is a permutation of the list, and of any two entries the earlier one compares
below the later one. Ties keep their order, because entries are inserted from the last
one on and each goes in front of those it is tied with.
-/

set_option autoImplicit false

namespace BeaconScheduler.Sorting

variable {α : Type}

def insert (le : α → α → Bool) (x : α) : List α → List α
  | [] => [x]
  | y :: rest => if le x y then x :: y :: rest else y :: insert le x rest

def sort (le : α → α → Bool) : List α → List α
  | [] => []
  | x :: rest => insert le x (sort le rest)

theorem insert_perm (le : α → α → Bool) (x : α) (list : List α) :
    (insert le x list).Perm (x :: list) := by
  induction list with
  | nil => exact .refl _
  | cons y rest ih =>
      unfold insert
      split
      · exact .refl _
      · exact (ih.cons y).trans (.swap x y rest)

theorem sort_perm (le : α → α → Bool) (list : List α) :
    (sort le list).Perm list := by
  induction list with
  | nil => exact .refl _
  | cons x rest ih => exact (insert_perm le x _).trans (ih.cons x)

theorem pairwise_insert {le : α → α → Bool}
    (trans : ∀ a b c, le a b → le b c → le a c)
    (total : ∀ a b, le a b = false → le b a)
    (x : α) {list : List α} (sorted : list.Pairwise (le · ·)) :
    (insert le x list).Pairwise (le · ·) := by
  induction list with
  | nil => simp [insert]
  | cons y rest ih =>
      obtain ⟨below, sortedRest⟩ := List.pairwise_cons.1 sorted
      unfold insert
      split
      · rename_i h
        refine List.pairwise_cons.2 ⟨?_, sorted⟩
        intro z hz
        rcases List.mem_cons.1 hz with rfl | hz
        · exact h
        · exact trans _ _ _ h (below z hz)
      · rename_i h
        refine List.pairwise_cons.2 ⟨?_, ih sortedRest⟩
        intro z hz
        rcases List.mem_cons.1 ((insert_perm le x rest).mem_iff.1 hz) with rfl | hz
        · exact total _ _ (Bool.eq_false_iff.2 h)
        · exact below z hz

theorem pairwise_sort {le : α → α → Bool}
    (trans : ∀ a b c, le a b → le b c → le a c)
    (total : ∀ a b, le a b = false → le b a) (list : List α) :
    (sort le list).Pairwise (le · ·) := by
  induction list with
  | nil => exact .nil
  | cons x rest ih => exact pairwise_insert trans total x ih

end BeaconScheduler.Sorting
