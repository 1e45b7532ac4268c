import BeaconScheduler.Sorting

/-!
# Intervals

Half-open stretches `[start, stop)` of the data transfer interval, in microseconds
from its start. Free slots and the time that allocations occupy are both lists of
intervals.
-/

set_option autoImplicit false

namespace BeaconScheduler

structure Interval where
  start : Nat
  stop : Nat
deriving DecidableEq, Repr

namespace Interval

def length (i : Interval) : Nat :=
  i.stop - i.start

def contains (i : Interval) (t : Nat) : Bool :=
  i.start ≤ t && t < i.stop

def le (i j : Interval) : Bool :=
  i.start < j.start || (i.start == j.start && i.stop ≤ j.stop)

def sort (list : List Interval) : List Interval :=
  Sorting.sort le list

/-- The first interval of a sorted list that starts before its predecessor has
ended, with that predecessor. -/
def firstOverlap? : List Interval → Option (Interval × Interval)
  | i :: j :: rest => if j.start < i.stop then some (i, j) else firstOverlap? (j :: rest)
  | _ => none

theorem contains_iff {i : Interval} {t : Nat} :
    i.contains t = true ↔ i.start ≤ t ∧ t < i.stop := by
  simp [contains]

theorem le_iff {i j : Interval} :
    i.le j = true ↔ i.start < j.start ∨ (i.start = j.start ∧ i.stop ≤ j.stop) := by
  simp [le]

theorem sort_perm (list : List Interval) : (sort list).Perm list :=
  Sorting.sort_perm le list

theorem pairwise_sort (list : List Interval) :
    (sort list).Pairwise (fun i j => i.le j = true) := by
  refine Sorting.pairwise_sort ?_ ?_ list
  · intro a b c hab hbc
    rw [le_iff] at *
    omega
  · intro a b h
    rw [← Bool.not_eq_true, le_iff] at h
    rw [le_iff]
    omega

end Interval
end BeaconScheduler
