import BeaconScheduler.Proofs.Traversal
import Mathlib.Order.Bounds.Basic

/-!
# The longest run of blocks

What the search for equally spaced blocks is to find, said without a search: from the first
slot that is long enough on, offsets a spacing apart, as many as come before one that has no
room (`LongestRun`).  The walk through the slots meets such an offset in three ways, too late in
a slot, between slots or behind the last one, and each of them is `¬ Hosts`.
-/

set_option autoImplicit false

namespace BeaconScheduler.FreeSlots

open BeaconScheduler.Interval Counter

/-- Offset `t` lies in a slot that holds `needed` microseconds from there on. -/
def Hosts (free : FreeSlots) (needed t : Nat) : Prop :=
  ∃ slot ∈ free.slots, slot.start ≤ t ∧ t < slot.stop ∧ t + needed ≤ slot.stop

/-- The most offsets, up to `limit`, that go on from `start` with a slot hosting each. -/
def LongestRun (free : FreeSlots) (needed spacing limit start n : Nat) : Prop :=
  IsGreatest {m | m ≤ limit ∧ ∀ i < m, free.Hosts needed (start + i * spacing)} n

structure LongestFrom (free : FreeSlots) (needed spacing limit : Nat) (offsets : List Nat) :
    Prop where
  nowhere : (∀ slot ∈ free.slots, slot.length < needed) → offsets = []
  run : ∀ slot, (free.slots.find? fun slot => needed ≤ slot.length) = some slot →
    ∃ n, free.LongestRun needed spacing limit slot.start n ∧
      offsets = (List.range n).map fun i => slot.start + i * spacing

variable {free : FreeSlots} {slot : Interval} {offsets : List Nat}
  {needed spacing limit count start n t : Nat}

theorem Hosts.isFree (hosts : free.Hosts needed t) : free.Free t := by
  obtain ⟨slot, member, first, last, _⟩ := hosts
  exact ⟨slot, member, first, last⟩

theorem hosts_iff (canonical : Canonical free.slots) (member : slot ∈ free.slots)
    (first : slot.start ≤ t) (last : t < slot.stop) :
    free.Hosts needed t ↔ t + needed ≤ slot.stop := by
  constructor
  · rintro ⟨other, memberOther, firstOther, lastOther, room⟩
    have here := (slotAt?_eq_some_iff canonical).mpr ⟨member, first, last⟩
    have there := (slotAt?_eq_some_iff canonical).mpr ⟨memberOther, firstOther, lastOther⟩
    obtain rfl := Option.some.inj (here.symm.trans there)
    exact room
  · exact fun room => ⟨slot, member, first, last, room⟩

/-! ## Runs -/

theorem longestRun_cap : free.LongestRun needed spacing 0 start 0 :=
  ⟨⟨Nat.le_refl 0, fun i below => absurd below (Nat.not_lt_zero i)⟩, fun _ run => run.1⟩

theorem longestRun_zero (full : ¬ free.Hosts needed start) :
    free.LongestRun needed spacing limit start 0 := by
  refine ⟨⟨Nat.zero_le limit, fun i below => absurd below (Nat.not_lt_zero i)⟩, ?_⟩
  rintro m ⟨_, hosts⟩
  by_contra several
  have first := hosts 0 (Nat.lt_of_not_le several)
  rw [Nat.zero_mul, Nat.add_zero] at first
  exact full first

theorem LongestRun.succ (hosts : free.Hosts needed start)
    (rest : free.LongestRun needed spacing limit (start + spacing) n) :
    free.LongestRun needed spacing (limit + 1) start (n + 1) := by
  have shift : ∀ i, start + spacing + i * spacing = start + (i + 1) * spacing := fun i => by
    rw [Nat.succ_mul]
    omega
  obtain ⟨⟨atMost, hosted⟩, longest⟩ := rest
  refine ⟨⟨Nat.succ_le_succ atMost, fun i below => ?_⟩, ?_⟩
  · cases i with
    | zero =>
        rw [Nat.zero_mul, Nat.add_zero]
        exact hosts
    | succ i =>
        rw [← shift]
        exact hosted i (Nat.lt_of_succ_lt_succ below)
  · rintro m ⟨bound, run⟩
    cases m with
    | zero => exact Nat.zero_le _
    | succ m =>
        refine Nat.succ_le_succ (longest ⟨Nat.le_of_succ_le_succ bound, fun i below => ?_⟩)
        rw [shift]
        exact run (i + 1) (Nat.succ_lt_succ below)

theorem occurrences_longest (canonical : Canonical free.slots) (member : slot ∈ free.slots)
    (first : slot.start ≤ t) (last : t < slot.stop)
    (found : free.occurrences needed spacing count slot t = .ok offsets) :
    free.LongestRun needed spacing count t offsets.length := by
  induction count generalizing slot t offsets with
  | zero =>
      obtain rfl := Except.ok.inj found
      exact longestRun_cap
  | succ count ih =>
      have inSlot : free.Hosts needed t ↔ t + needed ≤ slot.stop :=
        hosts_iff canonical member first last
      rw [occurrences_succ canonical member first, bind_eq_ok_iff] at found
      obtain ⟨stop, sum, found⟩ := found
      obtain ⟨_, rfl⟩ := add_eq_ok_iff.mp sum
      split_ifs at found with short
      · obtain rfl := pure_eq_ok_iff.mp found
        exact longestRun_zero fun hosts => Nat.not_le_of_lt short (inSlot.mp hosts)
      have hosts : free.Hosts needed t := inSlot.mpr (Nat.le_of_not_lt short)
      obtain ⟨next, sum, found⟩ := bind_eq_ok_iff.mp found
      obtain ⟨_, rfl⟩ := add_eq_ok_iff.mp sum
      cases lookup : free.slotAt? (t + spacing) with
      | none =>
          simp only [lookup] at found
          obtain rfl := pure_eq_ok_iff.mp found
          have occupied := (slotAt?_eq_none_iff canonical).mp lookup
          exact (longestRun_zero fun behind => occupied behind.isFree).succ hosts
      | some other =>
          simp only [lookup] at found
          obtain ⟨rest, foundRest, joined⟩ := bind_eq_ok_iff.mp found
          obtain rfl := pure_eq_ok_iff.mp joined
          obtain ⟨memberOther, firstOther, lastOther⟩ :=
            (slotAt?_eq_some_iff canonical).mp lookup
          exact (ih memberOther firstOther lastOther foundRest).succ hosts

/-! ## The search -/

variable {duration guard maxBlocks : Nat}

theorem longestFrom_nil (short : ∀ slot ∈ free.slots, slot.length < needed) :
    free.LongestFrom needed spacing limit [] := by
  refine ⟨fun _ => rfl, fun slot found => ?_⟩
  have long : needed ≤ slot.length := by simpa using List.find?_some found
  exact absurd (short slot (List.mem_of_find?_eq_some found)) (Nat.not_lt_of_le long)

theorem longestFrom_of_slot
    (found : (free.slots.find? fun slot => needed ≤ slot.length) = some slot)
    (run : free.LongestRun needed spacing limit slot.start n) :
    free.LongestFrom needed spacing limit
      ((List.range n).map fun i => slot.start + i * spacing) := by
  refine ⟨fun short => ?_, fun other same => ?_⟩
  · have long : needed ≤ slot.length := by simpa using List.find?_some found
    exact absurd (short slot (List.mem_of_find?_eq_some found)) (Nat.not_lt_of_le long)
  · obtain rfl := Option.some.inj (found.symm.trans same)
    exact ⟨n, run, rfl⟩

theorem range'_eq_map (start n spacing : Nat) :
    List.range' start n spacing = (List.range n).map fun i => start + i * spacing := by
  refine List.ext_getElem (by simp) fun i _ _ => ?_
  simp [Nat.mul_comm]

theorem periodicOffsets_longest (canonical : Canonical free.slots) (positive : 0 < spacing)
    (found : free.periodicOffsets duration spacing guard maxBlocks = .ok offsets) :
    free.LongestFrom (duration + guard) spacing maxBlocks offsets := by
  unfold periodicOffsets at found
  split_ifs at found with empty none
  · obtain rfl := Except.ok.inj found
    have slots : free.slots = [] := by simpa [Nat.ne_of_gt positive] using empty
    exact longestFrom_nil (by simp [slots])
  · obtain ⟨_, _, found⟩ := bind_eq_ok_iff.mp found
    obtain rfl := pure_eq_ok_iff.mp found
    rw [none]
    exact ⟨fun _ => rfl, fun slot _ => ⟨0, longestRun_cap, rfl⟩⟩
  · obtain ⟨_, sum, found⟩ := bind_eq_ok_iff.mp found
    obtain ⟨_, rfl⟩ := add_eq_ok_iff.mp sum
    obtain ⟨room, search, found⟩ := bind_eq_ok_iff.mp found
    have lookup := firstRoom_eq_ok canonical.nonempty search
    cases room with
    | none =>
        obtain rfl := pure_eq_ok_iff.mp found
        refine longestFrom_nil fun slot member => ?_
        simpa using List.find?_eq_none.mp lookup.symm slot member
    | some slot =>
        have member := List.mem_of_find?_eq_some lookup.symm
        have run := occurrences_longest canonical member (Nat.le_refl _)
          (canonical.nonempty slot member) found
        rw [occurrences_eq_ok found, range'_eq_map]
        exact longestFrom_of_slot lookup.symm run

/-- Where the sums that the search forms fit their counters, it ends with the longest run, and
its loop over positions ends inside the list with the same. -/
theorem search_finds_longest (canonical : Canonical free.slots) (positive : 0 < spacing)
    (sum : duration + guard < 2 ^ 32)
    (sums : ∀ n t, n < maxBlocks → free.Candidate (duration + guard) spacing n t →
      free.SumsFit (duration + guard) spacing t) :
    ∃ offsets, free.periodicOffsets duration spacing guard maxBlocks = .ok offsets ∧
      (∀ bound, free.slots.length + maxBlocks ≤ bound →
        free.walk duration spacing guard maxBlocks bound = .ok (some offsets)) ∧
      free.LongestFrom (duration + guard) spacing maxBlocks offsets := by
  obtain ⟨offsets, found⟩ := (periodicOffsets_ends_iff canonical positive sum).mpr sums
  refine ⟨offsets, found, fun bound enough => ?_,
    periodicOffsets_longest canonical positive found⟩
  rw [walk_eq canonical enough, found]
  rfl

/-- A slot that is too short for a block of 990 microseconds with a guard time of 10, and two
slots with room for several. -/
def threeSlots : FreeSlots :=
  ⟨101400, [⟨0, 999⟩, ⟨2000, 40000⟩, ⟨50000, 101400⟩]⟩

theorem threeSlots_wellFormed : threeSlots.WellFormed := by
  constructor <;> decide

theorem threeSlots_longest :
    Canonical threeSlots.slots ∧
      threeSlots.periodicOffsets 990 25600 10 255 = .ok [2000, 27600, 53200, 78800] ∧
      (∀ bound, 258 ≤ bound →
        threeSlots.walk 990 25600 10 255 bound = .ok (some [2000, 27600, 53200, 78800])) ∧
      threeSlots.LongestFrom (990 + 10) 25600 255 [2000, 27600, 53200, 78800] := by
  obtain ⟨offsets, found, walked, longest⟩ := search_finds_longest threeSlots_wellFormed.canonical
    (by decide : 0 < 25600) (by decide : 990 + 10 < 2 ^ 32) fun _ _ (_ : _ < 255) candidate =>
      candidate.sumsFit threeSlots_wellFormed (by decide) (by decide)
  have computed : threeSlots.periodicOffsets 990 25600 10 255 =
      .ok [2000, 27600, 53200, 78800] := rfl
  obtain rfl := Except.ok.inj (computed.symm.trans found)
  exact ⟨threeSlots_wellFormed.canonical, computed, walked, longest⟩

end BeaconScheduler.FreeSlots
