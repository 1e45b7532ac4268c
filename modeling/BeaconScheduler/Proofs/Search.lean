import BeaconScheduler.Proofs.Placement
import BeaconScheduler.Proofs.Room

/-!
# The search for equally spaced blocks

The search goes through the slots until one has room for a block, and from there on looks at
one offset after another, a spacing apart, while each has room.  `Candidate` says which offsets
it looks at, without the search.  Every offset that it finds has room (`periodicOffsets_room`),
and it comes to an end exactly if the sums that it forms at its candidates fit 32 bits
(`periodicOffsets_ends_iff`).
-/

set_option autoImplicit false

namespace BeaconScheduler

open BeaconScheduler.Interval

open Counter

namespace FreeSlots

variable {free : FreeSlots} {slots : List Interval} {slot : Interval} {offsets : List Nat}
  {needed spacing count n t u : Nat}

/-! ## Candidates -/

/-- Offset `u` comes `n` spacings after `t`, with room at every offset passed. -/
inductive Follows (free : FreeSlots) (needed spacing : Nat) : Nat → Nat → Nat → Prop where
  | here (t : Nat) : Follows free needed spacing t 0 t
  | further {t n u : Nat} (room : free.Room needed t) (isFree : free.Free (t + spacing))
      (rest : Follows free needed spacing (t + spacing) n u) :
      Follows free needed spacing t (n + 1) u

/-- The offset that the search looks at when it has found `n` others: it begins with a slot
that is the first one or comes after slots that are too short. -/
def Candidate (free : FreeSlots) (needed spacing n u : Nat) : Prop :=
  ∃ before slot behind, free.slots = before ++ slot :: behind ∧
    (∀ earlier ∈ before, earlier.length < needed) ∧ free.Follows needed spacing slot.start n u

/-- The end of a block at `u` can be counted, and the offset after it if there is room. -/
def SumsFit (free : FreeSlots) (needed spacing u : Nat) : Prop :=
  u + needed < 2 ^ 32 ∧ (free.Room needed u → u + spacing < 2 ^ 32)

theorem Follows.isFree (follows : free.Follows needed spacing t n u) (start : free.Free t) :
    free.Free u := by
  induction follows with
  | here t => exact start
  | further _ next _ ih => exact ih next

theorem Candidate.isFree (wellFormed : free.WellFormed)
    (candidate : free.Candidate needed spacing n u) : free.Free u := by
  obtain ⟨before, slot, behind, split, _, follows⟩ := candidate
  have member : slot ∈ free.slots := by
    rw [split]
    exact List.mem_append_right before List.mem_cons_self
  exact follows.isFree ⟨slot, member, Nat.le_refl _, wellFormed.nonempty slot member⟩

theorem Candidate.sumsFit (wellFormed : free.WellFormed) (close : needed ≤ spacing)
    (short : free.dti + spacing ≤ 2 ^ 32) (candidate : free.Candidate needed spacing n u) :
    free.SumsFit needed spacing u := by
  have inside := wellFormed.lt_dti (candidate.isFree wellFormed)
  exact ⟨by omega, fun _ => by omega⟩

theorem forall_follows_iff {Good : Nat → Prop} :
    (∀ n u, n < count + 1 → free.Follows needed spacing t n u → Good u) ↔
      Good t ∧ (free.Room needed t → free.Free (t + spacing) →
        ∀ n u, n < count → free.Follows needed spacing (t + spacing) n u → Good u) := by
  constructor
  · intro all
    refine ⟨all 0 t (Nat.succ_pos _) (.here t), ?_⟩
    intro room isFree n u below follows
    exact all (n + 1) u (Nat.succ_lt_succ below) (.further room isFree follows)
  · rintro ⟨first, later⟩ n u below follows
    cases follows with
    | here => exact first
    | further room isFree rest => exact later room isFree _ u (Nat.lt_of_succ_lt_succ below) rest

/-! ## The offsets after the first -/

theorem occurrences_succ (canonical : Canonical free.slots) (member : slot ∈ free.slots)
    (first : slot.start ≤ t) :
    free.occurrences needed spacing (count + 1) slot t = (do
      let stop ← add32 t needed
      if slot.stop < stop then
        return []
      let next ← add32 t spacing
      match free.slotAt? next with
      | some slot => return t :: (← free.occurrences needed spacing count slot next)
      | none => return [t]) := by
  rw [occurrences]
  refine bind_congr fun stop => ?_
  by_cases short : slot.stop < stop
  · rw [if_pos short, if_pos short]
  rw [if_neg short, if_neg short]
  cases sum : add32 t spacing with
  | error fault => rfl
  | ok next =>
      have follows := (add_eq_ok_iff.mp sum).2
      rw [ok_bind, ok_bind]
      by_cases same : next < slot.stop
      · have here : free.slotAt? next = some slot :=
          (slotAt?_eq_some_iff canonical).mpr ⟨member, by omega, same⟩
        rw [if_pos same, here]
      · refine (if_neg same).trans ?_
        cases free.slotAt? next <;> rfl

theorem occurrences_room (canonical : Canonical free.slots) (member : slot ∈ free.slots)
    (first : slot.start ≤ t) (last : t < slot.stop)
    (found : free.occurrences needed spacing count slot t = .ok offsets) :
    ∀ u ∈ offsets, free.Room needed u := by
  induction count generalizing slot t offsets with
  | zero =>
      obtain rfl := Except.ok.inj found
      simp
  | succ count ih =>
      rw [occurrences_succ canonical member first, bind_eq_ok_iff] at found
      obtain ⟨stop, sum, found⟩ := found
      obtain ⟨_, rfl⟩ := add_eq_ok_iff.mp sum
      split_ifs at found with short
      · obtain rfl := pure_eq_ok_iff.mp found
        simp
      have room : free.Room needed t := (room_iff canonical member first last).mpr (by omega)
      obtain ⟨next, _, found⟩ := bind_eq_ok_iff.mp found
      cases lookup : free.slotAt? next with
      | none =>
          simp only [lookup] at found
          obtain rfl := pure_eq_ok_iff.mp found
          simpa using room
      | some other =>
          simp only [lookup] at found
          obtain ⟨rest, foundRest, joined⟩ := bind_eq_ok_iff.mp found
          obtain rfl := pure_eq_ok_iff.mp joined
          obtain ⟨memberOther, firstOther, lastOther⟩ :=
            (slotAt?_eq_some_iff canonical).mp lookup
          exact List.forall_mem_cons.mpr
            ⟨room, ih memberOther firstOther lastOther foundRest⟩

theorem occurrences_ends_iff (canonical : Canonical free.slots) (member : slot ∈ free.slots)
    (first : slot.start ≤ t) (last : t < slot.stop) :
    Ends (free.occurrences needed spacing count slot t) ↔
      ∀ n u, n < count → free.Follows needed spacing t n u → free.SumsFit needed spacing u := by
  induction count generalizing slot t with
  | zero => exact ⟨fun _ n u below => absurd below (Nat.not_lt_zero n), fun _ => ends_ok []⟩
  | succ count ih =>
      rw [occurrences_succ canonical member first, ends_add_bind_iff, forall_follows_iff,
        SumsFit, and_assoc]
      refine and_congr_right fun _ => ?_
      have inSlot : free.Room needed t ↔ t + needed ≤ slot.stop :=
        room_iff canonical member first last
      by_cases short : slot.stop < t + needed
      · have noRoom : ¬ free.Room needed t := by
          rw [inSlot]
          omega
        rw [if_pos short]
        exact ⟨fun _ => ⟨fun room => absurd room noRoom, fun room => absurd room noRoom⟩,
          fun _ => ends_pure []⟩
      · have room : free.Room needed t := inSlot.mpr (by omega)
        rw [if_neg short, ends_add_bind_iff]
        simp only [room, true_implies]
        refine and_congr_right fun _ => ?_
        cases lookup : free.slotAt? (t + spacing) with
        | none =>
            have occupied := (slotAt?_eq_none_iff canonical).mp lookup
            exact ⟨fun _ isFree => absurd isFree occupied, fun _ => ends_pure [t]⟩
        | some other =>
            obtain ⟨memberOther, firstOther, lastOther⟩ :=
              (slotAt?_eq_some_iff canonical).mp lookup
            have isFree : free.Free (t + spacing) :=
              ⟨other, memberOther, firstOther, lastOther⟩
            have others := ih memberOther firstOther lastOther
            simp only [isFree, true_implies, ← others, ends_bind_iff, ends_pure, and_true]
            exact Iff.rfl

/-! ## The first slot with room -/

theorem forall_first_iff {head : Interval} {rest : List Interval} {Short Good : Interval → Prop} :
    (∀ before slot behind, head :: rest = before ++ slot :: behind →
        (∀ earlier ∈ before, Short earlier) → Good slot) ↔
      Good head ∧ (Short head → ∀ before slot behind, rest = before ++ slot :: behind →
        (∀ earlier ∈ before, Short earlier) → Good slot) := by
  constructor
  · intro all
    refine ⟨all [] head rest rfl (by simp), ?_⟩
    intro short before slot behind split shortBefore
    refine all (head :: before) slot behind (by rw [split]; rfl) ?_
    exact List.forall_mem_cons.mpr ⟨short, shortBefore⟩
  · rintro ⟨first, later⟩ before slot behind split short
    cases before with
    | nil =>
        obtain ⟨rfl, _⟩ := List.cons.inj split
        exact first
    | cons other before =>
        obtain ⟨rfl, splitRest⟩ := List.cons.inj split
        obtain ⟨shortHead, shortBefore⟩ := List.forall_mem_cons.mp short
        exact later shortHead before slot behind splitRest shortBefore

theorem firstRoom_eq_ok {room : Option Interval} (nonempty : ∀ slot ∈ slots, slot.start < slot.stop)
    (found : firstRoom needed slots = .ok room) :
    room = slots.find? fun slot => needed ≤ slot.length := by
  induction slots with
  | nil =>
      obtain rfl := Except.ok.inj found
      rfl
  | cons head rest ih =>
      obtain ⟨own, nonemptyRest⟩ := List.forall_mem_cons.mp nonempty
      rw [firstRoom, bind_eq_ok_iff] at found
      obtain ⟨stop, sum, found⟩ := found
      obtain ⟨_, rfl⟩ := add_eq_ok_iff.mp sum
      split_ifs at found with fits
      · obtain rfl := pure_eq_ok_iff.mp found
        have long : needed ≤ head.length := by
          unfold Interval.length
          omega
        rw [List.find?_cons_of_pos (by simpa using long)]
      · have short : ¬ needed ≤ head.length := by
          unfold Interval.length
          omega
        rw [List.find?_cons_of_neg (by simpa using short)]
        exact ih nonemptyRest found

theorem firstRoom_ends_iff (nonempty : ∀ slot ∈ slots, slot.start < slot.stop) :
    Ends (firstRoom needed slots) ↔
      ∀ before slot behind, slots = before ++ slot :: behind →
        (∀ earlier ∈ before, earlier.length < needed) → slot.start + needed < 2 ^ 32 := by
  induction slots with
  | nil =>
      refine ⟨fun _ before slot behind split => ?_, fun _ => ends_ok none⟩
      simp at split
  | cons head rest ih =>
      obtain ⟨own, nonemptyRest⟩ := List.forall_mem_cons.mp nonempty
      rw [firstRoom, ends_add_bind_iff, forall_first_iff]
      refine and_congr_right fun _ => ?_
      by_cases fits : head.start + needed ≤ head.stop
      · have long : ¬ head.length < needed := by
          unfold Interval.length
          omega
        rw [if_pos fits]
        exact ⟨fun _ short => absurd short long, fun _ => ends_pure _⟩
      · have short : head.length < needed := by
          unfold Interval.length
          omega
        rw [if_neg fits, ih nonemptyRest]
        exact ⟨fun all _ => all, fun all => all short⟩

theorem firstRoom_bind_ends_iff {α : Type} {f : Option Interval → Except Fault α}
    (nonempty : ∀ slot ∈ slots, slot.start < slot.stop) :
    Ends (firstRoom needed slots >>= f) ↔ Ends (firstRoom needed slots) ∧
      Ends (f (slots.find? fun slot => needed ≤ slot.length)) := by
  rw [ends_bind_iff]
  constructor
  · rintro ⟨room, found, ends⟩
    rw [firstRoom_eq_ok nonempty found] at ends
    exact ⟨⟨room, found⟩, ends⟩
  · rintro ⟨⟨room, found⟩, ends⟩
    rw [← firstRoom_eq_ok nonempty found] at ends
    exact ⟨room, found, ends⟩

/-! ## The whole search -/

variable {duration guard maxBlocks : Nat}

theorem periodicOffsets_room (canonical : Canonical free.slots)
    (found : free.periodicOffsets duration spacing guard maxBlocks = .ok offsets) :
    ∀ u ∈ offsets, free.Room (duration + guard) u := by
  unfold periodicOffsets at found
  split_ifs at found with empty none
  · obtain rfl := Except.ok.inj found
    simp
  · obtain ⟨_, _, found⟩ := bind_eq_ok_iff.mp found
    obtain rfl := pure_eq_ok_iff.mp found
    simp
  · obtain ⟨_, sum, found⟩ := bind_eq_ok_iff.mp found
    obtain ⟨_, rfl⟩ := add_eq_ok_iff.mp sum
    obtain ⟨room, first, found⟩ := bind_eq_ok_iff.mp found
    cases room with
    | none =>
        obtain rfl := pure_eq_ok_iff.mp found
        simp
    | some slot =>
        have lookup := firstRoom_eq_ok canonical.nonempty first
        have member := List.mem_of_find?_eq_some lookup.symm
        exact occurrences_room canonical member (Nat.le_refl _)
          (canonical.nonempty slot member) found

theorem forall_candidate_iff (canonical : Canonical free.slots) (several : 0 < count) :
    (∀ n u, n < count → free.Candidate needed spacing n u → free.SumsFit needed spacing u) ↔
      (∀ before slot behind, free.slots = before ++ slot :: behind →
        (∀ earlier ∈ before, earlier.length < needed) → slot.start + needed < 2 ^ 32) ∧
      ∀ slot, (free.slots.find? fun slot => needed ≤ slot.length) = some slot →
        ∀ n u, n < count → free.Follows needed spacing slot.start n u →
          free.SumsFit needed spacing u := by
  constructor
  · refine fun all => ⟨fun before slot behind split short => ?_, fun slot found => ?_⟩
    · exact (all 0 slot.start several ⟨before, slot, behind, split, short, .here _⟩).1
    · obtain ⟨_, before, behind, split, short⟩ := List.find?_eq_some_iff_append.mp found
      intro n u below follows
      refine all n u below ⟨before, slot, behind, split, fun earlier member => ?_, follows⟩
      have := short earlier member
      simpa using this
  · rintro ⟨starts, following⟩ n u below ⟨before, slot, behind, split, short, follows⟩
    by_cases long : needed ≤ slot.length
    · refine following slot ?_ n u below follows
      refine List.find?_eq_some_iff_append.mpr ⟨by simpa using long, before, behind, split, ?_⟩
      intro earlier member
      have := short earlier member
      simpa using this
    · have member : slot ∈ free.slots := by
        rw [split]
        exact List.mem_append_right before List.mem_cons_self
      have noRoom : ¬ free.Room needed slot.start := by
        rw [room_iff canonical member (Nat.le_refl _) (canonical.nonempty slot member)]
        unfold Interval.length at long
        omega
      cases follows with
      | here =>
          exact ⟨starts before slot behind split short, fun room => absurd room noRoom⟩
      | further room => exact absurd room noRoom

/-- The search ends without a fault exactly if it can count at every candidate. -/
theorem periodicOffsets_ends_iff (canonical : Canonical free.slots) (positive : 0 < spacing)
    (sum : duration + guard < 2 ^ 32) :
    Ends (free.periodicOffsets duration spacing guard maxBlocks) ↔
      ∀ n u, n < maxBlocks → free.Candidate (duration + guard) spacing n u →
        free.SumsFit (duration + guard) spacing u := by
  unfold periodicOffsets
  by_cases empty : free.slots = []
  · refine ⟨fun _ n u _ candidate => ?_, fun _ => by simp [empty]⟩
    obtain ⟨before, slot, behind, split, _⟩ := candidate
    rw [empty] at split
    simp at split
  have searches : (free.slots.isEmpty || spacing == 0) = false := by
    simp [empty]
    omega
  rw [if_neg (by simp [searches]), ends_add_bind_iff, and_iff_right sum]
  by_cases none : maxBlocks = 0
  · rw [if_pos none]
    exact ⟨fun _ n u below => by omega, fun _ => ends_pure []⟩
  rw [if_neg none, firstRoom_bind_ends_iff canonical.nonempty,
    forall_candidate_iff canonical (Nat.pos_of_ne_zero none),
    firstRoom_ends_iff canonical.nonempty]
  refine and_congr_right fun _ => ?_
  cases first : free.slots.find? fun slot => duration + guard ≤ slot.length with
  | none => simp
  | some slot =>
      have member := List.mem_of_find?_eq_some first
      simp only [Option.some.injEq, forall_eq']
      exact occurrences_ends_iff canonical member (Nat.le_refl _)
        (canonical.nonempty slot member)

end FreeSlots
end BeaconScheduler
