import BeaconScheduler.Proofs.Search

/-!
# The search as a loop over the positions of slots

`periodicOffsets` takes the list of slots apart.  Where the slots are an array, the search is a
loop over the position of a slot and an offset in it: it moves on from slot to slot until a
block has room, and from there on from offset to offset.  A loop may run past the end of the
array, and it may not end.  `walk` is that loop with both made visible, and `walk_eq` says
that in a canonical list neither happens: after one turn for each slot and each block at most
it has the result of `periodicOffsets`, or its fault.
-/

set_option autoImplicit false

namespace BeaconScheduler.FreeSlots

open BeaconScheduler.Interval Counter

/-! ## The loop -/

/-- The loop looks at `offset`, in the slot at position `index`. -/
structure Cursor where
  index : Nat
  offset : Nat
  found : List Nat

inductive Turn where
  | on (cursor : Cursor)
  | finished (offsets : List Nat)
  | outside

/-- One turn.  Before the first block a slot without room is passed over; after it the search
ends with the first offset that has none. -/
def turn (free : FreeSlots) (needed spacing : Nat) (cursor : Cursor) : Except Fault Turn :=
  match free.slots[cursor.index]? with
  | none => .ok .outside
  | some slot => do
      let stop ← add32 cursor.offset needed
      if stop ≤ slot.stop then
        let next ← add32 cursor.offset spacing
        let found := cursor.found ++ [cursor.offset]
        if next < slot.stop then
          return .on ⟨cursor.index, next, found⟩
        match free.slotIndex? next with
        | some index => return .on ⟨index, next, found⟩
        | none => return .finished found
      else if cursor.found.isEmpty then
        match free.slots[cursor.index + 1]? with
        | some next => return .on ⟨cursor.index + 1, next.start, []⟩
        | none => return .finished []
      else
        return .finished cursor.found

/-- At most `bound` turns, until `limit` offsets are found; `none` if the loop has left the list
or is not over. -/
def turns (free : FreeSlots) (needed spacing limit : Nat) :
    Nat → Cursor → Except Fault (Option (List Nat))
  | 0, cursor => .ok (if limit ≤ cursor.found.length then some cursor.found else none)
  | bound + 1, cursor =>
      if limit ≤ cursor.found.length then
        .ok (some cursor.found)
      else do
        match ← free.turn needed spacing cursor with
        | .on next => turns free needed spacing limit bound next
        | .finished offsets => return some offsets
        | .outside => return none

def walk (free : FreeSlots) (duration spacing guard maxBlocks bound : Nat) :
    Except Fault (Option (List Nat)) :=
  match free.slots.head? with
  | none => .ok (some [])
  | some first =>
      if spacing = 0 then
        .ok (some [])
      else do
        let needed ← add32 duration guard
        free.turns needed spacing maxBlocks bound ⟨0, first.start, []⟩

/-! ## One turn -/

variable {free : FreeSlots} {slot other : Interval} {found : List Nat}
  {needed spacing index limit count bound t : Nat}

theorem slotIndex?_of_slotAt? (lookup : free.slotAt? t = some slot) :
    ∃ index, free.slotIndex? t = some index ∧ free.slots[index]? = some slot := by
  have first : (free.slots.find? fun slot => t < slot.stop) = some slot :=
    (Option.filter_eq_some_iff.mp lookup).1
  obtain ⟨late, index, inside, here, early⟩ := List.find?_eq_some_iff_getElem.mp first
  refine ⟨index, ?_, ?_⟩
  · rw [slotIndex?, lookup, Option.bind_some, List.findIdx?_eq_some_iff_getElem]
    refine ⟨inside, by rw [here]; exact late, fun earlier before => ?_⟩
    simpa using early earlier before
  · rw [List.getElem?_eq_getElem inside, here]

theorem slotIndex?_eq_none (lookup : free.slotAt? t = none) : free.slotIndex? t = none := by
  rw [slotIndex?, lookup, Option.bind_none]

theorem turn_finds (found : List Nat) (canonical : Canonical free.slots)
    (here : free.slots[index]? = some slot) (first : slot.start ≤ t) (sum : t + needed < 2 ^ 32)
    (room : t + needed ≤ slot.stop) (next : t + spacing < 2 ^ 32)
    (lookup : free.slotAt? (t + spacing) = some other) :
    ∃ position, free.slots[position]? = some other ∧
      free.turn needed spacing ⟨index, t, found⟩ =
        .ok (.on ⟨position, t + spacing, found ++ [t]⟩) := by
  by_cases same : t + spacing < slot.stop
  · have inSlot : free.slotAt? (t + spacing) = some slot :=
      (slotAt?_eq_some_iff canonical).mpr ⟨List.mem_of_getElem? here, by omega, same⟩
    obtain rfl := Option.some.inj (inSlot.symm.trans lookup)
    refine ⟨index, here, ?_⟩
    simp only [turn, here, add32_of_lt sum, add32_of_lt next, ok_bind, if_pos room, if_pos same]
    rfl
  · obtain ⟨position, found, there⟩ := slotIndex?_of_slotAt? lookup
    refine ⟨position, there, ?_⟩
    simp only [turn, here, add32_of_lt sum, add32_of_lt next, ok_bind, if_pos room, if_neg same,
      found]
    rfl

theorem turn_finds_last (canonical : Canonical free.slots) (here : free.slots[index]? = some slot)
    (first : slot.start ≤ t) (sum : t + needed < 2 ^ 32) (room : t + needed ≤ slot.stop)
    (next : t + spacing < 2 ^ 32) (lookup : free.slotAt? (t + spacing) = none) :
    free.turn needed spacing ⟨index, t, found⟩ = .ok (.finished (found ++ [t])) := by
  have left : ¬ t + spacing < slot.stop := fun same =>
    (slotAt?_eq_none_iff canonical).mp lookup
      ⟨slot, List.mem_of_getElem? here, by omega, same⟩
  simp only [turn, here, add32_of_lt sum, add32_of_lt next, ok_bind, if_pos room, if_neg left,
    slotIndex?_eq_none lookup]
  rfl

theorem turn_ends (here : free.slots[index]? = some slot) (sum : t + needed < 2 ^ 32)
    (short : slot.stop < t + needed) (placed : found ≠ []) :
    free.turn needed spacing ⟨index, t, found⟩ = .ok (.finished found) := by
  simp [turn, here, add32_of_lt sum, Nat.not_le_of_lt short, placed]
  rfl

theorem turn_passes {next : Interval} (here : free.slots[index]? = some slot)
    (sum : t + needed < 2 ^ 32) (short : slot.stop < t + needed)
    (behind : free.slots[index + 1]? = some next) :
    free.turn needed spacing ⟨index, t, []⟩ = .ok (.on ⟨index + 1, next.start, []⟩) := by
  simp only [turn, here, add32_of_lt sum, ok_bind, if_neg (Nat.not_le_of_lt short), behind]
  rfl

theorem turn_gives_up (here : free.slots[index]? = some slot) (sum : t + needed < 2 ^ 32)
    (short : slot.stop < t + needed) (behind : free.slots[index + 1]? = none) :
    free.turn needed spacing ⟨index, t, []⟩ = .ok (.finished []) := by
  simp only [turn, here, add32_of_lt sum, ok_bind, if_neg (Nat.not_le_of_lt short), behind]
  rfl

/-! ## All turns -/

theorem turns_full (full : limit ≤ found.length) :
    free.turns needed spacing limit bound ⟨index, t, found⟩ = .ok (some found) := by
  cases bound with
  | zero => rw [turns, if_pos full]
  | succ bound => rw [turns, if_pos full]

theorem turns_succ (several : found.length < limit) :
    free.turns needed spacing limit (bound + 1) ⟨index, t, found⟩ = (do
      match ← free.turn needed spacing ⟨index, t, found⟩ with
      | .on next => free.turns needed spacing limit bound next
      | .finished offsets => return some offsets
      | .outside => return none) := by
  rw [turns, if_neg (Nat.not_le_of_lt several)]

/-- From a block with room on, or after the first block, the loop goes through the offsets
that `occurrences` goes through. -/
theorem turns_from (canonical : Canonical free.slots) (here : free.slots[index]? = some slot)
    (first : slot.start ≤ t) (placed : found ≠ [] ∨ t + needed ≤ slot.stop)
    (left : found.length + count = limit) (enough : count ≤ bound) :
    free.turns needed spacing limit bound ⟨index, t, found⟩ = (do
      return some (found ++ (← free.occurrences needed spacing count slot t))) := by
  -- The sums are formed in the same order, so the faults agree too.
  induction count generalizing index slot t found bound with
  | zero =>
      rw [turns_full (by omega), occurrences, ok_bind, List.append_nil]
      rfl
  | succ count ih =>
      obtain ⟨bound, rfl⟩ : ∃ fewer, bound = fewer + 1 := ⟨bound - 1, by omega⟩
      have member := List.mem_of_getElem? here
      rw [turns_succ (by omega), occurrences_succ canonical member first]
      by_cases large : 2 ^ 32 ≤ t + needed
      · simp only [turn, here, add32_of_le large, error_bind]
      have sum : t + needed < 2 ^ 32 := Nat.lt_of_not_le large
      rw [add32_of_lt sum, ok_bind]
      by_cases short : slot.stop < t + needed
      · rw [turn_ends here sum short (placed.resolve_right (Nat.not_le_of_lt short)),
          if_pos short]
        simp
      have room : t + needed ≤ slot.stop := Nat.le_of_not_lt short
      rw [if_neg short]
      by_cases far : 2 ^ 32 ≤ t + spacing
      · simp only [turn, here, add32_of_lt sum, add32_of_le far, ok_bind, error_bind, if_pos room]
      have next : t + spacing < 2 ^ 32 := Nat.lt_of_not_le far
      rw [add32_of_lt next, ok_bind]
      cases lookup : free.slotAt? (t + spacing) with
      | none =>
          rw [turn_finds_last canonical here first sum room next lookup]
          rfl
      | some other =>
          obtain ⟨position, there, turned⟩ :=
            turn_finds found canonical here first sum room next lookup
          have later := ((slotAt?_eq_some_iff canonical).mp lookup).2.1
          have leftOver : (found ++ [t]).length + count = limit := by
            rw [List.length_append, List.length_singleton]
            omega
          have rest := ih there later (.inl (by simp)) leftOver (Nat.le_of_succ_le_succ enough)
          rw [turned, ok_bind]
          dsimp only
          rw [rest]
          simp

theorem turns_search_succ (canonical : Canonical free.slots)
    (here : free.slots[index]? = some slot) (several : 0 < limit) (enough : limit ≤ bound + 1) :
    free.turns needed spacing limit (bound + 1) ⟨index, slot.start, []⟩ = (do
      let stop ← add32 slot.start needed
      if stop ≤ slot.stop then
        return some (← free.occurrences needed spacing limit slot slot.start)
      match free.slots[index + 1]? with
      | some next => free.turns needed spacing limit bound ⟨index + 1, next.start, []⟩
      | none => return some []) := by
  by_cases large : 2 ^ 32 ≤ slot.start + needed
  · rw [turns_succ several]
    simp only [turn, here, add32_of_le large, error_bind]
  have sum : slot.start + needed < 2 ^ 32 := Nat.lt_of_not_le large
  rw [add32_of_lt sum, ok_bind]
  by_cases room : slot.start + needed ≤ slot.stop
  · rw [if_pos room, turns_from canonical here (Nat.le_refl _) (.inr room) (Nat.zero_add _)
      enough]
    rfl
  · rw [if_neg room, turns_succ several]
    cases behind : free.slots[index + 1]? with
    | none =>
        rw [turn_gives_up here sum (Nat.lt_of_not_le room) behind]
        rfl
    | some next =>
        rw [turn_passes here sum (Nat.lt_of_not_le room) behind]
        rfl

theorem turns_search {before behind : List Interval} (canonical : Canonical free.slots)
    (split : free.slots = before ++ slot :: behind) (several : 0 < limit)
    (enough : behind.length + limit ≤ bound) :
    free.turns needed spacing limit bound ⟨before.length, slot.start, []⟩ = (do
      match ← firstRoom needed (slot :: behind) with
      | some slot => return some (← free.occurrences needed spacing limit slot slot.start)
      | none => return some []) := by
  induction behind generalizing before slot bound with
  | nil =>
      obtain ⟨bound, rfl⟩ : ∃ fewer, bound = fewer + 1 := ⟨bound - 1, by omega⟩
      have here : free.slots[before.length]? = some slot := by simp [split]
      have last : free.slots[before.length + 1]? = none := by simp [split]
      rw [turns_search_succ canonical here several (by simpa using enough), last, firstRoom,
        bind_assoc]
      refine bind_congr fun stop => ?_
      split_ifs
      · rfl
      · rfl
  | cons next others ih =>
      obtain ⟨bound, rfl⟩ : ∃ fewer, bound = fewer + 1 := ⟨bound - 1, by omega⟩
      have here : free.slots[before.length]? = some slot := by simp [split]
      have behind : free.slots[before.length + 1]? = some next := by simp [split]
      have further : free.slots = (before ++ [slot]) ++ next :: others := by simp [split]
      have fewer : others.length + limit ≤ bound := by
        rw [List.length_cons] at enough
        omega
      have rest := ih further fewer
      rw [List.length_append, List.length_singleton] at rest
      rw [turns_search_succ canonical here several (by omega), behind, firstRoom, bind_assoc]
      refine bind_congr fun stop => ?_
      split_ifs
      · rfl
      · exact rest

/-- With a turn for each slot and each block the loop ends inside the list, with what the
search in the list ends with. -/
theorem walk_eq {duration guard maxBlocks : Nat} (canonical : Canonical free.slots)
    (enough : free.slots.length + maxBlocks ≤ bound) :
    free.walk duration spacing guard maxBlocks bound = (do
      return some (← free.periodicOffsets duration spacing guard maxBlocks)) := by
  unfold walk periodicOffsets
  cases slots : free.slots with
  | nil => rfl
  | cons first behind =>
      by_cases together : spacing = 0
      · simp [together]
      have searches : (spacing == 0) = false := by simpa using together
      rw [List.head?_cons]
      dsimp only
      rw [if_neg together, List.isEmpty_cons, Bool.false_or, searches, if_neg Bool.false_ne_true,
        bind_assoc]
      refine bind_congr fun needed => ?_
      by_cases none : maxBlocks = 0
      · rw [if_pos none, turns_full (by simp [none])]
        rfl
      · rw [slots, List.length_cons] at enough
        rw [if_neg none]
        have split : free.slots = [] ++ first :: behind := slots
        have fewer : behind.length + maxBlocks ≤ bound := by omega
        have search : free.turns needed spacing maxBlocks bound ⟨0, first.start, []⟩ = _ :=
          turns_search canonical split (Nat.pos_of_ne_zero none) fewer
        rw [search, bind_assoc]
        refine bind_congr fun room => ?_
        cases room with
        | none => rfl
        | some slot => rfl

end BeaconScheduler.FreeSlots
