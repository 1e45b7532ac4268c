import BeaconScheduler.Random.Keystream

/-!
# Random numbers

A generator is seeded with 64 bits, from which its key is expanded, and draws 64-bit
numbers from the keystream. Main statement: a number drawn from a range lies in it.
-/

set_option autoImplicit false

namespace BeaconScheduler.Random

def seedStep (state : UInt64) : UInt64 :=
  state * 6364136223846793005 + 11634580027462260723

def seedWord (state : UInt64) : Word :=
  let x := (((state >>> 18) ^^^ state) >>> 27).toUInt32
  let n := (state >>> 59).toUInt32
  (x >>> n) ||| (x <<< ((32 - n) % 32))

def seedState (seed : UInt64) : Nat → UInt64
  | 0 => seedStep seed
  | n + 1 => seedStep (seedState seed n)

def expandSeed (seed : UInt64) : Key :=
  Vector.ofFn fun i => seedWord (seedState seed i)

structure Generator where
  key : Key
  /-- How many numbers have been drawn. -/
  drawn : Nat

namespace Generator

def ofSeed (seed : Nat) : Generator :=
  ⟨expandSeed (UInt64.ofNat seed), 0⟩

/-- The next 64 bits: two words of the keystream, the low one first. -/
def next (g : Generator) : Nat × Generator :=
  let low := keystreamWord g.key (2 * g.drawn)
  let high := keystreamWord g.key (2 * g.drawn + 1)
  (low.toNat + high.toNat * UInt32.size, { g with drawn := g.drawn + 1 })

/-- A number below `range`: the high half of a 64-bit number times the range. Where the low
half leaves the result open, the high half of a second product settles it. -/
def below (g : Generator) (range : Nat) : Nat × Generator :=
  let (x, g) := g.next
  let high := x * range / UInt64.size
  let low := x * range % UInt64.size
  if UInt64.size - range < low then
    let (y, g) := g.next
    if UInt64.size ≤ low + y * range / UInt64.size then (high + 1, g) else (high, g)
  else
    (high, g)

def between (g : Generator) (start stop : Nat) : Nat × Generator :=
  let drawn := g.below (stop - start)
  (start + drawn.1, drawn.2)

theorem next_lt (g : Generator) : g.next.1 < UInt64.size := by
  have low := (keystreamWord g.key (2 * g.drawn)).toNat_lt
  have high := (keystreamWord g.key (2 * g.drawn + 1)).toNat_lt
  simp only [next, UInt32.size, UInt64.size]
  omega

/-- A carry is only possible below the last number of the range. -/
theorem high_lt_of_carry {x range : Nat} (bits : x < UInt64.size) (fits : range ≤ UInt64.size)
    (carry : UInt64.size - range < x * range % UInt64.size) :
    x * range / UInt64.size + 1 < range := by
  have product : x * range ≤ (UInt64.size - 1) * range := Nat.mul_le_mul_right _ (by omega)
  have split := Nat.div_add_mod (x * range) UInt64.size
  generalize x * range / UInt64.size = high at *
  generalize x * range % UInt64.size = low at *
  unfold UInt64.size at *
  omega

theorem high_lt {x range : Nat} (bits : x < UInt64.size) (positive : 0 < range) :
    x * range / UInt64.size < range := by
  have product : x * range ≤ (UInt64.size - 1) * range := Nat.mul_le_mul_right _ (by omega)
  unfold UInt64.size at *
  omega

theorem below_lt {g : Generator} {range : Nat} (positive : 0 < range)
    (fits : range ≤ UInt64.size) : (g.below range).1 < range := by
  have bits := next_lt g
  have high := high_lt bits positive
  have carry := @high_lt_of_carry _ range bits fits
  unfold below
  generalize g.next = drawn at *
  obtain ⟨x, g⟩ := drawn
  dsimp only at *
  split
  · rename_i h
    generalize g.next = drawn
    obtain ⟨y, g⟩ := drawn
    dsimp only
    split
    · exact carry h
    · exact high
  · exact high

theorem between_mem {g : Generator} {start stop : Nat} (nonempty : start < stop)
    (fits : stop ≤ UInt64.size) :
    start ≤ (g.between start stop).1 ∧ (g.between start stop).1 < stop := by
  have width : stop - start ≤ UInt64.size := Nat.le_trans (Nat.sub_le stop start) fits
  have bound := @below_lt g _ (Nat.sub_pos_of_lt nonempty) width
  simp only [between]
  omega

end Generator
end BeaconScheduler.Random
