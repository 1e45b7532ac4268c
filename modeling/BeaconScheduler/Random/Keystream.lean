/-!
# The ChaCha keystream

Words of the ChaCha keystream with twelve rounds, a 64-bit block counter and a zero
nonce. The keystream is a function of key and position, so a generator only has to
remember how far it has read.
-/

set_option autoImplicit false

namespace BeaconScheduler.Random

abbrev Word := UInt32

abbrev Block := Vector Word 16

abbrev Key := Vector Word 8

namespace Block

def rotateLeft (x : Word) (n : Word) : Word :=
  (x <<< n) ||| (x >>> (32 - n))

def quarterRound (v : Block) (a b c d : Fin 16) : Block :=
  let v := v.set a (v[a] + v[b])
  let v := v.set d (rotateLeft (v[d] ^^^ v[a]) 16)
  let v := v.set c (v[c] + v[d])
  let v := v.set b (rotateLeft (v[b] ^^^ v[c]) 12)
  let v := v.set a (v[a] + v[b])
  let v := v.set d (rotateLeft (v[d] ^^^ v[a]) 8)
  let v := v.set c (v[c] + v[d])
  v.set b (rotateLeft (v[b] ^^^ v[c]) 7)

/-- A round on the columns and one on the diagonals. -/
def doubleRound (v : Block) : Block :=
  let v := v.quarterRound 0 4 8 12
  let v := v.quarterRound 1 5 9 13
  let v := v.quarterRound 2 6 10 14
  let v := v.quarterRound 3 7 11 15
  let v := v.quarterRound 0 5 10 15
  let v := v.quarterRound 1 6 11 12
  let v := v.quarterRound 2 7 8 13
  v.quarterRound 3 4 9 14

def doubleRounds : Nat → Block → Block
  | 0, v => v
  | n + 1, v => doubleRounds n v.doubleRound

/-- The block before the first round: four fixed words, the key, the counter and the nonce. -/
def initial (key : Key) (counter : UInt64) : Block :=
  #v[0x61707865, 0x3320646e, 0x79622d32, 0x6b206574,
    key[0], key[1], key[2], key[3], key[4], key[5], key[6], key[7],
    counter.toUInt32, (counter >>> 32).toUInt32, 0, 0]

def keystream (key : Key) (counter : UInt64) : Block :=
  let start := initial key counter
  Vector.zipWith (· + ·) (doubleRounds 6 start) start

end Block

def keystreamWord (key : Key) (n : Nat) : Word :=
  (Block.keystream key (UInt64.ofNat (n / 16))).get ⟨n % 16, Nat.mod_lt n (by decide)⟩

end BeaconScheduler.Random
