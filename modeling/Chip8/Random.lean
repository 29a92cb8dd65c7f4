/-!
# Random bytes

The bytes that a seed determines, in an unending row: the low bytes of the words of a ChaCha stream
of eight rounds, under the key that a congruential generator spreads the seed to. A byte is
computed from its place in the row alone, so a generator is a row and a place in it.
-/

namespace Chip8

namespace Random

abbrev Block := Vector UInt32 16

/-- Rotates a word to the left by `n` bits, for `n` from 1 to 31. -/
def rotateLeft (w n : UInt32) : UInt32 :=
  w <<< n ||| w >>> (32 - n)

/-- Rotates a word to the right by `n` bits, for `n` from 0 to 31. -/
def rotateRight (w n : UInt32) : UInt32 :=
  w >>> n ||| w <<< ((32 - n) % 32)

def advance (s : UInt64) : UInt64 :=
  s * 6364136223846793005 + 11634580027462260723

def permute (s : UInt64) : UInt32 :=
  rotateRight (((s >>> 18) ^^^ s) >>> 27).toUInt32 (s >>> 59).toUInt32

def spread (s : UInt64) : Nat → List UInt32
  | 0 => []
  | n + 1 => permute (advance s) :: spread (advance s) n

/-- The words that block `counter` is computed from: four constants, the key of eight words, the
number of the block and two zeros. -/
def input (seed counter : UInt64) : Block :=
  let key := spread seed 8
  Vector.ofFn fun i =>
    match i.val with
    | 0 => 0x61707865
    | 1 => 0x3320646E
    | 2 => 0x79622D32
    | 3 => 0x6B206574
    | 12 => counter.toUInt32
    | 13 => (counter >>> 32).toUInt32
    | 14 => 0
    | 15 => 0
    | k => key[k - 4]?.getD 0

def quarterRound (s : Block) (a b c d : Fin 16) : Block :=
  let s := s.set a.val (s[a.val] + s[b.val])
  let s := s.set d.val (rotateLeft (s[d.val] ^^^ s[a.val]) 16)
  let s := s.set c.val (s[c.val] + s[d.val])
  let s := s.set b.val (rotateLeft (s[b.val] ^^^ s[c.val]) 12)
  let s := s.set a.val (s[a.val] + s[b.val])
  let s := s.set d.val (rotateLeft (s[d.val] ^^^ s[a.val]) 8)
  let s := s.set c.val (s[c.val] + s[d.val])
  s.set b.val (rotateLeft (s[b.val] ^^^ s[c.val]) 7)

def doubleRound (s : Block) : Block :=
  let s := quarterRound s 0 4 8 12
  let s := quarterRound s 1 5 9 13
  let s := quarterRound s 2 6 10 14
  let s := quarterRound s 3 7 11 15
  let s := quarterRound s 0 5 10 15
  let s := quarterRound s 1 6 11 12
  let s := quarterRound s 2 7 8 13
  quarterRound s 3 4 9 14

/-- Block `counter` of the stream: eight rounds on the input, added to the input. -/
def block (seed counter : UInt64) : Block :=
  let start := input seed counter
  let mixed := doubleRound (doubleRound (doubleRound (doubleRound start)))
  Vector.zipWith (· + ·) start mixed

def byteAt (seed : UInt64) (k : Nat) : UInt8 :=
  have bound : k % 16 < 16 := Nat.mod_lt _ (by decide)
  (block seed (UInt64.ofNat (k / 16)))[k % 16].toUInt8

end Random

/-- A generator that has given out the first bytes of its row. -/
structure Random where
  stream : Nat → UInt8
  taken : Nat := 0

namespace Random

def next (r : Random) : UInt8 :=
  r.stream r.taken

def advanced (r : Random) : Random :=
  { r with taken := r.taken + 1 }

def restarted (r : Random) : Random :=
  { r with taken := 0 }

end Random

end Chip8
