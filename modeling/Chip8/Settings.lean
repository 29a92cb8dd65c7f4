import Chip8.Random

namespace Chip8

structure Dialect where
  /-- `8xy6` and `8xyE` shift register `y` into register `x`, not register `x` itself. -/
  shiftReadsY : Bool := false
  /-- `Fx55` and `Fx65` leave the index register just past the last byte, not where it was. -/
  blockMovesIndex : Bool := false
  /-- `Bnnn` adds register `x`, the top digit of `nnn`, not register 0. -/
  offsetReadsX : Bool := false
  /-- `8xy1`, `8xy2` and `8xy3` clear the flag register and do not leave it alone. -/
  logicClearsFlag : Bool := false
deriving DecidableEq, Repr

structure Settings where
  rate : Nat := 5
  /-- The seed of the random bytes, used again at every reset. -/
  seed : UInt64 := 2
  /-- The random bytes that a seed stands for, by their place. -/
  stream : UInt64 → Nat → UInt8 := Random.byteAt
  dialect : Dialect := {}

end Chip8
