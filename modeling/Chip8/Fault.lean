import Chip8.CallStack
import Chip8.Text.Numeral

/-!
# Faults

What stops the machine: a word that is no instruction, a call stack that is full or empty when it
must not be, and a jump to an odd address, where no instruction can lie.
-/

namespace Chip8

inductive Fault where
  | illegalOpcode (word address : UInt16)
  | stackOverflow (address : UInt16)
  | stackUnderflow (address : UInt16)
  | misalignedJump (target address : UInt16)
deriving DecidableEq, Repr

namespace Fault

def place (a : UInt16) : String :=
  Numeral.marked 3 a.toNat

def message : Fault → String
  | .illegalOpcode word address =>
    "illegal opcode " ++ Numeral.marked 4 word.toNat ++ " at " ++ place address
  | .stackOverflow address =>
    "stack overflow: call at " ++ place address ++
      s!" with {CallStack.capacity} return addresses already stored"
  | .stackUnderflow address =>
    "stack underflow: return at " ++ place address ++ " with an empty call stack"
  | .misalignedJump target address =>
    "jump to odd address " ++ place target ++ " at " ++ place address

end Fault

end Chip8
