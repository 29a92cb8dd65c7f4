/-!
# Instructions

The 34 instructions of the machine. Operands keep the names they have in the instruction set:
`x` and `y` are registers, `n` is a count of rows, `kk` is a byte and `nnn` is an address. They are
whole bytes and words here; only the ones that fit their place in a word come out of decoding.
-/

namespace Chip8

/-- What a skip instruction looks at. The next instruction is skipped when it holds. -/
inductive Condition where
  | equalsByte (x kk : UInt8)
  | differsFromByte (x kk : UInt8)
  | equals (x y : UInt8)
  | differs (x y : UInt8)
  | pressed (x : UInt8)
  | released (x : UInt8)
deriving DecidableEq, Repr

/-- The operations between two registers, `8xyn`. The result goes to register `x`. -/
inductive Operation where
  | copy
  | or
  | and
  | xor
  | add
  /-- `8xy5`: register `x` minus register `y`, the flag is set when nothing was borrowed. -/
  | sub
  | shiftRight
  /-- `8xy7`: register `y` minus register `x`, the flag is set when nothing was borrowed. -/
  | subFrom
  | shiftLeft
deriving DecidableEq, Repr

inductive Instruction where
  | clear
  | ret
  | jump (nnn : UInt16)
  | call (nnn : UInt16)
  | skip (condition : Condition)
  | load (x kk : UInt8)
  | add (x kk : UInt8)
  | combine (op : Operation) (x y : UInt8)
  | setIndex (nnn : UInt16)
  /-- `Bnnn`: goes to `nnn` plus register 0, or plus register `x`, the top digit of `nnn`, in some
  dialects. -/
  | jumpOffset (x : UInt8) (nnn : UInt16)
  | random (x kk : UInt8)
  /-- `Dxyn`: draws the `n` bytes at the index register at column `x` and row `y`, both read from
  registers; the flag tells whether a lit pixel went dark. -/
  | draw (x y n : UInt8)
  | readDelay (x : UInt8)
  | awaitKey (x : UInt8)
  | setDelay (x : UInt8)
  | setSound (x : UInt8)
  | addIndex (x : UInt8)
  /-- `Fx29`: points the index register at the glyph of the low digit of register `x`. -/
  | pointGlyph (x : UInt8)
  /-- `Fx33`: writes the three decimal digits of register `x` from the index register on. -/
  | storeDecimal (x : UInt8)
  | storeRegisters (x : UInt8)
  | loadRegisters (x : UInt8)
deriving DecidableEq, Repr

end Chip8
