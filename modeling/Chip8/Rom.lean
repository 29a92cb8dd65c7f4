import Chip8.Layout

namespace Chip8

/-- The bytes of a program that fits between the program origin and the end of memory. -/
structure Rom where
  bytes : Array UInt8
  size_le : bytes.size ≤ Layout.programSpace := by decide
deriving DecidableEq

namespace Rom

structure TooLarge where
  size : Nat
  max : Nat
deriving DecidableEq, Repr

def TooLarge.message (e : TooLarge) : String :=
  s!"rom is too large ({e.size} bytes), max size is {e.max} bytes"

def empty : Rom where
  bytes := #[]

def ofBytes (bytes : Array UInt8) : Except TooLarge Rom :=
  if h : bytes.size ≤ Layout.programSpace then .ok ⟨bytes, h⟩
  else .error { size := bytes.size, max := Layout.programSpace }

def size (rom : Rom) : Nat := rom.bytes.size

def isEmpty (rom : Rom) : Bool := rom.bytes.isEmpty

end Rom

end Chip8
