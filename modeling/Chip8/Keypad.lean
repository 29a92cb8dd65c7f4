import Chip8.Digit

namespace Chip8

structure Keypad where
  held : PerDigit Bool
deriving DecidableEq, Repr

namespace Keypad

def size : Nat := 16

def released : Keypad where
  held := .replicate 16 false

/-- Whether the key is held that the last digit of a byte names. -/
def isHeld (k : Keypad) (key : UInt8) : Bool :=
  k.held.look key

def hasKey (key : UInt8) : Bool :=
  key < 16

/-- The keypad after a key went down or up; a number that names no key changes nothing. -/
def set (k : Keypad) (key : UInt8) (pressed : Bool) : Keypad :=
  if hasKey key then { held := k.held.put key pressed } else k

end Keypad

end Chip8
