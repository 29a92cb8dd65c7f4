import Chip8.Digit
import Chip8.Layout

namespace Chip8

structure Registers where
  v : PerDigit UInt8
  index : UInt16
deriving DecidableEq, Repr

namespace Registers

def zero : Registers where
  v := .replicate 16 0
  index := 0

def flag : UInt8 := 0xF

def get (r : Registers) (x : UInt8) : UInt8 :=
  r.v.look x

def set (r : Registers) (x value : UInt8) : Registers :=
  { r with v := r.v.put x value }

def setFlag (r : Registers) (b : Bool) : Registers :=
  r.set flag (if b then 1 else 0)

/-- Stores an address, cut to twelve bits, in the index register. -/
def setIndex (r : Registers) (a : UInt16) : Registers :=
  { r with index := Layout.wrap a }

def upTo (r : Registers) (x : UInt8) : List UInt8 :=
  (List.range (x.toNat + 1)).map fun k => r.get (UInt8.ofNat k)

def setFrom (r : Registers) (x : UInt8) : List UInt8 → Registers
  | [] => r
  | value :: rest => (r.set x value).setFrom (x + 1) rest

end Registers

end Chip8
