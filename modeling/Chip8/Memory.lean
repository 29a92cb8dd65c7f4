import Chip8.Rom

/-!
# Memory

4096 bytes, read and written at 16-bit addresses of which the lower twelve bits count.
-/

namespace Chip8

structure Memory where
  bytes : Vector UInt8 4096
deriving DecidableEq

namespace Memory

def cell (a : UInt16) : Fin 4096 :=
  ⟨a.toNat % 4096, Nat.mod_lt _ (by decide)⟩

def get (m : Memory) (a : UInt16) : UInt8 :=
  m.bytes[(cell a).val]

def set (m : Memory) (a : UInt16) (value : UInt8) : Memory :=
  { bytes := m.bytes.set (cell a).val value }

def word (m : Memory) (a : UInt16) : UInt16 :=
  (m.get a).toUInt16 <<< 8 ||| (m.get (a + 1)).toUInt16

def read (m : Memory) (a : UInt16) (n : Nat) : List UInt8 :=
  (List.range n).map fun k => m.get (a + UInt16.ofNat k)

def write (m : Memory) (a : UInt16) : List UInt8 → Memory
  | [] => m
  | value :: rest => (m.set a value).write (a + 1) rest

/-- The byte that power-on leaves at place `p`: the font, the program, and zeros elsewhere. -/
def initial (rom : Rom) (p : Nat) : UInt8 :=
  let glyphs := p - Layout.fontOrigin.toNat
  let offset := p - Layout.programOrigin.toNat
  if p < Layout.programOrigin.toNat then Layout.font[glyphs]?.getD 0
  else rom.bytes[offset]?.getD 0

def ofRom (rom : Rom) : Memory where
  bytes := Vector.ofFn fun p => initial rom p.val

end Memory

end Chip8
