import Chip8.Instruction.Basic

/-!
# The instruction set

The instruction set as a table. A format fixes some bits of a word, and the rest of the word are
the operands of its instruction.
-/

namespace Chip8

structure Format where
  mask : UInt16
  fixed : UInt16
  instruction : UInt16 → Instruction

namespace Format

def fits (f : Format) (w : UInt16) : Bool :=
  w &&& f.mask = f.fixed

def x (w : UInt16) : UInt8 := UInt8.ofNat (w.toNat / 256 % 16)

def y (w : UInt16) : UInt8 := UInt8.ofNat (w.toNat / 16 % 16)

def n (w : UInt16) : UInt8 := UInt8.ofNat (w.toNat % 16)

def kk (w : UInt16) : UInt8 := UInt8.ofNat (w.toNat % 256)

def nnn (w : UInt16) : UInt16 := UInt16.ofNat (w.toNat % 4096)

def table : List Format := [
  ⟨0xFFFF, 0x00E0, fun _ => .clear⟩,
  ⟨0xFFFF, 0x00EE, fun _ => .ret⟩,
  ⟨0xF000, 0x1000, fun w => .jump (nnn w)⟩,
  ⟨0xF000, 0x2000, fun w => .call (nnn w)⟩,
  ⟨0xF000, 0x3000, fun w => .skip (.equalsByte (x w) (kk w))⟩,
  ⟨0xF000, 0x4000, fun w => .skip (.differsFromByte (x w) (kk w))⟩,
  ⟨0xF00F, 0x5000, fun w => .skip (.equals (x w) (y w))⟩,
  ⟨0xF000, 0x6000, fun w => .load (x w) (kk w)⟩,
  ⟨0xF000, 0x7000, fun w => .add (x w) (kk w)⟩,
  ⟨0xF00F, 0x8000, fun w => .combine .copy (x w) (y w)⟩,
  ⟨0xF00F, 0x8001, fun w => .combine .or (x w) (y w)⟩,
  ⟨0xF00F, 0x8002, fun w => .combine .and (x w) (y w)⟩,
  ⟨0xF00F, 0x8003, fun w => .combine .xor (x w) (y w)⟩,
  ⟨0xF00F, 0x8004, fun w => .combine .add (x w) (y w)⟩,
  ⟨0xF00F, 0x8005, fun w => .combine .sub (x w) (y w)⟩,
  ⟨0xF00F, 0x8006, fun w => .combine .shiftRight (x w) (y w)⟩,
  ⟨0xF00F, 0x8007, fun w => .combine .subFrom (x w) (y w)⟩,
  ⟨0xF00F, 0x800E, fun w => .combine .shiftLeft (x w) (y w)⟩,
  ⟨0xF00F, 0x9000, fun w => .skip (.differs (x w) (y w))⟩,
  ⟨0xF000, 0xA000, fun w => .setIndex (nnn w)⟩,
  ⟨0xF000, 0xB000, fun w => .jumpOffset (x w) (nnn w)⟩,
  ⟨0xF000, 0xC000, fun w => .random (x w) (kk w)⟩,
  ⟨0xF000, 0xD000, fun w => .draw (x w) (y w) (n w)⟩,
  ⟨0xF0FF, 0xE09E, fun w => .skip (.pressed (x w))⟩,
  ⟨0xF0FF, 0xE0A1, fun w => .skip (.released (x w))⟩,
  ⟨0xF0FF, 0xF007, fun w => .readDelay (x w)⟩,
  ⟨0xF0FF, 0xF00A, fun w => .awaitKey (x w)⟩,
  ⟨0xF0FF, 0xF015, fun w => .setDelay (x w)⟩,
  ⟨0xF0FF, 0xF018, fun w => .setSound (x w)⟩,
  ⟨0xF0FF, 0xF01E, fun w => .addIndex (x w)⟩,
  ⟨0xF0FF, 0xF029, fun w => .pointGlyph (x w)⟩,
  ⟨0xF0FF, 0xF033, fun w => .storeDecimal (x w)⟩,
  ⟨0xF0FF, 0xF055, fun w => .storeRegisters (x w)⟩,
  ⟨0xF0FF, 0xF065, fun w => .loadRegisters (x w)⟩]

end Format

end Chip8
