namespace Chip8.Layout

def memorySize : Nat := 4096

def addressMask : UInt16 := 0xFFF

/-- An address cut to twelve bits, so that addresses past the end start again at 0. -/
def wrap (a : UInt16) : UInt16 := a &&& addressMask

def fontOrigin : UInt16 := 0x000

def glyphHeight : UInt16 := 5

def programOrigin : UInt16 := 0x200

def programSpace : Nat := memorySize - programOrigin.toNat

/-- The glyphs of the sixteen hexadecimal digits, four pixels wide in the upper half of each
byte. -/
def font : Vector UInt8 80 := #v[
  0xF0, 0x90, 0x90, 0x90, 0xF0,
  0x20, 0x60, 0x20, 0x20, 0x70,
  0xF0, 0x10, 0xF0, 0x80, 0xF0,
  0xF0, 0x10, 0xF0, 0x10, 0xF0,
  0x90, 0x90, 0xF0, 0x10, 0x10,
  0xF0, 0x80, 0xF0, 0x10, 0xF0,
  0xF0, 0x80, 0xF0, 0x90, 0xF0,
  0xF0, 0x10, 0x20, 0x40, 0x40,
  0xF0, 0x90, 0xF0, 0x90, 0xF0,
  0xF0, 0x90, 0xF0, 0x10, 0xF0,
  0xF0, 0x90, 0xF0, 0x90, 0x90,
  0xE0, 0x90, 0xE0, 0x90, 0xE0,
  0xF0, 0x80, 0x80, 0x80, 0xF0,
  0xE0, 0x90, 0x90, 0x90, 0xE0,
  0xF0, 0x80, 0xF0, 0x80, 0xF0,
  0xF0, 0x80, 0xF0, 0x80, 0x80]

end Chip8.Layout
