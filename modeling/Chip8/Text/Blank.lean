import Chip8.Text.CharSet

namespace Chip8.Blank

/-- The characters with the property White_Space. -/
def blanks : CharSet where
  ranges := [(0x9, 0xD), (0x20, 0x20), (0x85, 0x85), (0xA0, 0xA0), (0x1680, 0x1680),
    (0x2000, 0x200A), (0x2028, 0x2029), (0x202F, 0x202F), (0x205F, 0x205F), (0x3000, 0x3000)]

def trimLeft (text : List Char) : List Char :=
  text.dropWhile blanks.contains

def trim (text : List Char) : List Char :=
  (trimLeft (trimLeft text).reverse).reverse

end Chip8.Blank
