import Chip8.Screen.Basic

/-!
# Drawing

A sprite is a list of rows of eight pixels, drawn by switching each pixel under a set bit. What
leaves the screen on the right comes in on the left of the same row, and what leaves it at the
bottom comes in at the top.
-/

namespace Chip8.Screen

/-- The place among the bytes of the screen of column `c` of row `y`; both wrap around. -/
def place (c y : Nat) : Fin 256 :=
  ⟨8 * (y % 32) + c % 8, by omega⟩

def spread (bits x : UInt8) : UInt16 :=
  bits.toUInt16 <<< (8 - x % 8).toUInt16

def drawRow (s : Screen) (bits x : UInt8) (y : Nat) : Screen × Bool :=
  let column := x.toNat / 8
  let left := place column y
  let right := place (column + 1) y
  let leftBits := (spread bits x >>> 8).toUInt8
  let rightBits := (spread bits x).toUInt8
  let leftByte := s.bytes[left.val]
  let rightByte := s.bytes[right.val]
  ({ bytes :=
      (s.bytes.set left.val (leftByte ^^^ leftBits)).set right.val (rightByte ^^^ rightBits) },
    leftByte &&& leftBits != 0 || rightByte &&& rightBits != 0)

/-- Draws the rows of a sprite, the first at column `x` of row `y`, and tells whether a lit pixel
went dark on the way. -/
def draw (s : Screen) (sprite : List UInt8) (x : UInt8) (y : Nat) : Screen × Bool :=
  match sprite with
  | [] => (s, false)
  | bits :: rest =>
    let first := s.drawRow bits x y
    let others := first.1.draw rest x (y + 1)
    (others.1, first.2 || others.2)

end Chip8.Screen
