/-!
# The screen

A screen of 64 by 32 pixels, packed eight to a byte, eight bytes to a row. The upper bit of a byte
is the leftmost of its pixels. A screen can be looked at by byte, by row, by pixel and as text.
-/

namespace Chip8

structure Screen where
  bytes : Vector UInt8 256
deriving DecidableEq

namespace Screen

def width : Nat := 64

def height : Nat := 32

def rowBytes : Nat := width / 8

def byteCount : Nat := rowBytes * height

def blank : Screen where
  bytes := .replicate 256 0

inductive OffScreen where
  | row (y : Nat)
  | pixel (x y : Nat)
deriving DecidableEq, Repr

def OffScreen.message : OffScreen → String
  | .row y => s!"row {y} is off the screen"
  | .pixel x y => s!"pixel ({x}, {y}) is off the screen"

/-- Whether bit `7 - b` of a byte is set, that is, the bit `b` places from the left. -/
def bit (bits : UInt8) (b : Nat) : Bool :=
  bits.toNat.testBit (7 - b)

def bitCount (bits : UInt8) : Nat :=
  (List.range 8).countP (bit bits)

def byte (s : Screen) (c : Fin 8) (y : Fin 32) : UInt8 :=
  s.bytes[8 * y.val + c.val]

def pixel (s : Screen) (x : Fin 64) (y : Fin 32) : Bool :=
  bit (s.byte ⟨x.val / 8, by omega⟩ y) (x.val % 8)

def row (s : Screen) (y : Fin 32) : List UInt8 :=
  (List.finRange 8).map fun c => s.byte c y

/-- `pixel`, for any two numbers. -/
def pixelAt (s : Screen) (x y : Nat) : Except OffScreen Bool :=
  if h : x < 64 ∧ y < 32 then .ok (s.pixel ⟨x, h.1⟩ ⟨y, h.2⟩) else .error (.pixel x y)

def rowAt (s : Screen) (y : Nat) : Except OffScreen (List UInt8) :=
  if h : y < 32 then .ok (s.row ⟨y, h⟩) else .error (.row y)

def isBlank (s : Screen) : Bool :=
  s.bytes.all (· == 0)

def litCount (s : Screen) : Nat :=
  s.bytes.toList.foldr (fun bits count => bitCount bits + count) 0

/-- The characters of a row, `#` for a lit pixel and `.` for a dark one, and a line end. -/
def line (s : Screen) (y : Fin 32) : List Char :=
  (List.finRange 64).map (fun x => if s.pixel x y then '#' else '.') ++ ['\n']

def text (s : Screen) : String :=
  String.ofList ((List.finRange 32).flatMap s.line)

def summary (s : Screen) : String :=
  s!"Framebuffer ({s.litCount} lit)\n" ++ s.text

end Screen

end Chip8
