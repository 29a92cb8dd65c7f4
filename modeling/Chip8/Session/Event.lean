import Chip8.Fault

namespace Chip8

inductive Event where
  /-- A sprite was drawn, and a lit pixel went dark or not. -/
  | draw (collision : Bool)
  | clear
  | sound (on : Bool)
  | keyWait (x : UInt8)
  | fault (f : Fault)
deriving DecidableEq, Repr

end Chip8
