namespace Chip8

structure Timers where
  delay : UInt8 := 0
  sound : UInt8 := 0
deriving DecidableEq, Repr

namespace Timers

def countDown (t : UInt8) : UInt8 :=
  if t = 0 then 0 else t - 1

def tick (t : Timers) : Timers where
  delay := countDown t.delay
  sound := countDown t.sound

def soundOn (t : Timers) : Bool :=
  t.sound > 0

def rate : Nat := 60

end Timers

end Chip8
