/-!
# The call stack

Sixteen slots for return addresses and the number of slots in use. An address that was taken off
stays in its slot until another one is stored there.
-/

namespace Chip8

structure CallStack where
  /-- All slots, the oldest address first. -/
  slots : Vector UInt16 16
  depth : Nat
deriving DecidableEq, Repr

namespace CallStack

def capacity : Nat := 16

def empty : CallStack where
  slots := .replicate 16 0
  depth := 0

def push? (s : CallStack) (a : UInt16) : Option CallStack :=
  if h : s.depth < 16 then some { slots := s.slots.set s.depth a, depth := s.depth + 1 } else none

def pop? (s : CallStack) : Option (UInt16 × CallStack) :=
  match s.depth with
  | 0 => none
  | d + 1 => some (s.slots[d]?.getD 0, { s with depth := d })

def toList (s : CallStack) : List UInt16 :=
  s.slots.toList.take s.depth

end CallStack

end Chip8
