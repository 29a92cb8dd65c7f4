import Chip8.Instruction.Encoding
import Chip8.Machine.Execute

/-!
# Cycles

A cycle takes the word at the program counter, decodes it and carries it out. A machine that waits
for a key does nothing in a cycle, and a cycle that meets a fault leaves the machine as it was.
-/

namespace Chip8

inductive Outcome where
  | executed (i : Instruction)
  | waiting
  | fault (f : Fault)
deriving DecidableEq, Repr

namespace Machine

def fetch (m : Machine) : UInt16 :=
  m.memory.word m.pc

def cycle (m : Machine) : Outcome × Machine :=
  match m.waiting with
  | some _ => (.waiting, m)
  | none =>
    match Instruction.decode? m.fetch with
    | none => (.fault (.illegalOpcode m.fetch m.pc), m)
    | some i =>
      match m.execute i with
      | .ok next => (.executed i, next)
      | .error f => (.fault f, m)

end Machine

end Chip8
