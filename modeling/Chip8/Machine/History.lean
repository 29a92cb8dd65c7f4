import Chip8.Machine.Cycle

namespace Chip8

inductive Input where
  | cycle
  | tick
  | key (key : UInt8) (pressed : Bool)
  | reset (rom : Rom)
deriving DecidableEq

namespace Machine

def feed (m : Machine) : Input → Option Outcome × Machine
  | .cycle =>
    let (outcome, next) := m.cycle
    (some outcome, next)
  | .tick => (none, m.tick)
  | .key key pressed => (none, m.setKey key pressed)
  | .reset rom => (none, m.reset rom)

/-- What came of the cycles among a row of inputs, and the machine after all of them. -/
def run (m : Machine) : List Input → List Outcome × Machine
  | [] => ([], m)
  | input :: rest =>
    let (outcome, next) := m.feed input
    let (outcomes, last) := next.run rest
    (outcome.toList ++ outcomes, last)

def Reachable (m : Machine) : Prop :=
  ∃ rom settings inputs, ((boot rom settings).run inputs).2 = m

end Machine

end Chip8
