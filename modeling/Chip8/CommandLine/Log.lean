import Chip8.Session.Record

namespace Chip8

/-- A line of the log of a command line: what the command line has to say of itself, or a record of
its session. -/
inductive Note where
  | read (path : String) (size : Nat)
  | empty (path : String)
  | running (path : String) (size frames : Nat)
  | session (r : Record)
deriving DecidableEq, Repr

namespace Note

def level : Note → Level
  | .read _ _ => .debug
  | .empty _ => .warn
  | .running _ _ _ => .info
  | .session r => r.level

def message : Note → String
  | .read path size => s!"read {size} rom bytes from {path}"
  | .empty path => s!"{path} is empty, the first fetch will fault"
  | .running path size frames => s!"running {path} ({size} bytes) for {frames} frames"
  | .session r => r.message

end Note

/-- How serious a level is; the most serious one comes first. -/
def Level.rank : Level → Nat
  | .error => 0
  | .warn => 1
  | .info => 2
  | .debug => 3
  | .trace => 4

/-- What the log has on the error output for a note, which may be nothing. The time, which a logger
may put in front, is left out. -/
abbrev Logger := Note → String

namespace Logger

def off : Logger := fun _ => ""

/-- The notes that are at least as serious as the level, one to a line. -/
def upTo (threshold : Level) : Logger := fun note =>
  if note.level.rank ≤ threshold.rank then s!"{note.level.name} {note.message}\n" else ""

def write (logger : Logger) (notes : List Note) : String :=
  String.join (notes.map logger)

end Logger

end Chip8
