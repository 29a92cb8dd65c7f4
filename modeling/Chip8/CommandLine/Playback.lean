import Chip8.KeyScript
import Chip8.Session.Basic

namespace Chip8

namespace Session

def setKeys (s : Session) (keys : List UInt8) (pressed : Bool) : Session :=
  keys.foldl (fun s key => s.setKey key pressed) s

/-- One frame, with the keys of the script held that belong to it. After a fault the keys are not
let go. -/
def scriptedFrame (s : Session) (script : KeyScript) (frame : Nat) : Except Fault Nat × Session :=
  let keys := script.keysAt frame
  match (s.setKeys keys true).frame with
  | (.ok executed, next) => (.ok executed, next.setKeys keys false)
  | (.error f, next) => (.error f, next)

end Session

inductive Ending where
  | finished (s : Session)
  | stopped (frame : Nat) (f : Fault) (s : Session)

def Ending.session : Ending → Session
  | .finished s => s
  | .stopped _ _ s => s

/-- Runs `n` frames, the first of which has the given number. -/
def Session.play (s : Session) (script : KeyScript) (frame : Nat) : Nat → Ending
  | 0 => .finished s
  | n + 1 =>
    match s.scriptedFrame script frame with
    | (.ok _, next) => next.play script (frame + 1) n
    | (.error f, next) => .stopped frame f next

end Chip8
