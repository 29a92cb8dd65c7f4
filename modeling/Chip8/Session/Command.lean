import Chip8.Session.Basic

namespace Chip8

inductive Command where
  | start
  | stop
  | step
  | frame
  | tick
  | key (key : UInt8) (pressed : Bool)
  | reset (bytes : Array UInt8)
  | load (rom : Rom)
  | hangUp
deriving DecidableEq

inductive Answer where
  | done
  | stepped (outcome : Outcome)
  | ran (executed : Nat)
  | faulted (f : Fault)
  | refused (e : Rom.TooLarge)
deriving DecidableEq, Repr

namespace Session

def obey (s : Session) : Command → Answer × Session
  | .start => (.done, s.start)
  | .stop => (.done, s.stop)
  | .step =>
    let (outcome, next) := s.step
    (.stepped outcome, next)
  | .frame =>
    match s.frame with
    | (.ok executed, next) => (.ran executed, next)
    | (.error f, next) => (.faulted f, next)
  | .tick => (.done, s.tick)
  | .key key pressed => (.done, s.setKey key pressed)
  | .reset bytes =>
    match s.reset bytes with
    | .ok next => (.done, next)
    | .error e => (.refused e, s)
  | .load rom => (.done, s.load rom)
  | .hangUp => (.done, s.hangUp)

def run (s : Session) : List Command → List Answer × Session
  | [] => ([], s)
  | command :: rest =>
    let (answer, next) := s.obey command
    let (answers, last) := next.run rest
    (answer :: answers, last)

end Session

end Chip8
