import Chip8.Machine.Cycle
import Chip8.Session.Host

namespace Chip8

structure Session where
  machine : Machine
  rate : Nat
  running : Bool := false
  fault : Option Fault := none
  host : Host

namespace Machine

def cycleRecords (m : Machine) : List Record :=
  match m.waiting with
  | some _ => []
  | none =>
    match Instruction.decode? m.fetch with
    | none => []
    | some (.awaitKey x) => [.decoded m.pc m.fetch (.awaitKey x), .waiting x]
    | some i => [.decoded m.pc m.fetch i]

def keyRecords (m : Machine) (key : UInt8) (pressed : Bool) : List Record :=
  if Keypad.hasKey key then
    match m.waiting with
    | some x => if m.goesDown key pressed then [.stored key x] else []
    | none => []
  else [.ignored key]

/-- The event of an instruction that was carried out and left the machine as it is. -/
def instructionEvents (m : Machine) : Instruction → List Event
  | .draw _ _ _ => [.draw (m.registers.get Registers.flag == 1)]
  | .clear => [.clear]
  | .awaitKey x => [.keyWait x]
  | _ => []

def soundEvents (before after : Machine) : List Event :=
  if before.soundOn = after.soundOn then [] else [.sound after.soundOn]

end Machine

namespace Session

def new (settings : Settings) (host : Host) : Session where
  machine := .boot .empty settings
  rate := settings.rate
  host := host

def withRom (rom : Rom) (settings : Settings) (host : Host) : Session :=
  let s := new settings host
  { s with
    machine := s.machine.reset rom
    host := s.host.record (.reset rom.size) }

def load (s : Session) (rom : Rom) : Session :=
  let machine := s.machine.reset rom
  { s with
    machine
    running := false
    fault := none
    host := (s.host.record (.reset rom.size)).sendAll (s.machine.soundEvents machine) }

def reset (s : Session) (bytes : Array UInt8) : Except Rom.TooLarge Session :=
  (Rom.ofBytes bytes).map s.load

def start (s : Session) : Session :=
  match s.fault with
  | some f => { s with host := s.host.record (.notStarted f) }
  | none => { s with running := true }

def stop (s : Session) : Session :=
  { s with running := false }

/-- One cycle, whether or not the session is running. A fault stops the session for good; another
step then has the same fault for an answer. -/
def step (s : Session) : Outcome × Session :=
  match s.fault with
  | some f => (.fault f, s)
  | none =>
    let host := s.host.recordAll s.machine.cycleRecords
    let (outcome, machine) := s.machine.cycle
    match outcome with
    | .executed i =>
      let events := machine.instructionEvents i ++ s.machine.soundEvents machine
      (outcome, { s with machine, host := host.sendAll events })
    | .waiting => (outcome, { s with machine, host })
    | .fault f =>
      (outcome, { s with
        machine
        running := false
        fault := some f
        host := (host.record (.stopped f)).send (.fault f) })

def tick (s : Session) : Session :=
  let machine := s.machine.tick
  { s with machine, host := s.host.sendAll (s.machine.soundEvents machine) }

/-- Steps until `n` instructions more than `executed` were carried out, or the machine waits for a
key, or a fault stops it. The answer is the number of instructions or the fault. -/
def burst (s : Session) (executed : Nat) : Nat → Except Fault Nat × Session
  | 0 => (.ok executed, s)
  | n + 1 =>
    match s.step with
    | (.executed _, next) => next.burst (executed + 1) n
    | (.waiting, next) => (.ok executed, next)
    | (.fault f, next) => (.error f, next)

/-- One frame: a burst of as many instructions as a frame has, and then a tick. A paused session
does nothing in a frame, and there is no tick after a fault. -/
def frame (s : Session) : Except Fault Nat × Session :=
  if s.running then
    match s.burst 0 s.rate with
    | (.ok executed, next) => (.ok executed, next.tick)
    | (.error f, next) => (.error f, next)
  else (.ok 0, s)

def setKey (s : Session) (key : UInt8) (pressed : Bool) : Session :=
  { s with
    machine := s.machine.setKey key pressed
    host := s.host.recordAll (s.machine.keyRecords key pressed) }

def hangUp (s : Session) : Session :=
  { s with host := s.host.hangUp }

end Session

end Chip8
