import Chip8.Instruction.Mnemonic
import Chip8.Session.Event

namespace Chip8

inductive Level where
  | trace
  | debug
  | info
  | warn
  | error
deriving DecidableEq, Repr

def Level.name : Level → String
  | .trace => "TRACE"
  | .debug => "DEBUG"
  | .info => "INFO"
  | .warn => "WARN"
  | .error => "ERROR"

inductive Record where
  | reset (size : Nat)
  | decoded (address word : UInt16) (i : Instruction)
  | waiting (x : UInt8)
  | ignored (key : UInt8)
  | stored (key x : UInt8)
  | notStarted (f : Fault)
  | stopped (f : Fault)
  /-- An event, where the host has events written to the log. -/
  | event (e : Event)
deriving DecidableEq, Repr

namespace Event

def level : Event → Level
  | .draw _ => .trace
  | .clear => .trace
  | .sound _ => .info
  | .keyWait _ => .info
  | .fault _ => .error

def message : Event → String
  | .draw collision => s!"draw, collision: {collision}"
  | .clear => "clear screen"
  | .sound on => if on then "sound on" else "sound off"
  | .keyWait x => "waiting for a key press to store in V" ++ Numeral.hex 1 x.toNat
  | .fault f => f.message

end Event

namespace Record

def level : Record → Level
  | .reset _ => .debug
  | .decoded _ _ _ => .trace
  | .waiting _ => .debug
  | .ignored _ => .warn
  | .stored _ _ => .debug
  | .notStarted _ => .warn
  | .stopped _ => .warn
  | .event e => e.level

def message : Record → String
  | .reset size => s!"reset with a {size} byte rom"
  | .decoded address word i =>
    Numeral.marked 3 address.toNat ++ "  " ++ Numeral.hex 4 word.toNat ++ "  " ++ i.text
  | .waiting x => "waiting for a key for V" ++ Numeral.hex 1 x.toNat
  | .ignored key =>
    "ignoring key " ++ Numeral.marked 2 key.toNat ++ ", the keypad only goes up to 0xF"
  | .stored key x =>
    "key " ++ Numeral.hex 1 key.toNat ++ " stored in V" ++ Numeral.hex 1 x.toNat
  | .notStarted f => "not starting, the machine faulted: " ++ f.message
  | .stopped f => f.message
  | .event e => e.message

def line (r : Record) : String :=
  r.level.name ++ " " ++ r.message

end Record

end Chip8
