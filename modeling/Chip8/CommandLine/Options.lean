import Chip8.KeyScript
import Chip8.Settings

/-!
# Options

What a command line asks for: a program file, and options that start with two dashes. An option
that takes a value takes it behind an equals sign or as the next argument. A value that is the next
argument is looked at only when the argument after it has been told apart, so a later unknown
option is complained about before an earlier bad value. Instead of a run, a command line can ask
about the program itself; what stands in front of the question still has to be right.
-/

namespace Chip8

structure Options where
  rom : String
  settings : Settings
  frames : Nat
  realtime : Bool
  keys : KeyScript

namespace Options

def defaultFrames : Nat := 600

inductive Inquiry where
  | help
  | version
deriving DecidableEq, Repr

inductive Error where
  | badKeys (e : KeyPress.Error)
  | usage
  /-- Nothing is wrong up to a question, and what follows it is not looked at. -/
  | asked (i : Inquiry)
deriving DecidableEq, Repr

inductive Setting where
  | rate
  | frames
  | seed
  | keys
deriving DecidableEq, Repr

inductive Switch where
  | realtime
  | shiftReadsY
  | blockMovesIndex
  | offsetReadsX
  | logicClearsFlag
deriving DecidableEq, Repr

inductive Named where
  | setting (s : Setting)
  | switch (s : Switch)
  | inquiry (i : Inquiry)
deriving DecidableEq, Repr

def Named.ofName? (name : String) : Option Named :=
  match name with
  | "instructions-per-tick" => some (.setting .rate)
  | "frames" => some (.setting .frames)
  | "seed" => some (.setting .seed)
  | "keys" => some (.setting .keys)
  | "realtime" => some (.switch .realtime)
  | "quirk-shift-vy" => some (.switch .shiftReadsY)
  | "quirk-memory-i" => some (.switch .blockMovesIndex)
  | "quirk-jump-vx" => some (.switch .offsetReadsX)
  | "quirk-logic-vf" => some (.switch .logicClearsFlag)
  | "help" => some (.inquiry .help)
  | "version" => some (.inquiry .version)
  | _ => none

def Inquiry.ofLetter? (letter : Char) : Option Inquiry :=
  match letter with
  | 'h' => some .help
  | 'V' => some .version
  | _ => none

inductive Argument where
  | separator
  | option (name : String) (value : Option String)
  | letters (first : Char)
  | plain
deriving DecidableEq, Repr

def Argument.ofString (text : String) : Argument :=
  match text.toList with
  | ['-', '-'] => .separator
  | '-' :: '-' :: rest =>
    match Fields.cut? '=' rest with
    | some (name, value) => .option (String.ofList name) (some (String.ofList value))
    | none => .option (String.ofList rest) none
  | '-' :: first :: _ => .letters first
  | _ => .plain

structure Draft where
  rom : Option String := none
  rate : Option Nat := none
  frames : Option Nat := none
  seed : Option Nat := none
  keys : KeyScript := []
  switches : List Switch := []

/-- What has been told apart and not yet looked at. -/
inductive Pending where
  | nothing
  | path (text : String)
  | setting (s : Setting) (value : Option String)

namespace Draft

def number (before : Option Nat) (text : String) : Except Error (Option Nat) :=
  match before, Numeral.read? 10 UInt64.size text.toList with
  | none, some n => .ok (some n)
  | _, _ => .error .usage

def assign (d : Draft) (s : Setting) (text : String) : Except Error Draft :=
  match s with
  | .rate => (number d.rate text).map fun rate => { d with rate }
  | .frames => (number d.frames text).map fun frames => { d with frames }
  | .seed => (number d.seed text).map fun seed => { d with seed }
  | .keys =>
    match KeyScript.parse text.toList with
    | .ok keys => .ok { d with keys := d.keys ++ keys }
    | .error e => .error (.badKeys e)

def settle (d : Draft) : Pending → Except Error Draft
  | .nothing => .ok d
  | .path text => if text.isEmpty then .error .usage else .ok { d with rom := some text }
  | .setting s (some text) => d.assign s text
  | .setting _ none => .error .usage

def turnOn (d : Draft) (s : Switch) : Except Error Draft :=
  if s ∈ d.switches then .error .usage else .ok { d with switches := s :: d.switches }

/-- What becomes of a question: what is pending is looked at before. -/
def inquire (d : Draft) (pending : Pending) (i : Inquiry) : Error :=
  match d.settle pending with
  | .ok _ => .asked i
  | .error e => e

def hasPath (d : Draft) : Pending → Bool
  | .path _ => true
  | _ => d.rom.isSome

def takePath (d : Draft) (pending : Pending) (text : String) : Except Error (Draft × Pending) :=
  if d.hasPath pending then .error .usage
  else (d.settle pending).map fun settled => (settled, .path text)

def takeOption (d : Draft) (pending : Pending) (name : String) (value : Option String) :
    Except Error (Draft × Pending) :=
  match Named.ofName? name, value with
  | some (.setting s), some text => do
    let settled ← d.settle pending
    let assigned ← settled.assign s text
    return (assigned, .nothing)
  | some (.setting s), none => (d.settle pending).map fun settled => (settled, .setting s none)
  | some (.switch s), none => do
    let settled ← d.settle pending
    let changed ← settled.turnOn s
    return (changed, .nothing)
  | some (.inquiry i), none => .error (d.inquire pending i)
  | _, _ => .error .usage

def readPaths (d : Draft) (pending : Pending) : List String → Except Error Draft
  | [] => d.settle pending
  | text :: rest =>
    match d.takePath pending text with
    | .ok (d, pending) => d.readPaths pending rest
    | .error e => .error e

def read (d : Draft) (pending : Pending) : List String → Except Error Draft
  | [] => d.settle pending
  | text :: rest =>
    match Argument.ofString text, pending with
    | .separator, _ => d.readPaths pending rest
    | .letters first, _ =>
      match Inquiry.ofLetter? first with
      | some i => .error (d.inquire pending i)
      | none => .error .usage
    | .option name value, _ =>
      match d.takeOption pending name value with
      | .ok (d, pending) => d.read pending rest
      | .error e => .error e
    | .plain, .setting s none => d.read (.setting s (some text)) rest
    | .plain, _ =>
      match d.takePath pending text with
      | .ok (d, pending) => d.read pending rest
      | .error e => .error e

def finish (d : Draft) : Except Error Options :=
  let usual : Settings := {}
  match d.rom with
  | none => .error .usage
  | some rom => .ok {
      rom
      settings := {
        rate := d.rate.getD usual.rate
        seed := (d.seed.map UInt64.ofNat).getD usual.seed
        dialect := {
          shiftReadsY := .shiftReadsY ∈ d.switches
          blockMovesIndex := .blockMovesIndex ∈ d.switches
          offsetReadsX := .offsetReadsX ∈ d.switches
          logicClearsFlag := .logicClearsFlag ∈ d.switches } }
      frames := d.frames.getD defaultFrames
      realtime := .realtime ∈ d.switches
      keys := d.keys }

end Draft

def parse (arguments : List String) : Except Error Options :=
  match ({} : Draft).read .nothing arguments with
  | .ok draft => draft.finish
  | .error e => .error e

end Options

end Chip8
