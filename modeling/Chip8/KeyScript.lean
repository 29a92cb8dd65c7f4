import Chip8.Text.Blank
import Chip8.Text.Fields
import Chip8.Text.Numeral
import Chip8.Text.Quoted

/-!
# Key scripts

Keys to be pressed while nobody is at the keypad. A press is written as a frame and a key with a
colon between them, the frame in decimal and the key in hexadecimal, both with white space around
them at will.
-/

namespace Chip8

structure KeyPress where
  frame : Nat
  key : UInt8
deriving DecidableEq, Repr

namespace KeyPress

inductive Error where
  | noColon (text : List Char)
  | badFrame (text : List Char)
  | badKey (text : List Char)
  | noSuchKey (key : UInt8)
deriving DecidableEq, Repr

def Error.message : Error → String
  | .noColon text => "expected frame:key, got " ++ Quoted.quote text
  | .badFrame text => "invalid frame in " ++ Quoted.quote text
  | .badKey text => "invalid key in " ++ Quoted.quote text
  | .noSuchKey key =>
    "key " ++ Numeral.marked 1 key.toNat ++ " is not on the keypad, keys go from 0 to F"

/-- Reads a key press. The first colon is the one that counts. -/
def parse (text : List Char) : Except Error KeyPress :=
  match Fields.cut? ':' text with
  | none => .error (.noColon text)
  | some (before, after) =>
    match Numeral.read? 10 UInt64.size (Blank.trim before) with
    | none => .error (.badFrame text)
    | some frame =>
      match Numeral.read? 16 UInt8.size (Blank.trim after) with
      | none => .error (.badKey text)
      | some number =>
        let key := UInt8.ofNat number
        if key < 16 then .ok { frame, key } else .error (.noSuchKey key)

end KeyPress

abbrev KeyScript := List KeyPress

def KeyScript.keysAt (script : KeyScript) (frame : Nat) : List UInt8 :=
  (script.filter (·.frame = frame)).map (·.key)

/-- Reads a script: presses with commas between them. The first press that is none is complained
about. -/
def KeyScript.parse (text : List Char) : Except KeyPress.Error KeyScript :=
  (Fields.split ',' text).mapM KeyPress.parse

end Chip8
