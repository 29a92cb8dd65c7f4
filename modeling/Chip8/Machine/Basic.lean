import Chip8.CallStack
import Chip8.Keypad
import Chip8.Memory
import Chip8.Random
import Chip8.Registers
import Chip8.Screen.Basic
import Chip8.Settings
import Chip8.Timers

namespace Chip8

structure Machine where
  pc : UInt16
  registers : Registers
  memory : Memory
  stack : CallStack
  timers : Timers
  keypad : Keypad
  screen : Screen
  random : Random
  /-- The register that the next key to go down is stored in, while the machine waits for one. -/
  waiting : Option UInt8
  dialect : Dialect

namespace Machine

def boot (rom : Rom) (settings : Settings) : Machine where
  pc := Layout.programOrigin
  registers := .zero
  memory := .ofRom rom
  stack := .empty
  timers := {}
  keypad := .released
  screen := .blank
  random := { stream := settings.stream settings.seed }
  waiting := none
  dialect := settings.dialect

/-- The machine back at power-on with a program loaded, but with the keys held that are held. -/
def reset (m : Machine) (rom : Rom) : Machine where
  pc := Layout.programOrigin
  registers := .zero
  memory := .ofRom rom
  stack := .empty
  timers := {}
  keypad := m.keypad
  screen := .blank
  random := m.random.restarted
  waiting := none
  dialect := m.dialect

def tick (m : Machine) : Machine :=
  { m with timers := m.timers.tick }

def soundOn (m : Machine) : Bool :=
  m.timers.soundOn

def goesDown (m : Machine) (key : UInt8) (pressed : Bool) : Bool :=
  Keypad.hasKey key && pressed && !m.keypad.isHeld key

/-- The machine after a key was set as held or up. A key that goes down ends a wait, and its number
is stored in the register that waits for it. A number that names no key changes nothing. -/
def setKey (m : Machine) (key : UInt8) (pressed : Bool) : Machine :=
  let keypad := m.keypad.set key pressed
  match m.waiting with
  | some x =>
    if m.goesDown key pressed then
      { m with keypad, waiting := none, registers := m.registers.set x key }
    else { m with keypad }
  | none => { m with keypad }

end Machine

end Chip8
