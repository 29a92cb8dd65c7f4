import Chip8.Fault
import Chip8.Instruction.Basic
import Chip8.Machine.Basic
import Chip8.Screen.Drawing

namespace Chip8

def Condition.holds (m : Machine) : Condition → Bool
  | .equalsByte x kk => m.registers.get x = kk
  | .differsFromByte x kk => m.registers.get x ≠ kk
  | .equals x y => m.registers.get x = m.registers.get y
  | .differs x y => m.registers.get x ≠ m.registers.get y
  | .pressed x => m.keypad.isHeld (m.registers.get x)
  | .released x => !m.keypad.isHeld (m.registers.get x)

def Operation.apply (op : Operation) (dialect : Dialect) (a b : UInt8) : UInt8 × Option Bool :=
  let shifted := if dialect.shiftReadsY then b else a
  let cleared := if dialect.logicClearsFlag then some false else none
  match op with
  | .copy => (b, none)
  | .or => (a ||| b, cleared)
  | .and => (a &&& b, cleared)
  | .xor => (a ^^^ b, cleared)
  | .add => (a + b, some (decide (a + b < a)))
  | .sub => (a - b, some (decide (b ≤ a)))
  | .shiftRight => (shifted >>> 1, some (shifted &&& 0x01 != 0))
  | .subFrom => (b - a, some (decide (a ≤ b)))
  | .shiftLeft => (shifted <<< 1, some (shifted &&& 0x80 != 0))

namespace Machine

def after (a : UInt16) : UInt16 :=
  Layout.wrap (a + 2)

def jump (m : Machine) (target : UInt16) : Except Fault Machine :=
  if target % 2 = 0 then .ok { m with pc := target }
  else .error (.misalignedJump target m.pc)

def call (m : Machine) (target : UInt16) : Except Fault Machine :=
  if target % 2 = 0 then
    match m.stack.push? (after m.pc) with
    | some stack => .ok { m with pc := target, stack }
    | none => .error (.stackOverflow m.pc)
  else .error (.misalignedJump target m.pc)

def goBack (m : Machine) : Except Fault Machine :=
  match m.stack.pop? with
  | some (target, stack) => .ok { m with pc := Layout.wrap target, stack }
  | none => .error (.stackUnderflow m.pc)

def offsetTarget (m : Machine) (x : UInt8) (nnn : UInt16) : UInt16 :=
  let register := if m.dialect.offsetReadsX then x else 0
  Layout.wrap (nnn + (m.registers.get register).toUInt16)

/-- The registers after an operation between two of them. The flag is stored last, so that it wins
over the result where both go to one register. -/
def combine (m : Machine) (op : Operation) (x y : UInt8) : Registers :=
  let (result, flag) := op.apply m.dialect (m.registers.get x) (m.registers.get y)
  match flag with
  | some b => (m.registers.set x result).setFlag b
  | none => m.registers.set x result

def moveIndex (dialect : Dialect) (registers : Registers) (count : Nat) : Registers :=
  if dialect.blockMovesIndex then registers.setIndex (registers.index + UInt16.ofNat count)
  else registers

/-- The machine after an instruction that stands at its program counter, or the fault that the
instruction meets. -/
def execute (m : Machine) (i : Instruction) : Except Fault Machine :=
  let index := m.registers.index
  let get := m.registers.get
  let next := { m with pc := after m.pc }
  match i with
  | .clear => .ok { next with screen := .blank }
  | .ret => m.goBack
  | .jump nnn => m.jump nnn
  | .call nnn => m.call nnn
  | .skip condition =>
    .ok (if condition.holds m then { next with pc := after next.pc } else next)
  | .load x kk => .ok { next with registers := m.registers.set x kk }
  | .add x kk => .ok { next with registers := m.registers.set x (get x + kk) }
  | .combine op x y => .ok { next with registers := m.combine op x y }
  | .setIndex nnn => .ok { next with registers := m.registers.setIndex nnn }
  | .jumpOffset x nnn => m.jump (m.offsetTarget x nnn)
  | .random x kk =>
    .ok { next with
      registers := m.registers.set x (m.random.next &&& kk)
      random := m.random.advanced }
  | .draw x y n =>
    let (screen, collision) := m.screen.draw (m.memory.read index n.toNat) (get x) (get y).toNat
    .ok { next with screen, registers := m.registers.setFlag collision }
  | .readDelay x => .ok { next with registers := m.registers.set x m.timers.delay }
  | .awaitKey x => .ok { next with waiting := some x }
  | .setDelay x => .ok { next with timers := { m.timers with delay := get x } }
  | .setSound x => .ok { next with timers := { m.timers with sound := get x } }
  | .addIndex x =>
    .ok { next with registers := m.registers.setIndex (index + (get x).toUInt16) }
  | .pointGlyph x =>
    let glyph := Layout.fontOrigin + (get x &&& 0xF).toUInt16 * Layout.glyphHeight
    .ok { next with registers := m.registers.setIndex glyph }
  | .storeDecimal x =>
    let value := get x
    .ok { next with memory := m.memory.write index [value / 100, value / 10 % 10, value % 10] }
  | .storeRegisters x =>
    .ok { next with
      memory := m.memory.write index (m.registers.upTo x)
      registers := moveIndex m.dialect m.registers (x.toNat + 1) }
  | .loadRegisters x =>
    let values := m.memory.read index (x.toNat + 1)
    .ok { next with
      registers := moveIndex m.dialect (m.registers.setFrom 0 values) (x.toNat + 1) }

end Machine

end Chip8
