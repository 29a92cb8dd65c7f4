import Chip8.Proofs.CheckedParts
import Chip8.Proofs.KeyWait

namespace Chip8

def Condition.holdsChecked (m : Machine) : Condition → Option Bool
  | .equalsByte x kk => do
    let vx ← m.registers.getChecked x
    some (vx = kk)
  | .differsFromByte x kk => do
    let vx ← m.registers.getChecked x
    some (vx ≠ kk)
  | .equals x y => do
    let vx ← m.registers.getChecked x
    let vy ← m.registers.getChecked y
    some (vx = vy)
  | .differs x y => do
    let vx ← m.registers.getChecked x
    let vy ← m.registers.getChecked y
    some (vx ≠ vy)
  | .pressed x => do
    let vx ← m.registers.getChecked x
    m.keypad.isHeldChecked vx
  | .released x => do
    let vx ← m.registers.getChecked x
    let held ← m.keypad.isHeldChecked vx
    some (!held)

@[simp] theorem Condition.holdsChecked_eq (m : Machine) (condition : Condition) :
    condition.holdsChecked m = some (condition.holds m) := by
  cases condition <;> simp [holdsChecked, holds]

namespace Machine

def callChecked (m : Machine) (target : UInt16) : Option (Except Fault Machine) :=
  if target % 2 = 0 then do
    let pushed ← m.stack.pushChecked (after m.pc)
    match pushed with
    | some stack => some (.ok { m with pc := target, stack })
    | none => some (.error (.stackOverflow m.pc))
  else some (.error (.misalignedJump target m.pc))

def goBackChecked (m : Machine) : Option (Except Fault Machine) := do
  let popped ← m.stack.popChecked
  match popped with
  | some (target, stack) => some (.ok { m with pc := Layout.wrap target, stack })
  | none => some (.error (.stackUnderflow m.pc))

def offsetTargetChecked (m : Machine) (x : UInt8) (nnn : UInt16) : Option UInt16 := do
  let register := if m.dialect.offsetReadsX then x else 0
  let offset ← m.registers.getChecked register
  let sum ← Checked.word (nnn.toNat + offset.toNat)
  some (Layout.wrap sum)

def combineChecked (m : Machine) (op : Operation) (x y : UInt8) : Option Registers := do
  let vx ← m.registers.getChecked x
  let vy ← m.registers.getChecked y
  let (result, flag) := op.apply m.dialect vx vy
  let registers ← m.registers.setChecked x result
  match flag with
  | some b => registers.setFlagChecked b
  | none => some registers

def glyphChecked (digit : UInt8) : Option UInt16 := do
  let offset ← Checked.word ((digit &&& 0xF).toNat * Layout.glyphHeight.toNat)
  Checked.word (Layout.fontOrigin.toNat + offset.toNat)

/-- The address behind a block may wrap around, but the length of the block may not. -/
def moveIndexChecked (dialect : Dialect) (registers : Registers) (x : UInt8) :
    Option Registers :=
  if dialect.blockMovesIndex then do
    let count ← Checked.word (x.toNat + 1)
    some (registers.setIndex (registers.index + count))
  else some registers

def executeChecked (m : Machine) (i : Instruction) : Option (Except Fault Machine) :=
  let index := m.registers.index
  let next := { m with pc := after m.pc }
  match i with
  | .clear => some (.ok { next with screen := .blank })
  | .ret => m.goBackChecked
  | .jump nnn => some (m.jump nnn)
  | .call nnn => m.callChecked nnn
  | .skip condition => do
    let holds ← condition.holdsChecked m
    some (.ok (if holds then { next with pc := after next.pc } else next))
  | .load x kk => do
    let registers ← m.registers.setChecked x kk
    some (.ok { next with registers })
  | .add x kk => do
    let vx ← m.registers.getChecked x
    let registers ← m.registers.setChecked x (vx + kk)
    some (.ok { next with registers })
  | .combine op x y => do
    let registers ← m.combineChecked op x y
    some (.ok { next with registers })
  | .setIndex nnn => some (.ok { next with registers := m.registers.setIndex nnn })
  | .jumpOffset x nnn => do
    let target ← m.offsetTargetChecked x nnn
    some (m.jump target)
  | .random x kk => do
    let registers ← m.registers.setChecked x (m.random.next &&& kk)
    some (.ok { next with registers, random := m.random.advanced })
  | .draw x y n => do
    let vx ← m.registers.getChecked x
    let vy ← m.registers.getChecked y
    let sprite ← m.memory.readChecked index n.toNat
    let (screen, collision) ← m.screen.drawChecked sprite vx vy.toNat
    let registers ← m.registers.setFlagChecked collision
    some (.ok { next with screen, registers })
  | .readDelay x => do
    let registers ← m.registers.setChecked x m.timers.delay
    some (.ok { next with registers })
  | .awaitKey x => some (.ok { next with waiting := some x })
  | .setDelay x => do
    let vx ← m.registers.getChecked x
    some (.ok { next with timers := { m.timers with delay := vx } })
  | .setSound x => do
    let vx ← m.registers.getChecked x
    some (.ok { next with timers := { m.timers with sound := vx } })
  | .addIndex x => do
    let vx ← m.registers.getChecked x
    let sum ← Checked.word (index.toNat + vx.toNat)
    some (.ok { next with registers := m.registers.setIndex sum })
  | .pointGlyph x => do
    let vx ← m.registers.getChecked x
    let glyph ← glyphChecked vx
    some (.ok { next with registers := m.registers.setIndex glyph })
  | .storeDecimal x => do
    let vx ← m.registers.getChecked x
    let memory ← m.memory.writeChecked index [vx / 100, vx / 10 % 10, vx % 10]
    some (.ok { next with memory })
  | .storeRegisters x => do
    let values ← m.registers.upToChecked x
    let memory ← m.memory.writeChecked index values
    let registers ← moveIndexChecked m.dialect m.registers x
    some (.ok { next with memory, registers })
  | .loadRegisters x => do
    let values ← m.memory.readChecked index (x.toNat + 1)
    let loaded ← m.registers.setFromChecked 0 values
    let registers ← moveIndexChecked m.dialect loaded x
    some (.ok { next with registers })

def cycleChecked (m : Machine) : Option (Outcome × Machine) :=
  match m.waiting with
  | some _ => some (.waiting, m)
  | none => do
    let word ← m.memory.wordChecked m.pc
    match Instruction.decode? word with
    | none => some (.fault (.illegalOpcode word m.pc), m)
    | some i => do
      let executed ← m.executeChecked i
      match executed with
      | .ok next => some (.executed i, next)
      | .error f => some (.fault f, m)

/-- A key is looked up by its number, not by the last digit of it, and a number that names no key is
not looked up. -/
def setKeyChecked (m : Machine) (key : UInt8) (pressed : Bool) : Option Machine :=
  if Keypad.hasKey key then do
    let held ← m.keypad.held[key.toNat]?
    let keys ← Checked.put m.keypad.held key.toNat pressed
    let next := { m with keypad := { held := keys } }
    match m.waiting with
    | some x =>
      if pressed && !held then do
        let registers ← m.registers.setChecked x key
        some { next with waiting := none, registers }
      else some next
    | none => some next
  else some m

def resetChecked (m : Machine) (rom : Rom) : Option Machine := do
  let memory ← Memory.ofRomChecked rom
  some { m.reset rom with memory }

/-- The numbers that depend on what a machine did before are in range. -/
structure InRange (m : Machine) : Prop where
  offset : ∀ x nnn y, Instruction.decode? m.fetch = some (.jumpOffset x nnn) →
    nnn.toNat + (m.registers.get y).toNat < 2 ^ 16
  index : ∀ x, m.registers.index.toNat + (m.registers.get x).toNat < 2 ^ 16
  glyph : ∀ x, Layout.fontOrigin.toNat +
    (m.registers.get x).toNat % 16 * Layout.glyphHeight.toNat < 2 ^ 16
  pushed : ∀ a stack, m.stack.push? a = some stack → stack.depth ≤ 16
  popped : ∀ a stack, m.stack.pop? = some (a, stack) → stack.depth < 16

variable {m : Machine} {i : Instruction}

theorem Coherent.inRange (coherent : Coherent m) : InRange m where
  offset := by
    intro x nnn y decoded
    have address : nnn.toNat ≤ 0xFFF := (Instruction.of_decode? decoded).2.1
    have byte := (m.registers.get y).toNat_lt
    omega
  index := by
    intro x
    have address := coherent.index
    have byte := (m.registers.get x).toNat_lt
    omega
  glyph := by
    intro x
    have font : Layout.fontOrigin.toNat = 0 := rfl
    have rows : Layout.glyphHeight.toNat = 5 := rfl
    rw [font, rows]
    omega
  pushed := by
    intro a stack pushed
    have depth := CallStack.depth_of_push pushed
    omega
  popped := by
    intro a stack popped
    have bounded := coherent.depth
    have depth := CallStack.depth_of_pop popped
    omega

theorem callChecked_eq (m : Machine) (target : UInt16) :
    m.callChecked target = some (m.call target) := by
  unfold callChecked call
  split
  · rw [CallStack.pushChecked_eq]
    cases m.stack.push? (after m.pc) <;> rfl
  · rfl

theorem goBackChecked_eq (inRange : InRange m) : m.goBackChecked = some m.goBack := by
  unfold goBackChecked goBack
  rw [CallStack.popChecked_eq inRange.popped]
  cases m.stack.pop? <;> rfl

theorem offsetTargetChecked_eq {x : UInt8} {nnn : UInt16} (inRange : InRange m)
    (decoded : Instruction.decode? m.fetch = some (.jumpOffset x nnn)) :
    m.offsetTargetChecked x nnn = some (m.offsetTarget x nnn) := by
  have sum := Checked.word_of_lt
    (inRange.offset x nnn (if m.dialect.offsetReadsX then x else 0) decoded)
  simp [offsetTargetChecked, offsetTarget, sum]

theorem combineChecked_eq (m : Machine) (op : Operation) (x y : UInt8) :
    m.combineChecked op x y = some (m.combine op x y) := by
  simp only [combineChecked, combine, Registers.getChecked_eq, Registers.setChecked_eq,
    Option.bind_eq_bind, Option.bind_some]
  cases (op.apply m.dialect (m.registers.get x) (m.registers.get y)).2 with
  | none => rfl
  | some b => exact Registers.setFlagChecked_eq _ b

theorem glyphChecked_eq (inRange : InRange m) (x : UInt8) :
    glyphChecked (m.registers.get x) = some (Layout.fontOrigin +
      (m.registers.get x &&& 0xF).toUInt16 * Layout.glyphHeight) := by
  have digit : (m.registers.get x &&& 0xF).toNat = (m.registers.get x).toNat % 16 :=
    PerDigit.toNat_and_digit _
  have address := inRange.glyph x
  rw [← digit] at address
  have rows := Checked.word_of_lt (Nat.lt_of_le_of_lt (Nat.le_add_left _ _) address)
  have kept : (UInt16.ofNat ((m.registers.get x &&& 0xF).toNat * Layout.glyphHeight.toNat)).toNat =
      (m.registers.get x &&& 0xF).toNat * Layout.glyphHeight.toNat :=
    Nat.mod_eq_of_lt (Nat.lt_of_le_of_lt (Nat.le_add_left _ _) address)
  unfold glyphChecked
  rw [rows]
  simp only [Option.bind_eq_bind, Option.bind_some, kept, Checked.word_of_lt address]
  simp

theorem moveIndexChecked_eq (dialect : Dialect) (r : Registers) (x : UInt8) :
    moveIndexChecked dialect r x = some (moveIndex dialect r (x.toNat + 1)) := by
  have byte := x.toNat_lt
  have count := Checked.word_of_lt (n := x.toNat + 1) (by omega)
  unfold moveIndexChecked moveIndex
  split
  · rw [count]
    rfl
  · rfl

theorem executeChecked_eq (inRange : InRange m)
    (decoded : Instruction.decode? m.fetch = some i) :
    m.executeChecked i = some (m.execute i) := by
  cases i with
  | ret => exact goBackChecked_eq inRange
  | call nnn => exact m.callChecked_eq nnn
  | jumpOffset x nnn => simp [executeChecked, execute, offsetTargetChecked_eq inRange decoded]
  | addIndex x =>
    have sum := Checked.word_of_lt (inRange.index x)
    simp [executeChecked, execute, sum]
  | pointGlyph x => simp [executeChecked, execute, glyphChecked_eq inRange]
  | combine op x y => simp [executeChecked, execute, combineChecked_eq]
  | draw x y n => simp [executeChecked, execute, Screen.drawChecked_eq]
  | storeRegisters x => simp [executeChecked, execute, moveIndexChecked_eq]
  | loadRegisters x => simp [executeChecked, execute, moveIndexChecked_eq]
  | _ => simp [executeChecked, execute]

theorem cycleChecked_eq (inRange : InRange m) : m.cycleChecked = some m.cycle := by
  unfold cycleChecked cycle
  cases m.waiting with
  | some x => rfl
  | none =>
    have word : m.memory.wordChecked m.pc = some m.fetch := m.memory.wordChecked_eq m.pc
    rw [word]
    simp only [Option.bind_eq_bind, Option.bind_some]
    cases decoded : Instruction.decode? m.fetch with
    | none => rfl
    | some i =>
      simp only [executeChecked_eq inRange decoded, Option.bind_some]
      cases m.execute i <;> rfl

theorem setKeyChecked_eq (m : Machine) (key : UInt8) (pressed : Bool) :
    m.setKeyChecked key pressed = some (m.setKey key pressed) := by
  by_cases named : Keypad.hasKey key = true
  · have number : key.toNat < 16 := Nat.lt_succ_of_le (Keypad.hasKey_iff.mp named)
    have digit : (PerDigit.lastDigit key).val = key.toNat := Nat.mod_eq_of_lt number
    have held : m.keypad.held[key.toNat]? = some (m.keypad.isHeld key) := by
      simp only [Keypad.isHeld, PerDigit.look, digit, Vector.getElem?_eq_getElem number]
    have keys : m.keypad.set key pressed = { held := m.keypad.held.set key.toNat pressed } := by
      simp only [Keypad.set, named, if_true, PerDigit.put, digit]
    have put := Checked.put_of_lt m.keypad.held number pressed
    simp only [setKeyChecked, setKey, goesDown, named, held, put, keys]
    cases m.waiting with
    | none => rfl
    | some x => cases pressed <;> cases m.keypad.isHeld key <;> simp
  · have off : 16 ≤ key.toNat := by
      rw [Keypad.hasKey_iff] at named
      omega
    rw [setKeyChecked, if_neg named, setKey_of_no_key m pressed off]

theorem resetChecked_eq (m : Machine) (rom : Rom) : m.resetChecked rom = some (m.reset rom) := by
  simp [resetChecked, reset]

end Machine

end Chip8
