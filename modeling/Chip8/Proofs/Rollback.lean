import Chip8.Proofs.Execution
import Chip8.Proofs.Histories

/-!
# Faults in the order of the writes

A cycle lets the program counter go on before it carries out the instruction, writes to one part of
the machine after the other, and puts the program counter back where the instruction fails. Here
every write is made in its place, and what a failure leaves is what was written before it.
-/

namespace Chip8

namespace Machine

inductive Failure where
  | stack (e : CallStack.Failure)
  | misaligned (target : UInt16)
deriving DecidableEq, Repr

/-- The fault that a failed instruction at the address is. -/
def Failure.fault (address : UInt16) : Failure → Fault
  | .stack .overflow => .stackOverflow address
  | .stack .underflow => .stackUnderflow address
  | .misaligned target => .misalignedJump target address

/-- Writes to a machine, one after the other. What was written before a failure stays written. -/
abbrev Writes := EStateM Failure Machine

namespace Writes

def onStack (change : EStateM CallStack.Failure CallStack α) : Writes α := fun m =>
  match change.run m.stack with
  | .ok a stack => .ok a { m with stack }
  | .error e stack => .error (.stack e) { m with stack }

def goTo (a : UInt16) : Writes Unit :=
  modify fun m => { m with pc := a }

def setRegister (x value : UInt8) : Writes Unit :=
  modify fun m => { m with registers := m.registers.set x value }

def setFlag (b : Bool) : Writes Unit :=
  modify fun m => { m with registers := m.registers.setFlag b }

def setIndex (a : UInt16) : Writes Unit :=
  modify fun m => { m with registers := m.registers.setIndex a }

def setByte (a : UInt16) (value : UInt8) : Writes Unit :=
  modify fun m => { m with memory := m.memory.set a value }

def aligned (target : UInt16) : Writes UInt16 :=
  if target % 2 = 0 then return target else throw (.misaligned target)

def storeBlock (a : UInt16) (x : UInt8) : Nat → Writes Unit
  | 0 => return
  | n + 1 => do
    setByte a ((← get).registers.get x)
    storeBlock (a + 1) (x + 1) n

def loadBlock (a : UInt16) (x : UInt8) : Nat → Writes Unit
  | 0 => return
  | n + 1 => do
    setRegister x ((← get).memory.get a)
    loadBlock (a + 1) (x + 1) n

def moveIndex (index : UInt16) (count : Nat) : Writes Unit := do
  if (← get).dialect.blockMovesIndex then setIndex (index + UInt16.ofNat count)

/-- Carries out an instruction on a machine that has gone on to the next one. -/
def perform (i : Instruction) : Writes Unit := do
  let m ← get
  let index := m.registers.index
  let vx := m.registers.get
  match i with
  | .clear => set { m with screen := .blank }
  | .ret => goTo (Layout.wrap (← onStack CallStack.pop))
  | .jump nnn => goTo (← aligned nnn)
  | .call nnn =>
    let target ← aligned nnn
    onStack (CallStack.push m.pc)
    goTo target
  | .skip condition => if condition.holds m then goTo (after m.pc)
  | .load x kk => setRegister x kk
  | .add x kk => setRegister x (vx x + kk)
  | .combine op x y =>
    let (result, flag) := op.apply m.dialect (vx x) (vx y)
    setRegister x result
    match flag with
    | some b => setFlag b
    | none => return
  | .setIndex nnn => setIndex nnn
  | .jumpOffset x nnn => goTo (← aligned (m.offsetTarget x nnn))
  | .random x kk =>
    set { m with random := m.random.advanced }
    setRegister x (m.random.next &&& kk)
  | .draw x y n =>
    let (screen, collision) := m.screen.draw (m.memory.read index n.toNat) (vx x) (vx y).toNat
    set { m with screen }
    setFlag collision
  | .readDelay x => setRegister x m.timers.delay
  | .awaitKey x => set { m with waiting := some x }
  | .setDelay x => set { m with timers := { m.timers with delay := vx x } }
  | .setSound x => set { m with timers := { m.timers with sound := vx x } }
  | .addIndex x => setIndex (index + (vx x).toUInt16)
  | .pointGlyph x =>
    setIndex (Layout.fontOrigin + (vx x &&& 0xF).toUInt16 * Layout.glyphHeight)
  | .storeDecimal x =>
    setByte index (vx x / 100)
    setByte (index + 1) (vx x / 10 % 10)
    setByte (index + 2) (vx x % 10)
  | .storeRegisters x =>
    storeBlock index 0 (x.toNat + 1)
    moveIndex index (x.toNat + 1)
  | .loadRegisters x =>
    loadBlock index 0 (x.toNat + 1)
    moveIndex index (x.toNat + 1)

end Writes

open Writes

/-- The machine gone on to the next instruction, with nothing written yet. -/
def advanced (m : Machine) : Machine :=
  { m with pc := after m.pc }

/-- A cycle with every write in its place. -/
def cycleInPlace (m : Machine) : Outcome × Machine :=
  match m.waiting with
  | some _ => (.waiting, m)
  | none =>
    let address := m.pc
    match Instruction.decode? m.fetch with
    | none => (.fault (.illegalOpcode m.fetch address), m)
    | some i =>
      match (perform i).run m.advanced with
      | .ok _ next => (.executed i, next)
      | .error e next => (.fault (e.fault address), { next with pc := address })

def cyclesInPlace (m : Machine) : Nat → List Outcome × Machine
  | 0 => ([], m)
  | n + 1 =>
    let (outcome, next) := m.cycleInPlace
    let (outcomes, last) := next.cyclesInPlace n
    (outcome :: outcomes, last)

variable {α β : Type} {m next : Machine} {i : Instruction} {f : Fault} {e : Failure}

theorem run_onStack (change : EStateM CallStack.Failure CallStack α) (m : Machine) :
    (onStack change).run m = match change.run m.stack with
      | .ok a stack => .ok a { m with stack }
      | .error e stack => .error (.stack e) { m with stack } := rfl

theorem run_aligned (target : UInt16) (m : Machine) : (aligned target).run m =
    if target % 2 = 0 then .ok target m else .error (.misaligned target) m := by
  unfold aligned
  split <;> rfl

theorem run_storeBlock (m : Machine) (a : UInt16) (x : UInt8) (n : Nat) :
    (storeBlock a x n).run m = .ok () { m with
      memory := m.memory.write a ((List.range n).map fun k => m.registers.get (x + .ofNat k)) } := by
  induction n generalizing m a x with
  | zero => rfl
  | succ n ih =>
    have first : (storeBlock a x (n + 1)).run m = (storeBlock (a + 1) (x + 1) n).run { m with
        memory := m.memory.set a (m.registers.get x) } := rfl
    have places : ∀ k : Nat, x + 1 + UInt8.ofNat k = x + UInt8.ofNat (k + 1) := by
      intro k
      rw [UInt8.ofNat_add, UInt8.add_assoc, UInt8.add_comm 1]
      rfl
    rw [first, ih, List.range_succ_eq_map]
    simp [Memory.write, Function.comp_def, places]

theorem run_loadBlock (m : Machine) (a : UInt16) (x : UInt8) (n : Nat) :
    (loadBlock a x n).run m = .ok () { m with
      registers := m.registers.setFrom x (m.memory.read a n) } := by
  induction n generalizing m a x with
  | zero => rfl
  | succ n ih =>
    have first : (loadBlock a x (n + 1)).run m = (loadBlock (a + 1) (x + 1) n).run { m with
        registers := m.registers.set x (m.memory.get a) } := rfl
    have places : ∀ k : Nat, a + 1 + UInt16.ofNat k = a + UInt16.ofNat (k + 1) := by
      intro k
      rw [UInt16.ofNat_add, UInt16.add_assoc, UInt16.add_comm 1]
      rfl
    rw [first, ih]
    simp [Memory.read, List.range_succ_eq_map, Registers.setFrom, Function.comp_def, places]

theorem run_moveIndex (m : Machine) (index : UInt16) (count : Nat) :
    (Writes.moveIndex index count).run m = .ok () { m with registers :=
      if m.dialect.blockMovesIndex then m.registers.setIndex (index + UInt16.ofNat count)
      else m.registers } := by
  simp only [Writes.moveIndex]
  cases moves : m.dialect.blockMovesIndex <;> simp [moves, Writes.setIndex]

theorem holds_pc (condition : Condition) (m : Machine) (a : UInt16) :
    condition.holds { m with pc := a } = condition.holds m := by
  cases condition <;> rfl

theorem offsetTarget_pc (m : Machine) (x : UInt8) (nnn a : UInt16) :
    ({ m with pc := a } : Machine).offsetTarget x nnn = m.offsetTarget x nnn := rfl

theorem perform_of_straight (straight : i.transfers = false) (m : Machine) :
    ∃ next, (perform i).run m = .ok () next := by
  cases i with
  | ret | jump | call | jumpOffset => contradiction
  | skip condition => cases holds : condition.holds m <;> simp [perform, holds, goTo]
  | combine op x y =>
    cases flag : (op.apply m.dialect (m.registers.get x) (m.registers.get y)).2 <;>
      simp [perform, setRegister, setFlag, flag]
  | storeRegisters x => simp [perform, run_storeBlock, run_moveIndex]
  | loadRegisters x => simp [perform, run_loadBlock, run_moveIndex]
  | _ => exact ⟨_, rfl⟩

/- A failure comes before the first write when only the first part can fail, -/
theorem failsFirst_bind {w : Writes α} {k : α → Writes β} (first : FailsFirst w)
    (sure : ∀ a m, ∃ b next, (k a).run m = .ok b next) : FailsFirst (w >>= k) := by
  intro m e next failed
  rw [EStateM.run_bind] at failed
  split at failed
  · rename_i a mid _
    obtain ⟨b, last, done⟩ := sure a mid
    rw [done] at failed
    contradiction
  · rename_i broken
    cases failed
    exact first m e next broken

/- and when the first part only looks at its target. -/
theorem failsFirst_aligned {k : UInt16 → Writes α} (rest : ∀ a, FailsFirst (k a))
    (target : UInt16) : FailsFirst (aligned target >>= k) := by
  intro m e next failed
  rw [EStateM.run_bind, run_aligned] at failed
  by_cases even : target % 2 = 0
  · rw [if_pos even] at failed
    exact rest target m e next failed
  · rw [if_neg even] at failed
    cases failed
    rfl

theorem failsFirst_onStack {change : EStateM CallStack.Failure CallStack α}
    (first : FailsFirst change) : FailsFirst (onStack change) := by
  intro m e next failed
  rw [run_onStack] at failed
  split at failed
  · contradiction
  · rename_i reason stack broken
    cases failed
    rw [first m.stack reason stack broken]

theorem run_goTo (a : UInt16) (m : Machine) : ∃ b next, (goTo a).run m = .ok b next :=
  ⟨(), _, rfl⟩

theorem goTo_failsFirst (a : UInt16) : FailsFirst (goTo a) := by
  intro m e next failed
  contradiction

/-- The instructions that can fail do so before their first write. -/
theorem perform_failsFirst (i : Instruction) : FailsFirst (perform i) := by
  intro m e next failed
  cases straight : i.transfers with
  | false =>
    obtain ⟨done, ran⟩ := perform_of_straight straight m
    rw [ran] at failed
    contradiction
  | true =>
    cases i <;> simp [Instruction.transfers] at straight
    case ret =>
      have popped := failsFirst_onStack CallStack.pop_failsFirst
      exact failsFirst_bind popped (fun a => run_goTo (Layout.wrap a)) m e next failed
    case jump nnn => exact failsFirst_aligned goTo_failsFirst nnn m e next failed
    case call nnn =>
      have pushed := failsFirst_onStack (CallStack.push_failsFirst m.pc)
      exact failsFirst_aligned (fun target => failsFirst_bind pushed fun _ => run_goTo target) nnn
        m e next failed
    case jumpOffset x nnn =>
      exact failsFirst_aligned goTo_failsFirst (m.offsetTarget x nnn) m e next failed

theorem cycleInPlace_of_fault (met : m.cycleInPlace.1 = .fault f) :
    m.cycleInPlace = (.fault f, m) := by
  cases waits : m.waiting with
  | some x => simp [cycleInPlace, waits] at met
  | none =>
    cases decoded : Instruction.decode? m.fetch with
    | none =>
      simp only [cycleInPlace, waits, decoded, Outcome.fault.injEq] at met ⊢
      rw [met]
    | some i =>
      simp only [cycleInPlace, waits, decoded] at met ⊢
      split at met
      · contradiction
      · rename_i e next failed
        cases met
        rw [perform_failsFirst i _ _ _ failed]
        rfl

theorem cyclesInPlace_of_fault (met : m.cycleInPlace.1 = .fault f) (n : Nat) :
    m.cyclesInPlace n = (List.replicate n (.fault f), m) := by
  induction n with
  | zero => rfl
  | succ n ih =>
    simp only [cyclesInPlace, cycleInPlace_of_fault met, ih]
    rfl

theorem perform_of_ok (done : m.execute i = .ok next) :
    (perform i).run m.advanced = .ok () next := by
  cases i with
  | ret =>
    obtain ⟨a, stack, popped, rfl⟩ := goBack_eq_ok_iff.mp done
    simp [perform, run_onStack, CallStack.run_pop, goTo, advanced, popped]
  | jump nnn =>
    obtain ⟨even, rfl⟩ := jump_eq_ok_iff.mp done
    simp [perform, run_aligned, goTo, advanced, uint16_mod_two, even]
  | call nnn =>
    obtain ⟨even, stack, pushed, rfl⟩ := call_eq_ok_iff.mp done
    simp [perform, run_aligned, run_onStack, CallStack.run_push, goTo, advanced, uint16_mod_two,
      even, pushed]
  | jumpOffset x nnn =>
    obtain ⟨even, rfl⟩ := jump_eq_ok_iff.mp done
    simp [perform, run_aligned, goTo, advanced, uint16_mod_two, offsetTarget_pc, even]
  | skip condition =>
    cases Except.ok.inj done
    by_cases holds : condition.holds m <;> simp [perform, holds_pc, holds, goTo, advanced]
  | combine op x y =>
    cases Except.ok.inj done
    cases flag : (op.apply m.dialect (m.registers.get x) (m.registers.get y)).2 <;>
      simp [perform, Machine.combine, setRegister, setFlag, advanced, flag]
  | storeRegisters x =>
    cases Except.ok.inj done
    simp [perform, run_storeBlock, run_moveIndex, advanced, Registers.upTo, Machine.moveIndex]
  | loadRegisters x =>
    cases Except.ok.inj done
    simp [perform, run_loadBlock, run_moveIndex, advanced, Machine.moveIndex]
  | storeDecimal x =>
    cases Except.ok.inj done
    have places : m.registers.index + 1 + 1 = m.registers.index + 2 := UInt16.add_assoc ..
    simp [perform, setByte, Memory.write, advanced, places]
  | _ =>
    cases Except.ok.inj done
    rfl

theorem perform_of_fault (met : m.execute i = .error f) :
    ∃ e next, (perform i).run m.advanced = .error e next ∧ e.fault m.pc = f := by
  rcases execute_eq_error_iff.mp met with ⟨nnn, jumps, odd, rfl⟩ | ⟨x, nnn, rfl, odd, rfl⟩ |
    ⟨nnn, rfl, even, full, rfl⟩ | ⟨rfl, empty, rfl⟩
  · refine ⟨.misaligned nnn, m.advanced, ?_, rfl⟩
    rcases jumps with rfl | rfl <;> simp [perform, run_aligned, uint16_mod_two, odd]
  · refine ⟨.misaligned (m.offsetTarget x nnn), m.advanced, ?_, rfl⟩
    simp [perform, run_aligned, advanced, uint16_mod_two, offsetTarget_pc, odd]
  · refine ⟨.stack .overflow, m.advanced, ?_, rfl⟩
    have refused := (CallStack.push?_eq_none_iff m.stack (after m.pc)).mpr full
    simp [perform, run_aligned, run_onStack, CallStack.run_push, advanced, uint16_mod_two, even,
      refused]
  · refine ⟨.stack .underflow, m.advanced, ?_, rfl⟩
    have refused := (CallStack.pop?_eq_none_iff m.stack).mpr empty
    simp [perform, run_onStack, CallStack.run_pop, advanced, refused]

/-- The cycle with every write in its place is the cycle. -/
theorem cycleInPlace_eq (m : Machine) : m.cycleInPlace = m.cycle := by
  rcases m.cycle_cases with ⟨x, waits, cycled⟩ | ⟨awake, f, cycled⟩ |
    ⟨awake, i, next, decoded, done, cycled⟩
  · simp only [cycled, cycleInPlace, waits]
  · rw [cycled]
    apply cycleInPlace_of_fault
    rcases (cycle_eq_fault_iff awake).mp (by rw [cycled]) with ⟨undefined, rfl⟩ |
      ⟨i, decoded, met⟩
    · simp only [cycleInPlace, awake, undefined]
    · obtain ⟨e, next, failed, rfl⟩ := perform_of_fault met
      simp only [cycleInPlace, awake, decoded, failed]
  · simp only [cycled, cycleInPlace, awake, decoded, perform_of_ok done]

end Machine

end Chip8
