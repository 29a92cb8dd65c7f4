import Chip8.Proofs.Address
import Chip8.Proofs.CallStack

namespace Chip8

def Instruction.transfers : Instruction → Bool
  | .ret | .jump _ | .call _ | .jumpOffset _ _ => true
  | _ => false

def Instruction.takesByte : Instruction → Bool
  | .random _ _ => true
  | _ => false

namespace Registers

@[simp] theorem set_index (r : Registers) (x value : UInt8) : (r.set x value).index = r.index := rfl

@[simp] theorem setFrom_index (r : Registers) (x : UInt8) (values : List UInt8) :
    (r.setFrom x values).index = r.index := by
  induction values generalizing r x with
  | nil => rfl
  | cons value rest ih => rw [setFrom, ih, set_index]

end Registers

namespace Machine

variable {m next : Machine} {i : Instruction} {f : Fault} {target : UInt16}

theorem jump_eq_ok_iff : m.jump target = .ok next ↔
    target.toNat % 2 = 0 ∧ { m with pc := target } = next := by
  rcases Nat.mod_two_eq_zero_or_one target.toNat with even | odd
  · simp [jump, uint16_mod_two, even]
  · simp [jump, uint16_mod_two, odd]

theorem jump_eq_error_iff : m.jump target = .error f ↔
    target.toNat % 2 = 1 ∧ .misalignedJump target m.pc = f := by
  rcases Nat.mod_two_eq_zero_or_one target.toNat with even | odd
  · simp [jump, uint16_mod_two, even]
  · simp [jump, uint16_mod_two, odd]

theorem call_eq_ok_iff : m.call target = .ok next ↔
    target.toNat % 2 = 0 ∧ ∃ stack, m.stack.push? (after m.pc) = some stack ∧
      { m with pc := target, stack } = next := by
  rcases Nat.mod_two_eq_zero_or_one target.toNat with even | odd
  · cases pushed : m.stack.push? (after m.pc) <;> simp [call, uint16_mod_two, even, pushed]
  · simp [call, uint16_mod_two, odd]

theorem call_eq_error_iff : m.call target = .error f ↔
    (target.toNat % 2 = 1 ∧ .misalignedJump target m.pc = f) ∨
      (target.toNat % 2 = 0 ∧ 16 ≤ m.stack.depth ∧ .stackOverflow m.pc = f) := by
  rw [← CallStack.push?_eq_none_iff _ (after m.pc)]
  rcases Nat.mod_two_eq_zero_or_one target.toNat with even | odd
  · cases pushed : m.stack.push? (after m.pc) <;> simp [call, uint16_mod_two, even, pushed]
  · simp [call, uint16_mod_two, odd]

theorem goBack_eq_ok_iff : m.goBack = .ok next ↔
    ∃ a stack, m.stack.pop? = some (a, stack) ∧ { m with pc := Layout.wrap a, stack } = next := by
  rw [goBack]
  rcases m.stack.pop? with _ | ⟨a, stack⟩ <;> simp

theorem goBack_eq_error_iff : m.goBack = .error f ↔
    m.stack.depth = 0 ∧ .stackUnderflow m.pc = f := by
  rw [goBack, ← CallStack.pop?_eq_none_iff]
  rcases m.stack.pop? with _ | ⟨a, stack⟩ <;> simp

/-- An instruction that transfers no control is always carried out. It moves on by one instruction
or by two, and leaves the call stack alone. -/
theorem execute_straight (m : Machine) (straight : i.transfers = false) :
    ∃ next, m.execute i = .ok next ∧ next.stack = m.stack ∧
      (next.pc = after m.pc ∨ next.pc = after (after m.pc)) := by
  cases i with
  | ret | jump | call | jumpOffset => contradiction
  | skip condition =>
    refine ⟨_, rfl, by split <;> rfl, ?_⟩
    split
    · exact .inr rfl
    · exact .inl rfl
  | _ => exact ⟨_, rfl, rfl, .inl rfl⟩

/-- A transfer of control changes the program counter and the call stack and nothing else. -/
theorem execute_transfer (transfer : i.transfers = true) (done : m.execute i = .ok next) :
    ∃ pc stack, next = { m with pc, stack } := by
  cases i with
  | ret =>
    obtain ⟨a, stack, -, rfl⟩ := goBack_eq_ok_iff.mp done
    exact ⟨_, _, rfl⟩
  | jump nnn | jumpOffset x nnn =>
    obtain ⟨-, rfl⟩ := jump_eq_ok_iff.mp done
    exact ⟨_, _, rfl⟩
  | call nnn =>
    obtain ⟨-, stack, -, rfl⟩ := call_eq_ok_iff.mp done
    exact ⟨_, _, rfl⟩
  | _ => contradiction

/-- The faults of execution, and what the machine is like where they are met. -/
theorem execute_eq_error_iff : m.execute i = .error f ↔
    (∃ nnn, (i = .jump nnn ∨ i = .call nnn) ∧ nnn.toNat % 2 = 1 ∧
      .misalignedJump nnn m.pc = f) ∨
    (∃ x nnn, i = .jumpOffset x nnn ∧ (m.offsetTarget x nnn).toNat % 2 = 1 ∧
      .misalignedJump (m.offsetTarget x nnn) m.pc = f) ∨
    (∃ nnn, i = .call nnn ∧ nnn.toNat % 2 = 0 ∧ 16 ≤ m.stack.depth ∧ .stackOverflow m.pc = f) ∨
    (i = .ret ∧ m.stack.depth = 0 ∧ .stackUnderflow m.pc = f) := by
  cases straight : i.transfers with
  | false =>
    obtain ⟨next, done, -, -⟩ := execute_straight m straight
    rw [done]
    cases i <;> simp [Instruction.transfers] at straight ⊢
  | true =>
    cases i <;> simp [Instruction.transfers] at straight
    case ret => simp [execute, goBack_eq_error_iff]
    case jump => simp [execute, jump_eq_error_iff]
    case call => simp [execute, call_eq_error_iff]
    case jumpOffset => simp [execute, jump_eq_error_iff]

@[simp] theorem combine_index (m : Machine) (op : Operation) (x y : UInt8) :
    (m.combine op x y).index = m.registers.index := by
  simp only [combine]
  split <;> rfl

theorem moveIndex_index (dialect : Dialect) (r : Registers) (count : Nat) :
    (moveIndex dialect r count).index = r.index ∨
      ∃ a, (moveIndex dialect r count).index = Layout.wrap a := by
  rw [moveIndex]
  split
  · exact .inr ⟨_, rfl⟩
  · exact .inl rfl

theorem execute_index (done : m.execute i = .ok next) :
    next.registers.index = m.registers.index ∨
      ∃ a, next.registers.index = Layout.wrap a := by
  cases i with
  | ret | jump | call | jumpOffset =>
    obtain ⟨pc, stack, rfl⟩ := execute_transfer rfl done
    exact .inl rfl
  | skip condition =>
    cases Except.ok.inj done
    exact .inl (by split <;> rfl)
  | setIndex | addIndex | pointGlyph =>
    cases Except.ok.inj done
    exact .inr ⟨_, rfl⟩
  | combine op x y =>
    cases Except.ok.inj done
    exact .inl (m.combine_index op x y)
  | storeRegisters x =>
    cases Except.ok.inj done
    exact moveIndex_index m.dialect m.registers (x.toNat + 1)
  | loadRegisters x =>
    cases Except.ok.inj done
    have moved := moveIndex_index m.dialect
      (m.registers.setFrom 0 (m.memory.read m.registers.index (x.toNat + 1))) (x.toNat + 1)
    rwa [Registers.setFrom_index] at moved
  | _ =>
    cases Except.ok.inj done
    exact .inl rfl

/-- Only one instruction makes the machine wait, and it moves on by one instruction and changes
nothing else. -/
theorem execute_waiting (done : m.execute i = .ok next) :
    next.waiting = m.waiting ∨
      ∃ x, i = .awaitKey x ∧ next = { m with pc := after m.pc, waiting := some x } := by
  cases i with
  | ret | jump | call | jumpOffset =>
    obtain ⟨pc, stack, rfl⟩ := execute_transfer rfl done
    exact .inl rfl
  | skip condition =>
    cases Except.ok.inj done
    exact .inl (by split <;> rfl)
  | awaitKey x =>
    cases Except.ok.inj done
    exact .inr ⟨x, rfl, rfl⟩
  | _ =>
    cases Except.ok.inj done
    exact .inl rfl

theorem execute_fixed (done : m.execute i = .ok next) :
    next.keypad = m.keypad ∧ next.dialect = m.dialect := by
  cases i with
  | ret | jump | call | jumpOffset =>
    obtain ⟨pc, stack, rfl⟩ := execute_transfer rfl done
    exact ⟨rfl, rfl⟩
  | skip condition =>
    cases Except.ok.inj done
    split <;> exact ⟨rfl, rfl⟩
  | _ =>
    cases Except.ok.inj done
    exact ⟨rfl, rfl⟩

/-- Only one instruction takes a random byte, and it takes it whatever its operand keeps of it. -/
theorem execute_random (done : m.execute i = .ok next) :
    next.random = if i.takesByte then m.random.advanced else m.random := by
  cases i with
  | ret | jump | call | jumpOffset =>
    obtain ⟨pc, stack, rfl⟩ := execute_transfer rfl done
    rfl
  | skip condition =>
    cases Except.ok.inj done
    split <;> rfl
  | _ =>
    cases Except.ok.inj done
    rfl

end Machine

end Chip8
