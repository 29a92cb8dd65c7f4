import Chip8.Proofs.Events

/-!
# What a dialect decides

Each choice of a dialect is about a few instructions, and the ones that choose between two registers
read the same where the registers hold the same. A run that never comes to an instruction that two
dialects read in two ways is the same run in both of them.
-/

namespace Chip8.Machine

def speaking (m : Machine) (dialect : Dialect) : Machine :=
  { m with dialect }

/-- The instructions that the dialect of the machine and the other dialect read in two ways. -/
inductive Disputes (m : Machine) (other : Dialect) : Instruction → Prop where
  | shift (op : Operation) (x y : UInt8) (shifts : op = .shiftRight ∨ op = .shiftLeft)
    (reading : m.dialect.shiftReadsY ≠ other.shiftReadsY)
    (contents : m.registers.get x ≠ m.registers.get y) : Disputes m other (.combine op x y)
  | logic (op : Operation) (x y : UInt8) (bitwise : op = .or ∨ op = .and ∨ op = .xor)
    (reading : m.dialect.logicClearsFlag ≠ other.logicClearsFlag) :
    Disputes m other (.combine op x y)
  | store (x : UInt8) (reading : m.dialect.blockMovesIndex ≠ other.blockMovesIndex) :
    Disputes m other (.storeRegisters x)
  | load (x : UInt8) (reading : m.dialect.blockMovesIndex ≠ other.blockMovesIndex) :
    Disputes m other (.loadRegisters x)
  | offset (x : UInt8) (nnn : UInt16) (reading : m.dialect.offsetReadsX ≠ other.offsetReadsX)
    (contents : m.registers.get x ≠ m.registers.get 0) : Disputes m other (.jumpOffset x nnn)

def Undisputed (m : Machine) (other : Dialect) : Prop :=
  m.waiting = none → ∀ i, Instruction.decode? m.fetch = some i → ¬ m.Disputes other i

variable {m n : Machine} {d : Dialect} {op : Operation} {x y : UInt8} {nnn : UInt16}
  {i : Instruction} {input : Input}

theorem undisputed_of_decoded (decoded : Instruction.decode? m.fetch = some i)
    (agreed : ¬ m.Disputes d i) : m.Undisputed d := by
  intro _ j same
  cases Option.some.inj (decoded.symm.trans same)
  exact agreed

theorem undisputed_of_illegal (illegal : Instruction.decode? m.fetch = none) : m.Undisputed d := by
  intro _ i decoded
  rw [illegal] at decoded
  contradiction

theorem apply_speaking (undisputed : ¬ m.Disputes d (.combine op x y)) :
    op.apply d (m.registers.get x) (m.registers.get y) =
      op.apply m.dialect (m.registers.get x) (m.registers.get y) := by
  cases op with
  | copy | add | sub | subFrom => rfl
  | or | and | xor =>
    have same : m.dialect.logicClearsFlag = d.logicClearsFlag := by
      by_contra reading
      exact undisputed (.logic _ x y (by simp) reading)
    simp only [Operation.apply, same]
  | shiftRight | shiftLeft =>
    by_cases reading : m.dialect.shiftReadsY = d.shiftReadsY
    · simp only [Operation.apply, reading]
    · have contents : m.registers.get x = m.registers.get y := by
        by_contra contents
        exact undisputed (.shift _ x y (by simp) reading contents)
      simp only [Operation.apply, contents, ite_self]

theorem combine_speaking (undisputed : ¬ m.Disputes d (.combine op x y)) :
    (m.speaking d).combine op x y = m.combine op x y := by
  simp only [combine, speaking, apply_speaking undisputed]

theorem offsetTarget_speaking (undisputed : ¬ m.Disputes d (.jumpOffset x nnn)) :
    (m.speaking d).offsetTarget x nnn = m.offsetTarget x nnn := by
  have register : (m.speaking d).registers.get
        (if (m.speaking d).dialect.offsetReadsX then x else 0) =
      m.registers.get (if m.dialect.offsetReadsX then x else 0) := by
    change m.registers.get (if d.offsetReadsX then x else 0) = _
    by_cases reading : m.dialect.offsetReadsX = d.offsetReadsX
    · rw [reading]
    · have contents : m.registers.get x = m.registers.get 0 := by
        by_contra contents
        exact undisputed (.offset x nnn reading contents)
      split <;> split <;> simp only [contents]
  simp only [offsetTarget, register]

theorem moveIndex_speaking {one other : Dialect}
    (same : one.blockMovesIndex = other.blockMovesIndex) (r : Registers) (count : Nat) :
    moveIndex one r count = moveIndex other r count := by
  simp only [moveIndex, same]

theorem jump_speaking (target : UInt16) :
    (m.speaking d).jump target = (m.jump target).map (·.speaking d) := by
  simp only [jump]
  split <;> rfl

theorem call_speaking (target : UInt16) :
    (m.speaking d).call target = (m.call target).map (·.speaking d) := by
  have pushed : (m.speaking d).stack.push? (after (m.speaking d).pc) =
      m.stack.push? (after m.pc) := rfl
  simp only [call, pushed]
  split
  · split <;> rfl
  · rfl

theorem goBack_speaking : (m.speaking d).goBack = m.goBack.map (·.speaking d) := by
  have popped : (m.speaking d).stack.pop? = m.stack.pop? := rfl
  simp only [goBack, popped]
  split <;> rfl

theorem execute_speaking (undisputed : ¬ m.Disputes d i) :
    (m.speaking d).execute i = (m.execute i).map (·.speaking d) := by
  cases i with
  | ret => exact goBack_speaking
  | jump nnn => exact jump_speaking nnn
  | call nnn => exact call_speaking nnn
  | jumpOffset x nnn =>
    simp only [execute, offsetTarget_speaking undisputed]
    exact jump_speaking (m.offsetTarget x nnn)
  | skip condition =>
    have same : condition.holds (m.speaking d) = condition.holds m := by cases condition <;> rfl
    simp only [execute, same]
    split <;> rfl
  | combine op x y =>
    simp only [execute, combine_speaking undisputed]
    rfl
  | storeRegisters x =>
    have same : d.blockMovesIndex = m.dialect.blockMovesIndex := by
      by_contra reading
      exact undisputed (.store x (Ne.symm reading))
    simp only [execute, speaking, moveIndex_speaking same]
    rfl
  | loadRegisters x =>
    have same : d.blockMovesIndex = m.dialect.blockMovesIndex := by
      by_contra reading
      exact undisputed (.load x (Ne.symm reading))
    simp only [execute, speaking, moveIndex_speaking same]
    rfl
  | _ => rfl

theorem cycle_speaking (undisputed : m.Undisputed d) :
    (m.speaking d).cycle = (m.cycle.1, m.cycle.2.speaking d) := by
  cases waits : m.waiting with
  | some x =>
    rw [cycle_of_waiting waits]
    exact cycle_of_waiting (m := m.speaking d) waits
  | none =>
    cases decoded : Instruction.decode? m.fetch with
    | none =>
      rw [cycle_of_illegal waits decoded]
      exact cycle_of_illegal (m := m.speaking d) waits decoded
    | some i =>
      have same := execute_speaking (undisputed waits i decoded)
      cases done : m.execute i with
      | error f =>
        rw [done] at same
        rw [cycle_of_error waits decoded done]
        exact cycle_of_error (m := m.speaking d) waits decoded same
      | ok next =>
        rw [done] at same
        rw [cycle_of_ok waits decoded done]
        exact cycle_of_ok (m := m.speaking d) waits decoded same

theorem setKey_speaking (m : Machine) (d : Dialect) (key : UInt8) (pressed : Bool) :
    (m.speaking d).setKey key pressed = (m.setKey key pressed).speaking d := by
  have down : (m.speaking d).goesDown key pressed = m.goesDown key pressed := rfl
  cases waits : m.waiting <;> simp only [setKey, down] <;> simp only [speaking, waits]
  split <;> rfl

theorem feed_speaking (undisputed : input = .cycle → m.Undisputed d) :
    (m.speaking d).feed input = ((m.feed input).1, (m.feed input).2.speaking d) := by
  cases input with
  | cycle => simp only [feed_cycle, cycle_speaking (undisputed rfl)]
  | tick => rfl
  | key key pressed => simp only [feed, setKey_speaking]
  | reset rom => rfl

theorem run_speaking {inputs : List Input}
    (undisputed : ∀ before ∈ m.atCycles inputs, before.Undisputed d) :
    (m.speaking d).run inputs = ((m.run inputs).1, (m.run inputs).2.speaking d) := by
  induction inputs generalizing m with
  | nil => rfl
  | cons input rest ih =>
    have now : input = .cycle → m.Undisputed d := by
      rintro rfl
      exact undisputed m List.mem_cons_self
    have later : ∀ before ∈ (m.feed input).2.atCycles rest, before.Undisputed d := by
      intro before member
      apply undisputed
      cases input with
      | cycle => exact List.mem_cons_of_mem _ member
      | tick | key | reset => exact member
    rw [run_cons, feed_speaking now, ih later, run_cons]

/-- Two machines that differ in nothing but their dialects have the same outcomes, and end in
machines that differ in nothing else, unless the first comes to an instruction that the two dialects
read in two ways. -/
theorem dialect_decides_only_disputes (twins : n = { m with dialect := n.dialect })
    (inputs : List Input)
    (undisputed : ∀ before ∈ m.atCycles inputs, before.Undisputed n.dialect) :
    (n.run inputs).1 = (m.run inputs).1 ∧
      (n.run inputs).2 = { (m.run inputs).2 with dialect := n.dialect } := by
  have spoken : n = m.speaking n.dialect := twins
  have ran := run_speaking undisputed
  rw [← spoken] at ran
  rw [ran]
  exact ⟨rfl, rfl⟩

/- A program that jumps by register 0 or 2, shifts register 0 or 1 and then has no instruction. All
registers hold 0. -/
def jumpAndShift : Rom where
  bytes := #[0xB2, 0x02, 0x80, 0x16]

def otherReadings : Settings where
  dialect :=
    { shiftReadsY := true, blockMovesIndex := true, offsetReadsX := true, logicClearsFlag := true }

def beforeShift : Machine :=
  { boot jumpAndShift {} with pc := 0x202 }

def shifted : Machine :=
  { boot jumpAndShift {} with pc := 0x204 }

theorem dialect_decides_only_disputes_equal_registers :
    boot jumpAndShift otherReadings =
      { boot jumpAndShift {} with dialect := otherReadings.dialect } ∧
    ((boot jumpAndShift otherReadings).run [.cycle, .tick, .cycle, .key 3 false, .cycle]).1 =
      [.executed (.jumpOffset 2 0x202), .executed (.combine .shiftRight 0 1),
        .fault (.illegalOpcode 0 0x204)] ∧
    ((boot jumpAndShift otherReadings).run [.cycle, .tick, .cycle, .key 3 false, .cycle]).2 =
      { shifted with dialect := otherReadings.dialect } := by
  have twins : boot jumpAndShift otherReadings =
      { boot jumpAndShift {} with dialect := otherReadings.dialect } := rfl
  have atStart : Instruction.decode? (boot jumpAndShift {}).fetch = some (.jumpOffset 2 0x202) := by
    rw [fetch_of_loaded (m := boot jumpAndShift {}) jumpAndShift rfl]
    decide
  have atShift : Instruction.decode? beforeShift.fetch = some (.combine .shiftRight 0 1) := by
    rw [fetch_of_loaded (m := beforeShift) jumpAndShift rfl]
    decide
  have nothing : shifted.fetch = 0 := by
    rw [fetch_of_loaded (m := shifted) jumpAndShift rfl]
    decide
  have jumped : (boot jumpAndShift {}).execute (.jumpOffset 2 0x202) = .ok beforeShift :=
    (jump_eq_ok_iff (m := boot jumpAndShift {})).mpr ⟨by decide, rfl⟩
  have shifts : beforeShift.execute (.combine .shiftRight 0 1) = .ok shifted := by
    have halved : beforeShift.combine .shiftRight 0 1 = Registers.zero := by decide
    simp only [execute, halved]
    rfl
  have first : (boot jumpAndShift {}).feed .cycle =
      (some (.executed (.jumpOffset 2 0x202)), beforeShift) := by
    rw [feed_cycle, cycle_of_ok rfl atStart jumped]
  have still : beforeShift.feed .tick = (none, beforeShift) := rfl
  have second : beforeShift.feed .cycle =
      (some (.executed (.combine .shiftRight 0 1)), shifted) := by
    rw [feed_cycle, cycle_of_ok rfl atShift shifts]
  have up : shifted.feed (.key 3 false) = (none, shifted) := rfl
  have third : shifted.feed .cycle = (some (.fault (.illegalOpcode 0 0x204)), shifted) := by
    rw [feed_cycle, cycle_of_illegal rfl (by rw [nothing]; decide), nothing]
    rfl
  have ran : (boot jumpAndShift {}).run [.cycle, .tick, .cycle, .key 3 false, .cycle] =
      ([.executed (.jumpOffset 2 0x202), .executed (.combine .shiftRight 0 1),
        .fault (.illegalOpcode 0 0x204)], shifted) := by
    rw [run_cons, first, run_cons, still, run_cons, second, run_cons, up, run_cons, third, run_nil]
    rfl
  have undisputed : ∀ before ∈ (boot jumpAndShift {}).atCycles
      [.cycle, .tick, .cycle, .key 3 false, .cycle], before.Undisputed otherReadings.dialect := by
    simp only [atCycles, first, still, second, up, List.forall_mem_cons]
    refine ⟨undisputed_of_decoded atStart ?_, undisputed_of_decoded atShift ?_,
      undisputed_of_illegal (by rw [nothing]; decide), by simp⟩
    · rintro (_ | _ | _ | _ | ⟨_, _, _, contents⟩)
      exact contents (by decide)
    · rintro (⟨_, _, _, _, _, contents⟩ | ⟨_, _, _, bitwise, _⟩)
      · exact contents (by decide)
      · simp at bitwise
  have same := dialect_decides_only_disputes twins _ undisputed
  rw [ran] at same
  exact ⟨twins, same⟩

end Chip8.Machine
