import Chip8.Machine.History
import Chip8.Proofs.Address

namespace Chip8.Machine

variable {m next : Machine} {i : Instruction} {f : Fault} {x : UInt8}

theorem fetch_of_loaded (rom : Rom) (loaded : m.memory = .ofRom rom) :
    m.fetch = (Memory.initial rom (m.pc.toNat % 4096)).toUInt16 <<< 8 |||
      (Memory.initial rom ((m.pc + 1).toNat % 4096)).toUInt16 := by
  rw [fetch, loaded, Memory.word_ofRom]

theorem cycle_of_waiting (waits : m.waiting = some x) : m.cycle = (.waiting, m) := by
  simp only [cycle, waits]

theorem cycle_of_illegal (awake : m.waiting = none) (illegal : Instruction.decode? m.fetch = none) :
    m.cycle = (.fault (.illegalOpcode m.fetch m.pc), m) := by
  simp only [cycle, awake, illegal]

theorem cycle_of_error (awake : m.waiting = none) (decoded : Instruction.decode? m.fetch = some i)
    (failed : m.execute i = .error f) : m.cycle = (.fault f, m) := by
  simp only [cycle, awake, decoded, failed]

theorem cycle_of_ok (awake : m.waiting = none) (decoded : Instruction.decode? m.fetch = some i)
    (done : m.execute i = .ok next) : m.cycle = (.executed i, next) := by
  simp only [cycle, awake, decoded, done]

theorem cycle_cases (m : Machine) :
    (∃ x, m.waiting = some x ∧ m.cycle = (.waiting, m)) ∨
    (m.waiting = none ∧ ∃ f, m.cycle = (.fault f, m)) ∨
    (m.waiting = none ∧ ∃ i next, Instruction.decode? m.fetch = some i ∧
      m.execute i = .ok next ∧ m.cycle = (.executed i, next)) := by
  cases waits : m.waiting with
  | some x => exact .inl ⟨x, rfl, cycle_of_waiting waits⟩
  | none =>
    refine .inr ?_
    cases decoded : Instruction.decode? m.fetch with
    | none => exact .inl ⟨rfl, _, cycle_of_illegal waits decoded⟩
    | some i =>
      cases done : m.execute i with
      | error f => exact .inl ⟨rfl, f, cycle_of_error waits decoded done⟩
      | ok next => exact .inr ⟨rfl, i, next, rfl, done, cycle_of_ok waits decoded done⟩

theorem of_cycle_executed (cycled : m.cycle = (.executed i, next)) :
    m.waiting = none ∧ Instruction.decode? m.fetch = some i ∧ m.execute i = .ok next := by
  rcases m.cycle_cases with ⟨x, -, same⟩ | ⟨-, f, same⟩ | ⟨awake, j, other, decoded, done, same⟩
  · cases same.symm.trans cycled
  · cases same.symm.trans cycled
  · cases same.symm.trans cycled
    exact ⟨awake, decoded, done⟩

theorem cycle_eq_fault_iff (awake : m.waiting = none) : m.cycle.1 = .fault f ↔
    (Instruction.decode? m.fetch = none ∧ .illegalOpcode m.fetch m.pc = f) ∨
      ∃ i, Instruction.decode? m.fetch = some i ∧ m.execute i = .error f := by
  cases decoded : Instruction.decode? m.fetch with
  | none => simp [cycle_of_illegal awake decoded]
  | some i =>
    cases done : m.execute i with
    | error g => simp [cycle_of_error awake decoded done, done]
    | ok next => simp [cycle_of_ok awake decoded done, done]

theorem cycle_of_fault (met : m.cycle.1 = .fault f) : m.cycle = (.fault f, m) := by
  rcases m.cycle_cases with ⟨x, -, cycled⟩ | ⟨-, g, cycled⟩ | ⟨-, i, next, -, -, cycled⟩
  · rw [cycled] at met
    contradiction
  · rw [cycled] at met
    cases Outcome.fault.inj met
    exact cycled
  · rw [cycled] at met
    contradiction

/-- A key changes the keypad and, where it ends a wait, the register that waited; nothing else. -/
theorem setKey_frame (m : Machine) (key : UInt8) (pressed : Bool) :
    ∃ keypad registers waiting,
      m.setKey key pressed = { m with keypad, registers, waiting } := by
  unfold setKey
  split
  · split
    · exact ⟨_, _, _, rfl⟩
    · exact ⟨_, m.registers, m.waiting, rfl⟩
  · exact ⟨_, m.registers, m.waiting, rfl⟩

@[simp] theorem run_nil (m : Machine) : m.run [] = ([], m) := rfl

theorem run_cons (m : Machine) (input : Input) (rest : List Input) :
    m.run (input :: rest) = ((m.feed input).1.toList ++ ((m.feed input).2.run rest).1,
      ((m.feed input).2.run rest).2) := rfl

theorem feed_cycle (m : Machine) : m.feed .cycle = (some m.cycle.1, m.cycle.2) := rfl

theorem noReset_cons {input : Input} {rest : List Input} :
    (∀ rom, .reset rom ∉ input :: rest) ↔
      (∀ rom, input ≠ .reset rom) ∧ ∀ rom, .reset rom ∉ rest := by
  simp only [List.mem_cons, not_or, forall_and, ne_eq, eq_comm]

theorem run_append (m : Machine) (first second : List Input) :
    m.run (first ++ second) = ((m.run first).1 ++ ((m.run first).2.run second).1,
      ((m.run first).2.run second).2) := by
  induction first generalizing m with
  | nil => rfl
  | cons input rest ih =>
    rw [List.cons_append, run_cons, ih, run_cons]
    simp only [List.append_assoc]

theorem run_cycles_of_fixed {o : Outcome} (fixed : m.cycle = (o, m)) (n : Nat) :
    m.run (List.replicate n .cycle) = (List.replicate n o, m) := by
  induction n with
  | zero => rfl
  | succ n ih =>
    rw [List.replicate_succ, run_cons, feed_cycle, fixed, ih]
    rfl

theorem run_keeps {P : Machine → Prop} (kept : ∀ m input, P m → P (m.feed input).2)
    (inputs : List Input) (holds : P m) : P (m.run inputs).2 := by
  induction inputs generalizing m with
  | nil => exact holds
  | cons input rest ih => exact ih (kept m input holds)

/-- What holds at power-on and is kept by every input holds of every machine that some history
leads to. -/
theorem Reachable.induct {P : Machine → Prop} (booted : ∀ rom settings, P (boot rom settings))
    (kept : ∀ m input, P m → P (m.feed input).2) (reachable : m.Reachable) : P m := by
  obtain ⟨rom, settings, inputs, rfl⟩ := reachable
  exact run_keeps kept inputs (booted rom settings)

theorem reachable_boot (rom : Rom) (settings : Settings) : (boot rom settings).Reachable :=
  ⟨rom, settings, [], rfl⟩

theorem Reachable.feed (reachable : m.Reachable) (input : Input) : (m.feed input).2.Reachable := by
  obtain ⟨rom, settings, inputs, rfl⟩ := reachable
  exact ⟨rom, settings, inputs ++ [input], by rw [run_append]; rfl⟩

theorem Reachable.executed (reachable : m.Reachable) (awake : m.waiting = none)
    (decoded : Instruction.decode? m.fetch = some i) (done : m.execute i = .ok next) :
    next.Reachable := by
  have fed := reachable.feed .cycle
  rwa [feed_cycle, cycle_of_ok awake decoded done] at fed

end Chip8.Machine
