import Chip8.Proofs.Invariant
import Chip8.Proofs.Rollback

namespace Chip8.Machine

/-- The faults that a machine meets in a cycle when it waits for no key. -/
inductive Meets (m : Machine) : Fault → Prop where
  | illegal (undefined : Instruction.decode? m.fetch = none) :
    Meets m (.illegalOpcode m.fetch m.pc)
  | oddTarget (nnn : UInt16) (family : m.fetch.toNat / 4096 = 1 ∨ m.fetch.toNat / 4096 = 2)
    (operand : nnn.toNat = m.fetch.toNat % 4096) (odd : nnn.toNat % 2 = 1) :
    Meets m (.misalignedJump nnn m.pc)
  | oddOffset (x : UInt8) (t : UInt16) (family : m.fetch.toNat / 4096 = 0xB)
    (register : x.toNat = m.fetch.toNat / 256 % 16)
    (sum : t.toNat = (m.fetch.toNat % 4096 +
      (m.registers.get (if m.dialect.offsetReadsX then x else 0)).toNat) % 4096)
    (odd : t.toNat % 2 = 1) : Meets m (.misalignedJump t m.pc)
  | full (family : m.fetch.toNat / 4096 = 2) (even : m.fetch.toNat % 2 = 0)
    (depth : m.stack.depth = 16) : Meets m (.stackOverflow m.pc)
  | empty (word : m.fetch = 0x00EE) (depth : m.stack.depth = 0) : Meets m (.stackUnderflow m.pc)

variable {m : Machine} {i : Instruction} {f : Fault}

theorem meets_of_error (coherent : Coherent m) (decoded : Instruction.decode? m.fetch = some i)
    (failed : m.execute i = .error f) : Meets m f := by
  rcases execute_eq_error_iff.mp failed with ⟨nnn, jumps, odd, rfl⟩ | ⟨x, nnn, rfl, odd, rfl⟩ |
    ⟨nnn, rfl, even, full, rfl⟩ | ⟨rfl, empty, rfl⟩
  · rcases jumps with rfl | rfl
    · have parts := Instruction.decode?_jump_iff.mp decoded
      exact .oddTarget nnn (.inl parts.1) parts.2 odd
    · have parts := Instruction.decode?_call_iff.mp decoded
      exact .oddTarget nnn (.inr parts.1) parts.2 odd
  · obtain ⟨family, operand, register⟩ := Instruction.decode?_jumpOffset_iff.mp decoded
    refine .oddOffset x _ family register ?_ odd
    rw [toNat_offsetTarget, operand]
  · obtain ⟨family, operand⟩ := Instruction.decode?_call_iff.mp decoded
    have bounded : m.stack.depth ≤ 16 := coherent.depth
    exact .full family (by omega) (by omega)
  · exact .empty (Instruction.decode?_ret_iff.mp decoded) empty

theorem fault_of_meets (awake : m.waiting = none) (meets : Meets m f) : m.cycle.1 = .fault f := by
  rw [cycle_eq_fault_iff awake]
  cases meets with
  | illegal undefined => exact .inl ⟨undefined, rfl⟩
  | oddTarget nnn family operand odd =>
    refine .inr ?_
    rcases family with family | family
    · exact ⟨.jump nnn, Instruction.decode?_jump_iff.mpr ⟨family, operand⟩,
        execute_eq_error_iff.mpr (.inl ⟨nnn, .inl rfl, odd, rfl⟩)⟩
    · exact ⟨.call nnn, Instruction.decode?_call_iff.mpr ⟨family, operand⟩,
        execute_eq_error_iff.mpr (.inl ⟨nnn, .inr rfl, odd, rfl⟩)⟩
  | oddOffset x t family register sum odd =>
    have operand := Word.toNat_lastThree m.fetch
    have target : m.offsetTarget x (m.fetch &&& 0xFFF) = t := by
      apply UInt16.toNat_inj.mp
      rw [toNat_offsetTarget, operand, sum]
    exact .inr ⟨.jumpOffset x _, Instruction.decode?_jumpOffset_iff.mpr ⟨family, operand, register⟩,
      execute_eq_error_iff.mpr (.inr (.inl ⟨x, _, rfl, target ▸ odd, target ▸ rfl⟩))⟩
  | full family even depth =>
    have operand := Word.toNat_lastThree m.fetch
    exact .inr ⟨.call _, Instruction.decode?_call_iff.mpr ⟨family, operand⟩,
      execute_eq_error_iff.mpr (.inr (.inr (.inl ⟨_, rfl, by omega, by omega, rfl⟩)))⟩
  | empty word depth =>
    exact .inr ⟨.ret, Instruction.decode?_ret_iff.mpr word,
      execute_eq_error_iff.mpr (.inr (.inr (.inr ⟨rfl, depth, rfl⟩)))⟩

theorem cycle_eq_fault_iff_meets (coherent : Coherent m) (awake : m.waiting = none) :
    m.cycle.1 = .fault f ↔ Meets m f := by
  constructor
  · intro met
    rcases (cycle_eq_fault_iff awake).mp met with ⟨undefined, rfl⟩ | ⟨i, decoded, failed⟩
    · exact .illegal undefined
    · exact meets_of_error coherent decoded failed
  · exact fault_of_meets awake

/-- A machine that waits for no key meets a fault in a cycle exactly where `Meets` says so, and
carries out the decoded instruction otherwise. With every write of the cycle in its place, a failed
instruction has written nothing and a fault leaves the machine as it was, so that it is met again in
every further cycle. -/
theorem cycle_faults_exactly (reachable : m.Reachable) (awake : m.waiting = none) :
    (∀ f, m.cycle.1 = .fault f ↔ Meets m f) ∧
    ((∀ f, ¬ Meets m f) →
      ∃ i, Instruction.decode? m.fetch = some i ∧ m.cycle.1 = .executed i) ∧
    m.cycleInPlace = m.cycle ∧
    (∀ i e next, Instruction.decode? m.fetch = some i →
      (Writes.perform i).run m.advanced = .error e next → next = m.advanced) ∧
    ∀ f, m.cycleInPlace.1 = .fault f → m.cycleInPlace.2 = m ∧
      ∀ n, m.cyclesInPlace n = (List.replicate n (.fault f), m) ∧
        m.run (List.replicate n .cycle) = (List.replicate n (.fault f), m) := by
  refine ⟨fun f => cycle_eq_fault_iff_meets reachable.coherent awake, ?_, cycleInPlace_eq m, ?_, ?_⟩
  · intro none
    rcases m.cycle_cases with ⟨x, waits, -⟩ | ⟨-, f, cycled⟩ | ⟨-, i, next, decoded, -, cycled⟩
    · rw [awake] at waits
      contradiction
    · have meets := (cycle_eq_fault_iff_meets reachable.coherent awake).mp (by rw [cycled])
      exact absurd meets (none f)
    · exact ⟨i, decoded, by rw [cycled]⟩
  · intro i e next _ failed
    exact perform_failsFirst i m.advanced e next failed
  · intro f met
    have fixed := cycleInPlace_of_fault met
    refine ⟨by rw [fixed], fun n => ⟨cyclesInPlace_of_fault met n, ?_⟩⟩
    exact run_cycles_of_fixed (m.cycleInPlace_eq ▸ fixed) n

/- A program that sets register 2 and jumps by it to an odd address. -/
def oddOffsetJump : Rom where
  bytes := #[0x62, 0x05, 0xB2, 0x04]

def readsX : Settings where
  dialect := { offsetReadsX := true }

def beforeOddJump : Machine :=
  { boot oddOffsetJump readsX with pc := 0x202, registers := Registers.zero.set 2 5 }

theorem reachable_beforeOddJump : beforeOddJump.Reachable := by
  have decoded : Instruction.decode? (boot oddOffsetJump readsX).fetch = some (.load 2 5) := by
    rw [fetch_of_loaded (m := boot oddOffsetJump readsX) oddOffsetJump rfl]
    decide
  exact (reachable_boot oddOffsetJump readsX).executed rfl decoded rfl

theorem cycle_faults_at_odd_offset : beforeOddJump.Reachable ∧ beforeOddJump.waiting = none ∧
    beforeOddJump.cycleInPlace = (.fault (.misalignedJump 0x209 0x202), beforeOddJump) ∧
    ∀ n, beforeOddJump.run (List.replicate n .cycle) =
      (List.replicate n (.fault (.misalignedJump 0x209 0x202)), beforeOddJump) := by
  have word : beforeOddJump.fetch = 0xB204 := by
    rw [fetch_of_loaded (m := beforeOddJump) oddOffsetJump rfl]
    decide
  have meets : Meets beforeOddJump (.misalignedJump 0x209 0x202) :=
    .oddOffset 2 0x209 (by rw [word]; decide) (by rw [word]; decide) (by rw [word]; decide)
      (by decide)
  obtain ⟨exact_faults, -, same, -, kept⟩ := cycle_faults_exactly reachable_beforeOddJump rfl
  have met : beforeOddJump.cycleInPlace.1 = .fault (.misalignedJump 0x209 0x202) :=
    same ▸ (exact_faults _).mpr meets
  obtain ⟨unchanged, again⟩ := kept _ met
  exact ⟨reachable_beforeOddJump, rfl, Prod.ext met unchanged, fun n => (again n).2⟩

end Chip8.Machine
