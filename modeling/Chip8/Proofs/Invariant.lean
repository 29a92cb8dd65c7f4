import Chip8.Proofs.Decoding
import Chip8.Proofs.Execution
import Chip8.Proofs.Histories

namespace Chip8

/-- An address at which an instruction can lie. -/
def IsPlace (a : UInt16) : Prop :=
  a.toNat % 2 = 0 ∧ a.toNat ≤ 4094

instance : DecidablePred IsPlace := fun _ => inferInstanceAs (Decidable (_ ∧ _))

namespace Machine

/-- What holds of a machine between any two inputs. -/
structure Coherent (m : Machine) : Prop where
  pc : IsPlace m.pc
  index : m.registers.index.toNat ≤ 0xFFF
  depth : m.stack.depth ≤ 16
  addresses : ∀ a ∈ m.stack.toList, IsPlace a
  wait : ∀ x, m.waiting = some x → x.toNat ≤ 15 ∧
    (m.memory.word (Layout.wrap (m.pc - 2))).toNat = 0xF00A + 256 * x.toNat

variable {m next : Machine} {i : Instruction}

theorem isPlace_after {a : UInt16} (place : IsPlace a) : IsPlace (after a) := by
  have even := after_even place.1
  have small := after_lt a
  exact ⟨even, by omega⟩

theorem isPlace_of_even {a : UInt16} (even : a.toNat % 2 = 0) (small : a.toNat < 4096) :
    IsPlace a :=
  ⟨even, by omega⟩

theorem isPlace_wrap {a : UInt16} (place : IsPlace a) : IsPlace (Layout.wrap a) := by
  have small : a.toNat ≤ 4094 := place.2
  rwa [Layout.wrap_of_lt (by omega)]

theorem execute_control (coherent : Coherent m) (decoded : Instruction.decode? m.fetch = some i)
    (done : m.execute i = .ok next) :
    IsPlace next.pc ∧ next.stack.depth ≤ 16 ∧ ∀ a ∈ next.stack.toList, IsPlace a := by
  cases transfer : i.transfers with
  | false =>
    obtain ⟨_, same, stack, pc⟩ := execute_straight m transfer
    cases Except.ok.inj (same.symm.trans done)
    rw [stack]
    refine ⟨?_, coherent.depth, coherent.addresses⟩
    rcases pc with pc | pc
    · exact pc ▸ isPlace_after coherent.pc
    · exact pc ▸ isPlace_after (isPlace_after coherent.pc)
  | true =>
    cases i <;> simp only [Instruction.transfers, Bool.false_eq_true] at transfer
    case ret =>
      obtain ⟨a, stack, popped, rfl⟩ := goBack_eq_ok_iff.mp done
      have stored := CallStack.toList_of_pop coherent.depth popped
      have bounded : stack.depth ≤ 16 := by
        have depth := CallStack.depth_of_pop popped
        have before := coherent.depth
        omega
      have places : ∀ b ∈ stack.toList ++ [a], IsPlace b := stored ▸ coherent.addresses
      refine ⟨isPlace_wrap (places a (by simp)), bounded, ?_⟩
      exact fun b member => places b (List.mem_append_left _ member)
    case jump nnn =>
      obtain ⟨even, rfl⟩ := jump_eq_ok_iff.mp done
      have fits := (Instruction.of_decode? decoded).2
      exact ⟨isPlace_of_even even (Nat.lt_succ_of_le fits), coherent.depth, coherent.addresses⟩
    case call nnn =>
      obtain ⟨even, stack, pushed, rfl⟩ := call_eq_ok_iff.mp done
      have fits := (Instruction.of_decode? decoded).2
      have bounded : stack.depth ≤ 16 := by
        have depth := CallStack.depth_of_push pushed
        omega
      refine ⟨isPlace_of_even even (Nat.lt_succ_of_le fits), bounded, ?_⟩
      rw [CallStack.toList_of_push pushed]
      intro b member
      rcases List.mem_append.mp member with member | member
      · exact coherent.addresses b member
      · exact List.mem_singleton.mp member ▸ isPlace_after coherent.pc
    case jumpOffset x nnn =>
      obtain ⟨even, rfl⟩ := jump_eq_ok_iff.mp done
      exact ⟨isPlace_of_even even (Layout.wrap_lt _), coherent.depth, coherent.addresses⟩

theorem execute_coherent (coherent : Coherent m) (awake : m.waiting = none)
    (decoded : Instruction.decode? m.fetch = some i) (done : m.execute i = .ok next) :
    Coherent next := by
  obtain ⟨pc, depth, addresses⟩ := execute_control coherent decoded done
  refine ⟨pc, ?_, depth, addresses, ?_⟩
  · rcases execute_index done with same | ⟨a, cut⟩
    · exact same ▸ coherent.index
    · exact cut ▸ Nat.le_of_lt_succ (Layout.wrap_lt a)
  · rcases execute_waiting done with same | ⟨x, rfl, rfl⟩
    · intro x waits
      rw [same, awake] at waits
      contradiction
    · intro y waits
      cases Option.some.inj waits
      rw [wrap_after_sub_two, Memory.word_wrap]
      exact Instruction.of_decode?_awaitKey decoded

theorem cycle_coherent (coherent : Coherent m) : Coherent m.cycle.2 := by
  rcases m.cycle_cases with ⟨x, -, same⟩ | ⟨-, f, same⟩ | ⟨awake, i, next, decoded, done, cycled⟩
  · exact same ▸ coherent
  · exact same ▸ coherent
  · exact cycled ▸ execute_coherent coherent awake decoded done

theorem setKey_coherent (coherent : Coherent m) (key : UInt8) (pressed : Bool) :
    Coherent (m.setKey key pressed) := by
  obtain ⟨pc, index, depth, addresses, wait⟩ := coherent
  simp only [setKey]
  split
  · split
    · exact ⟨pc, index, depth, addresses, fun x waits => nomatch waits⟩
    · exact ⟨pc, index, depth, addresses, wait⟩
  · exact ⟨pc, index, depth, addresses, wait⟩

theorem reset_coherent (m : Machine) (rom : Rom) : Coherent (m.reset rom) where
  pc := (by decide : IsPlace Layout.programOrigin)
  index := Nat.zero_le _
  depth := Nat.zero_le _
  addresses := fun _ member => nomatch member
  wait := fun _ waits => nomatch waits

theorem boot_coherent (rom : Rom) (settings : Settings) : Coherent (boot rom settings) :=
  reset_coherent (boot rom settings) rom

theorem feed_coherent (m : Machine) (input : Input) (coherent : Coherent m) :
    Coherent (m.feed input).2 := by
  cases input with
  | cycle => exact cycle_coherent coherent
  | tick => exact ⟨coherent.pc, coherent.index, coherent.depth, coherent.addresses, coherent.wait⟩
  | key key pressed => exact setKey_coherent coherent key pressed
  | reset rom => exact reset_coherent m rom

theorem Reachable.coherent (reachable : m.Reachable) : Coherent m :=
  reachable.induct boot_coherent feed_coherent

/-- Wherever a history leads, the program counter and every stored return address are even and lie
in memory, and a machine that waits stands behind the instruction that made it wait. -/
theorem reachable_bounds (reachable : m.Reachable) :
    m.pc.toNat % 2 = 0 ∧ m.pc.toNat ≤ 4094 ∧ m.registers.index.toNat ≤ 0xFFF ∧
      m.stack.depth ≤ 16 ∧
      (∀ k (slot : k < 16), k < m.stack.depth →
        m.stack.slots[k].toNat % 2 = 0 ∧ m.stack.slots[k].toNat ≤ 4094) ∧
      ∀ x, m.waiting = some x → x.toNat ≤ 15 ∧
        256 * (m.memory.get (Layout.wrap (m.pc - 2))).toNat +
          (m.memory.get (Layout.wrap (m.pc - 2) + 1)).toNat = 0xF00A + 256 * x.toNat := by
  have coherent := reachable.coherent
  refine ⟨coherent.pc.1, coherent.pc.2, coherent.index, coherent.depth, ?_, ?_⟩
  · intro k slot used
    exact coherent.addresses _ (CallStack.slot_mem_toList m.stack slot used)
  · intro x waits
    have wait := coherent.wait x waits
    rw [Memory.toNat_word] at wait
    exact wait

/- A program that calls a subroutine, which waits for a key. -/
def waitInSubroutine : Rom where
  bytes := #[0x22, 0x04, 0x00, 0x00, 0xF3, 0x0A]

def inSubroutine : Machine :=
  { boot waitInSubroutine {} with
    pc := 0x204, stack := ⟨CallStack.empty.slots.set 0 0x202, 1⟩ }

theorem reachable_inSubroutine : inSubroutine.Reachable := by
  have decoded : Instruction.decode? (boot waitInSubroutine {}).fetch = some (.call 0x204) := by
    rw [fetch_of_loaded (m := boot waitInSubroutine {}) waitInSubroutine rfl]
    decide
  have called : (boot waitInSubroutine {}).call 0x204 = .ok inSubroutine :=
    call_eq_ok_iff.mpr ⟨by decide, _, rfl, rfl⟩
  exact (reachable_boot waitInSubroutine {}).executed rfl decoded called

def waitingMachine : Machine :=
  { inSubroutine with pc := 0x206, waiting := some 3 }

theorem reachable_waitingMachine : waitingMachine.Reachable := by
  have decoded : Instruction.decode? inSubroutine.fetch = some (.awaitKey 3) := by
    rw [fetch_of_loaded (m := inSubroutine) waitInSubroutine rfl]
    decide
  exact reachable_inSubroutine.executed rfl decoded rfl

theorem reachable_bounds_waiting : waitingMachine.Reachable ∧ waitingMachine.waiting = some 3 ∧
    waitingMachine.stack.slots[0].toNat % 2 = 0 ∧
    256 * (waitingMachine.memory.get 0x204).toNat + (waitingMachine.memory.get 0x205).toNat =
      0xF00A + 256 * 3 := by
  obtain ⟨-, -, -, -, slots, wait⟩ := reachable_bounds reachable_waitingMachine
  have behind : Layout.wrap (waitingMachine.pc - 2) = 0x204 := by decide
  have word := (wait 3 rfl).2
  rw [behind, show (0x204 : UInt16) + 1 = 0x205 from rfl] at word
  exact ⟨reachable_waitingMachine, rfl, (slots 0 (by decide) (by decide)).1, word⟩

end Machine

end Chip8
