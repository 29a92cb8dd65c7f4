import Chip8.Proofs.Digits
import Chip8.Proofs.Invariant

namespace Chip8

namespace Condition

/-- What a skip looks for, said of the registers and of the sixteen keys. -/
def Met (m : Machine) : Condition → Prop
  | .equalsByte x kk => m.registers.get x = kk
  | .differsFromByte x kk => m.registers.get x ≠ kk
  | .equals x y => m.registers.get x = m.registers.get y
  | .differs x y => m.registers.get x ≠ m.registers.get y
  | .pressed x => m.keypad.isHeld (m.registers.get x % 16) = true
  | .released x => m.keypad.isHeld (m.registers.get x % 16) = false

def opposite : Condition → Condition
  | .equalsByte x kk => .differsFromByte x kk
  | .differsFromByte x kk => .equalsByte x kk
  | .equals x y => .differs x y
  | .differs x y => .equals x y
  | .pressed x => .released x
  | .released x => .pressed x

theorem holds_iff_met (m : Machine) (c : Condition) : c.holds m = true ↔ c.Met m := by
  cases c with
  | equalsByte | differsFromByte | equals | differs => exact decide_eq_true_iff
  | pressed x => rw [holds, Met, Keypad.isHeld_mod]
  | released x => rw [holds, Met, Keypad.isHeld_mod, Bool.not_eq_true']

instance (m : Machine) : DecidablePred (Met m) :=
  fun c => decidable_of_iff _ (holds_iff_met m c)

theorem met_opposite_iff (m : Machine) (c : Condition) : c.opposite.Met m ↔ ¬ c.Met m := by
  cases c with
  | equalsByte | equals => exact Iff.rfl
  | differsFromByte | differs => exact not_ne_iff.symm
  | pressed => exact (Bool.not_eq_true _).symm ▸ Iff.rfl
  | released => exact (Bool.not_eq_false _).symm ▸ Iff.rfl

end Condition

namespace CallStack

variable {s t : CallStack} {a : UInt16}

/-- The addresses that are stored, as numbers, the latest first. -/
def latestFirst (s : CallStack) : List Nat :=
  (s.toList.map UInt16.toNat).reverse

theorem latestFirst_of_push (pushed : s.push? a = some t) :
    t.latestFirst = a.toNat :: s.latestFirst := by
  unfold latestFirst
  rw [toList_of_push pushed, List.map_append, List.reverse_append]
  rfl

theorem latestFirst_of_pop (bounded : s.depth ≤ 16) (popped : s.pop? = some (a, t)) :
    s.latestFirst = a.toNat :: t.latestFirst := by
  unfold latestFirst
  rw [toList_of_pop bounded popped, List.map_append, List.reverse_append]
  rfl

end CallStack

namespace Machine

variable {m next : Machine} {i : Instruction}

/-- The return addresses of the calls that are open after an input, the latest first. -/
def callsAfter (m : Machine) (calls : List Nat) : Input → List Nat
  | .cycle =>
    match m.cycle.1 with
    | .executed (.call _) => (m.pc.toNat + 2) % 4096 :: calls
    | .executed .ret => calls.tail
    | _ => calls
  | .tick | .key _ _ => calls
  | .reset _ => []

/-- The return addresses of the calls that are open after a history. -/
def openCalls (m : Machine) (calls : List Nat) : List Input → List Nat
  | [] => calls
  | input :: rest => (m.feed input).2.openCalls (m.callsAfter calls input) rest

theorem callsAfter_of_executed (coherent : Coherent m) (cycled : m.cycle = (.executed i, next)) :
    m.callsAfter m.stack.latestFirst .cycle = next.stack.latestFirst := by
  obtain ⟨-, -, done⟩ := of_cycle_executed cycled
  unfold callsAfter
  rw [cycled]
  cases transfer : i.transfers with
  | false =>
    obtain ⟨_, same, stack, -⟩ := m.execute_straight transfer
    cases Except.ok.inj (same.symm.trans done)
    rw [stack]
    cases i with
    | call | ret => contradiction
    | _ => rfl
  | true =>
    cases i with
    | call nnn =>
      obtain ⟨-, stack, pushed, rfl⟩ := call_eq_ok_iff.mp done
      simp only [CallStack.latestFirst_of_push pushed, toNat_after]
    | ret =>
      obtain ⟨a, stack, popped, rfl⟩ := goBack_eq_ok_iff.mp done
      simp only [CallStack.latestFirst_of_pop coherent.depth popped, List.tail_cons]
    | jump | jumpOffset =>
      obtain ⟨-, rfl⟩ := jump_eq_ok_iff.mp done
      rfl
    | _ => contradiction

/- The call stack always holds just the addresses of the calls that are open. -/
theorem callsAfter_eq (coherent : Coherent m) (input : Input) :
    m.callsAfter m.stack.latestFirst input = (m.feed input).2.stack.latestFirst := by
  cases input with
  | cycle =>
    rw [feed_cycle]
    rcases m.cycle_cases with ⟨x, -, cycled⟩ | ⟨-, f, cycled⟩ | ⟨-, i, next, -, -, cycled⟩
    · rw [callsAfter, cycled]
    · rw [callsAfter, cycled]
    · rw [callsAfter_of_executed coherent cycled, cycled]
  | tick => rfl
  | key key pressed =>
    obtain ⟨keypad, registers, waiting, keyed⟩ := m.setKey_frame key pressed
    rw [feed, keyed]
    rfl
  | reset rom => rfl

theorem openCalls_eq (coherent : Coherent m) (inputs : List Input) :
    m.openCalls m.stack.latestFirst inputs = (m.run inputs).2.stack.latestFirst := by
  induction inputs generalizing m with
  | nil => rfl
  | cons input rest ih =>
    rw [openCalls, callsAfter_eq coherent, ih (feed_coherent m input coherent), run_cons]

theorem pc_of_ret (coherent : Coherent m) (done : m.execute .ret = .ok next) :
    m.stack.latestFirst.head? = some next.pc.toNat := by
  obtain ⟨a, stack, popped, rfl⟩ := goBack_eq_ok_iff.mp done
  have stored : a ∈ m.stack.toList := by
    rw [CallStack.toList_of_pop coherent.depth popped]
    exact List.mem_append_right _ (List.mem_singleton.mpr rfl)
  have small : a.toNat < 4096 := Nat.lt_of_le_of_lt (coherent.addresses a stored).2 (by decide)
  rw [CallStack.latestFirst_of_pop coherent.depth popped, Layout.wrap_of_lt small]
  rfl

theorem toNat_after_after (a : UInt16) : (after (after a)).toNat = (a.toNat + 4) % 4096 := by
  rw [toNat_after, toNat_after]
  omega

theorem execute_skip (m : Machine) (c : Condition) : ∃ next, m.execute (.skip c) = .ok next ∧
    next.pc.toNat = (m.pc.toNat + if c.Met m then 4 else 2) % 4096 := by
  refine ⟨_, rfl, ?_⟩
  by_cases met : c.Met m
  · rw [if_pos met, if_pos ((c.holds_iff_met m).mpr met)]
    exact toNat_after_after m.pc
  · rw [if_neg met, if_neg (mt (c.holds_iff_met m).mp met)]
    exact toNat_after m.pc

theorem execute_skip_opposite (m : Machine) (c : Condition) :
    ∃ one other, m.execute (.skip c) = .ok one ∧ m.execute (.skip c.opposite) = .ok other ∧
      ((one.pc.toNat = (m.pc.toNat + 4) % 4096 ∧ other.pc.toNat = (m.pc.toNat + 2) % 4096) ∨
        (one.pc.toNat = (m.pc.toNat + 2) % 4096 ∧ other.pc.toNat = (m.pc.toNat + 4) % 4096)) := by
  obtain ⟨one, first, pc⟩ := m.execute_skip c
  obtain ⟨other, second, pc'⟩ := m.execute_skip c.opposite
  refine ⟨one, other, first, second, ?_⟩
  simp only [c.met_opposite_iff m, ite_not] at pc'
  by_cases met : c.Met m
  · rw [if_pos met] at pc pc'
    exact .inl ⟨pc, pc'⟩
  · rw [if_neg met] at pc pc'
    exact .inr ⟨pc, pc'⟩

theorem pc_of_straight (straight : i.transfers = false) (steps : ∀ c, i ≠ .skip c)
    (done : m.execute i = .ok next) : next.pc.toNat = (m.pc.toNat + 2) % 4096 := by
  rw [← toNat_after]
  cases i with
  | ret | jump | call | jumpOffset => contradiction
  | skip c => exact absurd rfl (steps c)
  | _ =>
    cases Except.ok.inj done
    rfl

/-- The program counter after a cycle of a machine that some history led to. A return goes behind
the latest call of that history that no other return has answered. Of two skips that belong
together, one passes over the next instruction and the other does not. -/
theorem cycle_moves_the_program_counter {rom : Rom} {settings : Settings} {inputs : List Input}
    (led : ((boot rom settings).run inputs).2 = m) :
    (∀ i next, m.cycle = (.executed i, next) →
      (∀ nnn, i = .jump nnn ∨ i = .call nnn → next.pc = nnn) ∧
      (∀ x nnn, i = .jumpOffset x nnn → next.pc.toNat = (nnn.toNat +
        (m.registers.get (if m.dialect.offsetReadsX then x else 0)).toNat) % 4096) ∧
      (i = .ret → ((boot rom settings).openCalls [] inputs).head? = some next.pc.toNat) ∧
      (∀ c, i = .skip c → next.pc.toNat = (m.pc.toNat + if c.Met m then 4 else 2) % 4096) ∧
      (i.transfers = false → (∀ c, i ≠ .skip c) → next.pc.toNat = (m.pc.toNat + 2) % 4096)) ∧
    ∀ c : Condition, ∃ one other, m.execute (.skip c) = .ok one ∧
      m.execute (.skip c.opposite) = .ok other ∧
      ((one.pc.toNat = (m.pc.toNat + 4) % 4096 ∧ other.pc.toNat = (m.pc.toNat + 2) % 4096) ∨
        (one.pc.toNat = (m.pc.toNat + 2) % 4096 ∧ other.pc.toNat = (m.pc.toNat + 4) % 4096)) := by
  have coherent : Coherent m := (show m.Reachable from ⟨rom, settings, inputs, led⟩).coherent
  have calls : (boot rom settings).openCalls [] inputs = m.stack.latestFirst :=
    led ▸ openCalls_eq (boot_coherent rom settings) inputs
  refine ⟨?_, m.execute_skip_opposite⟩
  intro i next cycled
  obtain ⟨-, -, done⟩ := of_cycle_executed cycled
  refine ⟨?_, ?_, ?_, ?_, ?_⟩
  · rintro nnn (rfl | rfl)
    · obtain ⟨-, rfl⟩ := jump_eq_ok_iff.mp done
      rfl
    · obtain ⟨-, stack, -, rfl⟩ := call_eq_ok_iff.mp done
      rfl
  · rintro x nnn rfl
    obtain ⟨-, rfl⟩ := jump_eq_ok_iff.mp done
    exact toNat_offsetTarget m x nnn
  · rintro rfl
    rw [calls]
    exact pc_of_ret coherent done
  · rintro c rfl
    obtain ⟨_, same, pc⟩ := m.execute_skip c
    cases Except.ok.inj (same.symm.trans done)
    exact pc
  · intro straight steps
    exact pc_of_straight straight steps done

/- A program that calls a subroutine, which passes over an instruction before it returns. -/
def skipThenReturn : Rom where
  bytes := #[0x22, 0x04, 0x12, 0x02, 0x31, 0x00, 0x61, 0x01, 0x00, 0xEE]

def beforeSkip : Machine :=
  { boot skipThenReturn {} with
    pc := 0x204, stack := inSubroutine.stack }

def behindSkip : Machine :=
  { beforeSkip with pc := 0x208 }

theorem cycle_moves_the_program_counter_return :
    ((boot skipThenReturn {}).run [.cycle, .tick, .cycle]).2 = behindSkip ∧
    (boot skipThenReturn {}).openCalls [] [.cycle, .tick, .cycle] = [0x202] ∧
    behindSkip.cycle.1 = .executed .ret ∧ behindSkip.cycle.2.pc.toNat = 0x202 := by
  have atStart : Instruction.decode? (boot skipThenReturn {}).fetch = some (.call 0x204) := by
    rw [fetch_of_loaded (m := boot skipThenReturn {}) skipThenReturn rfl]
    decide
  have atSkip : Instruction.decode? beforeSkip.fetch = some (.skip (.equalsByte 1 0)) := by
    rw [fetch_of_loaded (m := beforeSkip) skipThenReturn rfl]
    decide
  have atReturn : Instruction.decode? behindSkip.fetch = some .ret := by
    rw [fetch_of_loaded (m := behindSkip) skipThenReturn rfl]
    decide
  have first : (boot skipThenReturn {}).cycle = (.executed (.call 0x204), beforeSkip) :=
    cycle_of_ok rfl atStart ((call_eq_ok_iff (m := boot skipThenReturn {})).mpr
      ⟨by decide, _, rfl, rfl⟩)
  have still : beforeSkip.feed .tick = (none, beforeSkip) := rfl
  have holds : (Condition.equalsByte 1 0).holds beforeSkip = true := by decide
  have skipped : beforeSkip.execute (.skip (.equalsByte 1 0)) = .ok behindSkip := by
    simp only [execute, holds, if_true]
    rfl
  have second : beforeSkip.cycle = (.executed (.skip (.equalsByte 1 0)), behindSkip) :=
    cycle_of_ok rfl atSkip skipped
  have third := cycle_of_ok (m := behindSkip) rfl atReturn
    ((goBack_eq_ok_iff (m := behindSkip)).mpr ⟨_, _, rfl, rfl⟩)
  have led : ((boot skipThenReturn {}).run [.cycle, .tick, .cycle]).2 = behindSkip := by
    rw [run_cons, feed_cycle, first, run_cons, still, run_cons, feed_cycle, second, run_nil]
  have calls : (boot skipThenReturn {}).openCalls [] [.cycle, .tick, .cycle] = [0x202] := by
    refine (openCalls_eq (boot_coherent skipThenReturn {}) _).trans ?_
    rw [led]
    rfl
  obtain ⟨-, -, back, -⟩ := (cycle_moves_the_program_counter led).1 _ _ third
  have pc := back rfl
  rw [calls] at pc
  rw [third]
  exact ⟨led, calls, rfl, (Option.some.inj pc).symm⟩

end Machine

end Chip8
