import Chip8.Proofs.Invariant

/-!
# Subroutines

A call stores the address behind it above the addresses that are stored already. Whatever the
subroutine does, and however deeply it calls others, these addresses stay at the bottom of the call
stack until a return takes off the one that the call stored, and goes to it.
-/

namespace Chip8.Machine

variable {m next : Machine} {i : Instruction} {input : Input} {stored : List UInt16} {a : UInt16}

theorem execute_stack (bounded : m.stack.depth ≤ 16) (done : m.execute i = .ok next) :
    next.stack = m.stack ∨ next.stack.toList = m.stack.toList ++ [after m.pc] ∨
      ∃ a, i = .ret ∧ next.pc = Layout.wrap a ∧ m.stack.toList = next.stack.toList ++ [a] := by
  cases transfer : i.transfers with
  | false =>
    obtain ⟨_, same, stack, -⟩ := m.execute_straight transfer
    cases Except.ok.inj (same.symm.trans done)
    exact .inl stack
  | true =>
    cases i <;> simp only [Instruction.transfers, Bool.false_eq_true] at transfer
    case ret =>
      obtain ⟨a, stack, popped, rfl⟩ := goBack_eq_ok_iff.mp done
      exact .inr (.inr ⟨a, rfl, rfl, CallStack.toList_of_pop bounded popped⟩)
    case call nnn =>
      obtain ⟨-, stack, pushed, rfl⟩ := call_eq_ok_iff.mp done
      exact .inr (.inl (CallStack.toList_of_push pushed))
    case jump | jumpOffset =>
      obtain ⟨-, rfl⟩ := jump_eq_ok_iff.mp done
      exact .inl rfl

/- A failed call or return is a fault, which changes nothing, so only a return that was carried out
takes an address off. -/
theorem feed_stack (bounded : m.stack.depth ≤ 16) (noReset : ∀ rom, input ≠ .reset rom) :
    m.stack.toList <+: (m.feed input).2.stack.toList ∨
      ∃ a, input = .cycle ∧ m.cycle.1 = .executed .ret ∧ m.cycle.2.pc = Layout.wrap a ∧
        m.stack.toList = m.cycle.2.stack.toList ++ [a] := by
  cases input with
  | cycle =>
    rw [feed_cycle]
    rcases m.cycle_cases with ⟨x, -, cycled⟩ | ⟨-, f, cycled⟩ | ⟨-, i, next, -, done, cycled⟩
    · rw [cycled]
      exact .inl (List.prefix_refl _)
    · rw [cycled]
      exact .inl (List.prefix_refl _)
    · rw [cycled]
      rcases execute_stack bounded done with stack | stack | ⟨a, rfl, pc, stack⟩
      · exact .inl (stack ▸ List.prefix_refl _)
      · exact .inl (stack ▸ List.prefix_append _ _)
      · exact .inr ⟨a, rfl, rfl, pc, stack⟩
  | tick => exact .inl (List.prefix_refl _)
  | key key pressed =>
    obtain ⟨keypad, registers, waiting, keyed⟩ := m.setKey_frame key pressed
    rw [feed, keyed]
    exact .inl (List.prefix_refl _)
  | reset rom => exact absurd rfl (noReset rom)

/- One input cannot take off an address and what lies below it, so the address is still stored or
it has just been gone to. -/
theorem feed_inside (coherent : Coherent m) (noReset : ∀ rom, input ≠ .reset rom)
    (inside : stored ++ [a] <+: m.stack.toList) :
    stored ++ [a] <+: (m.feed input).2.stack.toList ∨
      (input = .cycle ∧ m.cycle.1 = .executed .ret ∧ m.cycle.2.pc = Layout.wrap a ∧
        m.cycle.2.stack.toList = stored) := by
  rcases feed_stack coherent.depth noReset with kept | ⟨b, rfl, executed, pc, stack⟩
  · exact .inl (inside.trans kept)
  · rw [stack] at inside
    rcases List.prefix_concat_iff.mp inside with whole | below
    · obtain ⟨rfl, same⟩ := List.append_inj' whole rfl
      cases List.singleton_inj.mp same
      exact .inr ⟨rfl, executed, pc, rfl⟩
    · exact .inl below

theorem run_coherent (coherent : Coherent m) (inputs : List Input) : Coherent (m.run inputs).2 :=
  run_keeps feed_coherent inputs coherent

theorem depth_of_inside (coherent : Coherent m) (inside : stored ++ [a] <+: m.stack.toList) :
    stored.length + 1 ≤ m.stack.depth := by
  have longer := inside.length_le
  rwa [CallStack.length_toList coherent.depth, List.length_append] at longer

theorem run_inside {inputs : List Input} (coherent : Coherent m)
    (noReset : ∀ rom, .reset rom ∉ inputs) (inside : stored ++ [a] <+: m.stack.toList)
    (away : ∀ done, done <+: inputs → (m.run done).2.stack.depth ≠ stored.length) :
    stored ++ [a] <+: (m.run inputs).2.stack.toList := by
  induction inputs generalizing m with
  | nil => exact inside
  | cons input rest ih =>
    obtain ⟨here, later⟩ := noReset_cons.mp noReset
    rcases feed_inside coherent here inside with kept | ⟨rfl, -, -, stack⟩
    · apply ih (feed_coherent m input coherent) later kept
      intro done first
      exact away (input :: done) (List.cons_prefix_cons.mpr ⟨rfl, first⟩)
    -- The address is off the stack, which `away` rules out for the first input already.
    · have back : m.cycle.2.stack.depth = stored.length := by
        rw [← stack, CallStack.length_toList (cycle_coherent coherent).depth]
      exact absurd back (away [.cycle] (by simp))

theorem cycle_of_call {nnn : UInt16} (called : m.cycle = (.executed (.call nnn), next)) :
    m.stack.depth < 16 ∧ next.stack.toList = m.stack.toList ++ [after m.pc] := by
  obtain ⟨-, -, done⟩ := of_cycle_executed called
  obtain ⟨-, stack, pushed, rfl⟩ := call_eq_ok_iff.mp done
  exact ⟨(CallStack.depth_of_push pushed).1, CallStack.toList_of_push pushed⟩

/-- Until the stack pointer is back where it was before a call, the call's return address lies in
the slot that it was stored in, with the older ones below it. The input that brings the stack
pointer back is a cycle with a return in it, and it goes to the address behind the call. -/
theorem subroutine_returns_behind_call {sub : Machine} {nnn : UInt16} (reachable : m.Reachable)
    (called : m.cycle = (.executed (.call nnn), sub)) (inputs : List Input)
    (noReset : ∀ rom, .reset rom ∉ inputs)
    (away : ∀ done, done <+: inputs → (sub.run done).2.stack.depth ≠ m.stack.depth) :
    m.stack.depth + 1 ≤ (sub.run inputs).2.stack.depth ∧
    (∀ k (slot : k < 16), k < m.stack.depth →
      (sub.run inputs).2.stack.slots[k] = m.stack.slots[k]) ∧
    (∃ room : m.stack.depth < 16,
      (sub.run inputs).2.stack.slots[m.stack.depth].toNat = (m.pc.toNat + 2) % 4096) ∧
    ∀ input, (∀ rom, input ≠ .reset rom) →
      ((sub.run inputs).2.feed input).2.stack.depth = m.stack.depth →
      input = .cycle ∧ (sub.run inputs).2.cycle.1 = .executed .ret ∧
        (sub.run inputs).2.cycle.2.pc.toNat = (m.pc.toNat + 2) % 4096 := by
  have coherent : Coherent m := reachable.coherent
  have start : Coherent sub := by
    have cycled := cycle_coherent coherent
    rwa [called] at cycled
  have last : Coherent (sub.run inputs).2 := run_coherent start inputs
  have length : m.stack.toList.length = m.stack.depth := CallStack.length_toList coherent.depth
  obtain ⟨room, stored⟩ := cycle_of_call called
  have inside : m.stack.toList ++ [after m.pc] <+: (sub.run inputs).2.stack.toList :=
    run_inside start noReset (stored ▸ List.prefix_refl _) (length.symm ▸ away)
  refine ⟨?_, ?_, ⟨room, ?_⟩, ?_⟩
  · exact length ▸ depth_of_inside last inside
  · intro k slot used
    apply CallStack.slot_eq_of_prefix inside
    rw [List.getElem?_append_left (by omega)]
    simp [CallStack.toList, used, slot]
  · have top : (m.stack.toList ++ [after m.pc])[m.stack.depth]? = some (after m.pc) := by
      simp [← length]
    rw [CallStack.slot_eq_of_prefix inside top room, toNat_after]
  · intro input noReset back
    rcases feed_inside last noReset inside with kept | ⟨rfl, executed, pc, -⟩
    · have deeper := depth_of_inside (feed_coherent _ input last) kept
      rw [length, back] at deeper
      exact absurd deeper (Nat.not_succ_le_self _)
    · refine ⟨rfl, executed, ?_⟩
      rw [pc, Layout.wrap_of_lt (after_lt m.pc), toNat_after]

/- A program that calls a subroutine, which calls another before it returns. -/
def nestedCalls : Rom where
  bytes := #[0x22, 0x04, 0x12, 0x02, 0x22, 0x08, 0x00, 0xEE, 0x00, 0xEE]

def inOuter : Machine :=
  { boot nestedCalls {} with pc := 0x204, stack := inSubroutine.stack }

def inInner : Machine :=
  { inOuter with pc := 0x208, stack := ⟨inOuter.stack.slots.set 1 0x206, 2⟩ }

def backInOuter : Machine :=
  { inInner with pc := 0x206, stack := ⟨inInner.stack.slots, 1⟩ }

def backAtStart : Machine :=
  { backInOuter with pc := 0x202, stack := ⟨inInner.stack.slots, 0⟩ }

theorem subroutine_returns_behind_call_nested :
    (boot nestedCalls {}).Reachable ∧
    (boot nestedCalls {}).cycle = (.executed (.call 0x204), inOuter) ∧
    inOuter.run [.cycle, .tick, .cycle] =
      ([.executed (.call 0x208), .executed .ret], backInOuter) ∧
    (∃ room : (boot nestedCalls {}).stack.depth < 16,
      backInOuter.stack.slots[(boot nestedCalls {}).stack.depth].toNat = 0x202) ∧
    backInOuter.cycle.1 = .executed .ret ∧ backInOuter.cycle.2.pc.toNat = 0x202 := by
  have atStart : Instruction.decode? (boot nestedCalls {}).fetch = some (.call 0x204) := by
    rw [fetch_of_loaded (m := boot nestedCalls {}) nestedCalls rfl]
    decide
  have atOuter : Instruction.decode? inOuter.fetch = some (.call 0x208) := by
    rw [fetch_of_loaded (m := inOuter) nestedCalls rfl]
    decide
  have atInner : Instruction.decode? inInner.fetch = some .ret := by
    rw [fetch_of_loaded (m := inInner) nestedCalls rfl]
    decide
  have atEnd : Instruction.decode? backInOuter.fetch = some .ret := by
    rw [fetch_of_loaded (m := backInOuter) nestedCalls rfl]
    decide
  have start : (boot nestedCalls {}).stack.depth = 0 := rfl
  have behind : ((boot nestedCalls {}).pc.toNat + 2) % 4096 = 0x202 := by decide
  have first : (boot nestedCalls {}).cycle = (.executed (.call 0x204), inOuter) :=
    cycle_of_ok rfl atStart ((call_eq_ok_iff (m := boot nestedCalls {})).mpr
      ⟨by decide, _, rfl, rfl⟩)
  have second : inOuter.cycle = (.executed (.call 0x208), inInner) :=
    cycle_of_ok rfl atOuter ((call_eq_ok_iff (m := inOuter)).mpr ⟨by decide, _, rfl, rfl⟩)
  have still : inInner.feed .tick = (none, inInner) := rfl
  have third : inInner.cycle = (.executed .ret, backInOuter) :=
    cycle_of_ok rfl atInner ((goBack_eq_ok_iff (m := inInner)).mpr ⟨_, _, rfl, rfl⟩)
  have fourth : backInOuter.cycle = (.executed .ret, backAtStart) :=
    cycle_of_ok rfl atEnd ((goBack_eq_ok_iff (m := backInOuter)).mpr ⟨_, _, rfl, rfl⟩)
  have ran : inOuter.run [.cycle, .tick, .cycle] =
      ([.executed (.call 0x208), .executed .ret], backInOuter) := by
    rw [run_cons, feed_cycle, second, run_cons, still, run_cons, feed_cycle, third, run_nil]
    rfl
  have away : ∀ done, done <+: [.cycle, .tick, .cycle] →
      (inOuter.run done).2.stack.depth ≠ (boot nestedCalls {}).stack.depth := by
    intro done first
    rw [start]
    simp only [List.prefix_cons_iff, List.prefix_nil] at first
    obtain rfl | ⟨_, rfl, rfl | ⟨_, rfl, rfl | ⟨_, rfl, rfl⟩⟩⟩ := first
    · rw [run_nil]
      decide
    · rw [run_cons, feed_cycle, second, run_nil]
      decide
    · rw [run_cons, feed_cycle, second, run_cons, still, run_nil]
      decide
    · rw [ran]
      decide
  have back : (backInOuter.feed .cycle).2.stack.depth = (boot nestedCalls {}).stack.depth := by
    rw [feed_cycle, fourth, start]
    rfl
  have reachable := reachable_boot nestedCalls {}
  obtain ⟨-, -, slot, ends⟩ := subroutine_returns_behind_call reachable first
    [.cycle, .tick, .cycle] (by simp) away
  simp only [ran, behind] at slot ends
  obtain ⟨-, executed, pc⟩ := ends .cycle (by simp) back
  exact ⟨reachable, first, ran, slot, executed, pc⟩

end Chip8.Machine
