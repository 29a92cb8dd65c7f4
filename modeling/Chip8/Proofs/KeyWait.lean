import Chip8.Proofs.Digits
import Chip8.Proofs.Interference
import Chip8.Proofs.Invariant

namespace Chip8

def Outcome.beginsWait : Outcome → Bool
  | .executed i => i.awaitsKey
  | _ => false

namespace Machine

variable {m next : Machine} {i : Instruction} {input : Input} {x key : UInt8} {pressed : Bool}

def Presses (m : Machine) (input : Input) : Prop :=
  ∃ key, input = .key key true ∧ key.toNat ≤ 15 ∧ m.keypad.isHeld key = false

/-- No input presses a key that is up when its turn comes. -/
def Unpressed (m : Machine) : List Input → Prop
  | [] => True
  | input :: rest => ¬ m.Presses input ∧ (m.feed input).2.Unpressed rest

/-- What a key that goes down makes of a machine that waits for one: register `x` holds the key, the
key is held, the wait is over, and nothing else has changed. -/
structure Resumes (m : Machine) (x key : UInt8) (next : Machine) : Prop where
  registers : ∀ y, y.toNat ≤ 15 →
    next.registers.get y = if y = x then key else m.registers.get y
  index : next.registers.index = m.registers.index
  keypad : ∀ k, k.toNat ≤ 15 → next.keypad.isHeld k = if k = key then true else m.keypad.isHeld k
  rest : next = { m with registers := next.registers, keypad := next.keypad, waiting := none }

theorem goesDown_iff : m.goesDown key pressed = true ↔
    key.toNat ≤ 15 ∧ pressed = true ∧ m.keypad.isHeld key = false := by
  simp only [goesDown, Bool.and_eq_true, Bool.not_eq_true', Keypad.hasKey_iff, and_assoc]

theorem presses_key_iff : m.Presses (.key key pressed) ↔ m.goesDown key pressed = true := by
  rw [goesDown_iff]
  constructor
  · rintro ⟨k, same, digit, up⟩
    cases same
    exact ⟨digit, rfl, up⟩
  · rintro ⟨digit, rfl, up⟩
    exact ⟨key, rfl, digit, up⟩

theorem setKey_of_stays (stays : m.goesDown key pressed = false) :
    m.setKey key pressed = m.beside m.timers (m.keypad.set key pressed) := by
  simp only [setKey, stays]
  split <;> rfl

theorem setKey_of_goesDown (waits : m.waiting = some x) (down : m.goesDown key pressed = true) :
    m.setKey key pressed = { m with
      registers := m.registers.set x key
      keypad := m.keypad.set key pressed
      waiting := none } := by
  simp only [setKey, waits, down]
  rfl

theorem setKey_resumes (waits : m.waiting = some x) (register : x.toNat ≤ 15)
    (digit : key.toNat ≤ 15) (up : m.keypad.isHeld key = false) :
    Resumes m x key (m.setKey key true) := by
  rw [setKey_of_goesDown waits (goesDown_iff.mpr ⟨digit, rfl, up⟩)]
  exact {
    registers := fun y small => Registers.get_set _ _ register small
    index := rfl
    keypad := fun k small => Keypad.isHeld_set _ _ digit small
    rest := rfl }

theorem setKey_of_no_key (m : Machine) (pressed : Bool) (off : 16 ≤ key.toNat) :
    m.setKey key pressed = m := by
  have stays : m.goesDown key pressed = false := by
    rw [← Bool.not_eq_true, goesDown_iff]
    omega
  rw [setKey_of_stays stays, Keypad.set_of_no_key _ _ off]
  rfl

theorem setKey_others (awake : m.waiting = none) {k : UInt8} (digit : k.toNat ≤ 15)
    (other : k ≠ key) : (m.setKey key pressed).keypad.isHeld k = m.keypad.isHeld k := by
  rcases Nat.lt_or_ge key.toNat 16 with small | off
  · have held := m.keypad.isHeld_set pressed (Nat.le_of_lt_succ small) digit
    rw [setKey_of_awake awake, held, if_neg other]
  · rw [setKey_of_no_key m pressed off]

theorem feed_waiting (waits : m.waiting = some x) (noReset : ∀ rom, input ≠ .reset rom)
    (quiet : ¬ m.Presses input) :
    ∃ t k, m.feed input = (if input = .cycle then some .waiting else none, m.beside t k) := by
  cases input with
  | cycle => exact ⟨m.timers, m.keypad, by rw [feed_cycle, cycle_of_waiting waits]; rfl⟩
  | tick => exact ⟨m.timers.tick, m.keypad, rfl⟩
  | key key pressed =>
    rw [presses_key_iff, Bool.not_eq_true] at quiet
    exact ⟨m.timers, m.keypad.set key pressed, by rw [feed, setKey_of_stays quiet]; rfl⟩
  | reset rom => exact absurd rfl (noReset rom)

theorem run_waiting {inputs : List Input} (waits : m.waiting = some x)
    (noReset : ∀ rom, .reset rom ∉ inputs) (quiet : m.Unpressed inputs) :
    ∃ t k, m.run inputs = (List.replicate (inputs.count .cycle) .waiting, m.beside t k) := by
  induction inputs generalizing m with
  | nil => exact ⟨m.timers, m.keypad, rfl⟩
  | cons input rest ih =>
    obtain ⟨here, later⟩ := noReset_cons.mp noReset
    obtain ⟨t, k, fed⟩ := feed_waiting waits here quiet.1
    have ahead := quiet.2
    rw [fed] at ahead
    obtain ⟨t', k', ran⟩ := ih (m := m.beside t k) waits later ahead
    refine ⟨t', k', ?_⟩
    rw [run_cons, fed, ran, List.count_cons]
    by_cases cycle : input = .cycle
    · simp [cycle, List.replicate_succ]
      rfl
    · simp [cycle]
      rfl

/- Between its cycles, the host cannot do more to a machine that is awake than move its timers and
its keys. -/
theorem run_fromHost {inputs : List Input} (host : ∀ input ∈ inputs, input.fromHost = true)
    (awake : m.waiting = none) : ∃ t k, m.run inputs = ([], m.beside t k) := by
  induction inputs generalizing m with
  | nil => exact ⟨m.timers, m.keypad, rfl⟩
  | cons input rest ih =>
    obtain ⟨t, k, fed⟩ := feed_fromHost (host input List.mem_cons_self) awake
    obtain ⟨t', k', ran⟩ := ih (m := m.beside t k)
      (fun other member => host other (List.mem_cons_of_mem _ member)) awake
    refine ⟨t', k', ?_⟩
    rw [run_cons, fed, ran]
    rfl

theorem cycle_ne_waiting (awake : m.waiting = none) : m.cycle.1 ≠ .waiting := by
  rcases m.cycle_cases with ⟨x, waits, -⟩ | ⟨-, f, cycled⟩ | ⟨-, i, next, -, -, cycled⟩
  · rw [awake] at waits
    contradiction
  · simp [cycled]
  · simp [cycled]

theorem Resumes.next_cycle (resumes : Resumes m x key next) {idle : List Input}
    (host : ∀ input ∈ idle, input.fromHost = true) :
    (next.run idle).2.cycle.1 ≠ .waiting ∧ (next.run idle).2.fetch = m.memory.word m.pc ∧
      (next.run idle).2.pc = m.pc := by
  have awake : next.waiting = none := by rw [resumes.rest]
  have pc : next.pc = m.pc := by rw [resumes.rest]
  have memory : next.memory = m.memory := by rw [resumes.rest]
  obtain ⟨t, k, idled⟩ := run_fromHost host awake
  rw [idled]
  exact ⟨cycle_ne_waiting awake, congrArg₂ Memory.word memory pc, pc⟩

/-- The machine goes back to a cycle in which it began to wait for register `x`. -/
def BeganToWait (m : Machine) (x : UInt8) : Prop :=
  ∃ before : Machine, before.Reachable ∧ before.cycle.1 = .executed (.awaitKey x) ∧
    Alike before.cycle.2 m

theorem BeganToWait.beside (began : m.BeganToWait x) (t : Timers) (k : Keypad) :
    (m.beside t k).BeganToWait x := by
  obtain ⟨before, reachable, executed, alike⟩ := began
  exact ⟨before, reachable, executed, alike.beside_right t k⟩

theorem feed_beganToWait (reachable : m.Reachable)
    (began : ∀ x, m.waiting = some x → m.BeganToWait x) (waits : (m.feed input).2.waiting = some x) :
    (m.feed input).2.BeganToWait x := by
  cases input with
  | cycle =>
    rw [feed_cycle] at waits ⊢
    rcases m.cycle_cases with ⟨y, -, cycled⟩ | ⟨-, f, cycled⟩ | ⟨awake, i, next, -, done, cycled⟩
    · rw [cycled] at waits ⊢
      exact began x waits
    · rw [cycled] at waits ⊢
      exact began x waits
    · refine ⟨m, reachable, ?_, .refl _⟩
      rw [cycled] at waits ⊢
      rcases execute_waiting done with same | ⟨y, rfl, rfl⟩
      · rw [same, awake] at waits
        contradiction
      · cases Option.some.inj waits
        rfl
  | tick => exact (began x waits).beside m.timers.tick m.keypad
  | key key pressed =>
    cases down : m.goesDown key pressed with
    | false =>
      rw [feed, setKey_of_stays down] at waits ⊢
      exact (began x waits).beside _ _
    | true =>
      -- A key that goes down leaves nobody waiting.
      cases waiting : m.waiting with
      | none =>
        rw [feed, setKey_of_awake waiting] at waits
        cases waiting.symm.trans waits
      | some y =>
        rw [feed, setKey_of_goesDown waiting down] at waits
        contradiction
  | reset rom => contradiction

theorem Reachable.beganToWait (reachable : m.Reachable) (waits : m.waiting = some x) :
    m.BeganToWait x := by
  have origin : m.Reachable ∧ ∀ x, m.waiting = some x → m.BeganToWait x := by
    apply Reachable.induct (P := fun m => m.Reachable ∧ ∀ x, m.waiting = some x → m.BeganToWait x)
      _ _ reachable
    · intro rom settings
      exact ⟨reachable_boot rom settings, fun x waits => nomatch waits⟩
    · rintro m input ⟨reachable, began⟩
      exact ⟨reachable.feed input, fun x waits => feed_beganToWait reachable began waits⟩
  exact origin.2 x waits

theorem pc_of_awaitKey (executed : m.cycle.1 = .executed (.awaitKey x)) :
    m.cycle.2.pc = after m.pc := by
  obtain ⟨-, -, done⟩ := of_cycle_executed (Prod.ext executed rfl)
  exact congrArg pc (Except.ok.inj done).symm

def pending (m : Machine) : Nat :=
  if m.waiting.isSome then 1 else 0

/-- Whether an input ends a wait that is under way. -/
def endsWait (m : Machine) (input : Input) : Bool :=
  m.waiting.isSome && (m.feed input).2.waiting.isNone

def endings (m : Machine) : List Input → Nat
  | [] => 0
  | input :: rest => (m.endsWait input).toNat + (m.feed input).2.endings rest

theorem execute_beginsWait (awake : m.waiting = none) (done : m.execute i = .ok next) :
    next.waiting.isSome = i.awaitsKey := by
  rcases execute_waiting done with same | ⟨x, rfl, rfl⟩
  · cases i with
    | awaitKey x =>
      cases Except.ok.inj done
      rw [awake] at same
      contradiction
    | _ =>
      rw [same, awake]
      rfl
  · rfl

/- A wait that is under way goes on or ends, and one that is not may begin. -/
theorem feed_balance (m : Machine) (input : Input) :
    (m.endsWait input).toNat + (m.feed input).2.pending =
      m.pending + (m.feed input).1.toList.countP Outcome.beginsWait := by
  cases waits : m.waiting with
  | none =>
    have before : m.pending = 0 := by simp [pending, waits]
    have nothing : m.endsWait input = false := by simp [endsWait, waits]
    rw [before, nothing]
    cases input with
    | cycle =>
      rw [feed_cycle]
      rcases m.cycle_cases with ⟨x, still, -⟩ | ⟨-, f, cycled⟩ | ⟨-, i, next, -, done, cycled⟩
      · rw [waits] at still
        contradiction
      · simp [cycled, pending, waits, Outcome.beginsWait]
      · have begins := execute_beginsWait waits done
        cases awaits : i.awaitsKey <;> simp [cycled, pending, begins, awaits, Outcome.beginsWait]
    | tick => simp [feed, tick, pending, waits]
    | key key pressed => simp [feed, setKey_of_awake waits, pending, waits]
    | reset rom => simp [feed, reset, pending]
  | some x =>
    have before : m.pending = 1 := by simp [pending, waits]
    have silent : (m.feed input).1.toList.countP Outcome.beginsWait = 0 := by
      cases input with
      | cycle =>
        rw [feed_cycle, cycle_of_waiting waits]
        rfl
      | tick | key | reset => rfl
    rw [before, silent]
    cases after : (m.feed input).2.waiting <;> simp [endsWait, pending, waits, after]

theorem run_balance (m : Machine) (inputs : List Input) :
    m.endings inputs + (m.run inputs).2.pending =
      m.pending + (m.run inputs).1.countP Outcome.beginsWait := by
  induction inputs generalizing m with
  | nil => simp [endings]
  | cons input rest ih =>
    have now := m.feed_balance input
    have later := ih (m.feed input).2
    simp only [run_cons, endings, List.countP_append]
    omega

theorem presses_of_endsWait (ends : m.endsWait input = true) :
    m.Presses input ∨ ∃ rom, input = .reset rom := by
  obtain ⟨waits, ended⟩ := Bool.and_eq_true_iff.mp ends
  obtain ⟨x, waits⟩ := Option.isSome_iff_exists.mp waits
  by_cases presses : m.Presses input
  · exact .inl presses
  · refine .inr (Classical.byContradiction fun noReset => ?_)
    obtain ⟨t, k, fed⟩ := feed_waiting waits (fun rom same => noReset ⟨rom, same⟩) presses
    rw [fed] at ended
    have still : (m.beside t k).waiting = some x := waits
    rw [still] at ended
    contradiction

/-- A machine that waits for a key keeps still until one is pressed, goes on behind the instruction
that made it wait, and needs another such instruction before another press counts. -/
theorem one_press_ends_a_wait (reachable : m.Reachable) :
    (∀ x, m.waiting = some x → ∃ before : Machine, before.Reachable ∧
      before.cycle.1 = .executed (.awaitKey x) ∧ Alike before.cycle.2 m ∧
      ∀ inputs, (∀ rom, .reset rom ∉ inputs) → m.Unpressed inputs →
        (m.run inputs).1 = List.replicate (inputs.count .cycle) .waiting ∧
        Alike m (m.run inputs).2 ∧
        ∀ key, key.toNat ≤ 15 → (m.run inputs).2.keypad.isHeld key = false →
          Resumes (m.run inputs).2 x key ((m.run inputs).2.setKey key true) ∧
          ∀ idle, (∀ input ∈ idle, input.fromHost = true) →
            let resumed := (((m.run inputs).2.setKey key true).run idle).2
            resumed.cycle.1 ≠ .waiting ∧ resumed.fetch = m.memory.word m.pc ∧
              resumed.pc = m.pc ∧ resumed.pc.toNat = (before.pc.toNat + 2) % 4096) ∧
    (m.waiting = none → ∀ key pressed,
      m.setKey key pressed = { m with keypad := (m.setKey key pressed).keypad } ∧
      ∀ k, k.toNat ≤ 15 → k ≠ key →
        (m.setKey key pressed).keypad.isHeld k = m.keypad.isHeld k) ∧
    (∀ key pressed, 16 ≤ key.toNat → m.setKey key pressed = m) ∧
    (∀ input, m.endsWait input = true → m.Presses input ∨ ∃ rom, input = .reset rom) ∧
    ∀ inputs, m.endings inputs + (m.run inputs).2.pending =
      m.pending + (m.run inputs).1.countP Outcome.beginsWait := by
  refine ⟨?_, ?_, ?_, fun input => presses_of_endsWait, m.run_balance⟩
  · intro x waits
    obtain ⟨before, earlier, executed, alike⟩ := reachable.beganToWait waits
    refine ⟨before, earlier, executed, alike, ?_⟩
    intro inputs noReset quiet
    obtain ⟨t, k, ran⟩ := run_waiting waits noReset quiet
    rw [ran]
    refine ⟨rfl, ⟨t, k, rfl⟩, ?_⟩
    intro key digit up
    have register : x.toNat ≤ 15 := (reachable.coherent.wait x waits).1
    have resumes : Resumes (m.beside t k) x key ((m.beside t k).setKey key true) :=
      setKey_resumes waits register digit up
    refine ⟨resumes, ?_⟩
    intro idle host
    obtain ⟨awake, fetched, pc⟩ := resumes.next_cycle host
    refine ⟨awake, fetched, pc, ?_⟩
    obtain ⟨t', k', rfl⟩ := alike
    rw [pc, ← toNat_after, ← pc_of_awaitKey executed]
    rfl
  · intro awake key pressed
    refine ⟨by rw [setKey_of_awake awake], ?_⟩
    intro k digit other
    exact setKey_others awake digit other
  · intro key pressed off
    exact setKey_of_no_key m pressed off

/- A machine that holds key 5 when it begins to wait. -/
def holdingFive : Machine :=
  { inSubroutine with keypad := Keypad.released.set 5 true }

def waitingWithFive : Machine :=
  { holdingFive with pc := 0x206, waiting := some 3 }

theorem reachable_waitingWithFive : waitingWithFive.Reachable := by
  have held : (inSubroutine.feed (.key 5 true)).2 = holdingFive := by
    rw [feed, setKey_of_awake rfl]
    rfl
  have reachable : holdingFive.Reachable := held ▸ reachable_inSubroutine.feed (.key 5 true)
  have decoded : Instruction.decode? holdingFive.fetch = some (.awaitKey 3) := by
    rw [fetch_of_loaded (m := holdingFive) waitInSubroutine rfl]
    decide
  exact reachable.executed rfl decoded rfl

def heldAgain : Machine :=
  { waitingWithFive with keypad := waitingWithFive.keypad.set 5 true }

def letGo : Machine :=
  { heldAgain with keypad := heldAgain.keypad.set 5 false }

/- The key that is held is told to be held again, a number that names no key is told to be held, and
the key goes up before it is pressed. -/
theorem one_press_ends_a_wait_held_key :
    waitingWithFive.Reachable ∧ waitingWithFive.waiting = some 3 ∧
    waitingWithFive.run [.key 5 true, .cycle, .key 0x20 true, .key 5 false] =
      ([.waiting], letGo) ∧
    Resumes letGo 3 5 (letGo.setKey 5 true) ∧ (letGo.setKey 5 true).pc.toNat = 0x206 := by
  have again : waitingWithFive.feed (.key 5 true) = (none, heldAgain) := by
    rw [feed, setKey_of_stays (by decide)]
    rfl
  have waits : heldAgain.feed .cycle = (some .waiting, heldAgain) := by
    rw [feed_cycle, cycle_of_waiting rfl]
  have noKey : heldAgain.feed (.key 0x20 true) = (none, heldAgain) := by
    rw [feed, setKey_of_stays (by decide)]
    rfl
  have up : heldAgain.feed (.key 5 false) = (none, letGo) := by
    rw [feed, setKey_of_stays (by decide)]
    rfl
  have ran : waitingWithFive.run [.key 5 true, .cycle, .key 0x20 true, .key 5 false] =
      ([.waiting], letGo) := by
    rw [run_cons, again, run_cons, waits, run_cons, noKey, run_cons, up, run_nil]
    rfl
  have quiet : waitingWithFive.Unpressed [.key 5 true, .cycle, .key 0x20 true, .key 5 false] := by
    simp only [Unpressed, again, waits, noKey, presses_key_iff]
    refine ⟨by decide, ?_, by decide, by decide, trivial⟩
    rintro ⟨key, same, -⟩
    cases same
  have reachable := reachable_waitingWithFive
  obtain ⟨before, -, -, -, keepsStill⟩ := (one_press_ends_a_wait reachable).1 3 rfl
  have pressed := (keepsStill _ (by simp) quiet).2.2 5 (by decide)
  simp only [ran] at pressed
  obtain ⟨resumes, resumed⟩ := pressed (by decide)
  have pc : (letGo.setKey 5 true).pc = waitingWithFive.pc := (resumed [] (by simp)).2.2.1
  have place : waitingWithFive.pc.toNat = 0x206 := by decide
  exact ⟨reachable, rfl, ran, resumes, pc ▸ place⟩

end Machine

end Chip8
