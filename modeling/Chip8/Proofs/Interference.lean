import Chip8.Proofs.Execution
import Chip8.Proofs.Histories

namespace Chip8

def Condition.readsKeys : Condition → Bool
  | .pressed _ | .released _ => true
  | _ => false

def Instruction.readsKeys : Instruction → Bool
  | .skip condition => condition.readsKeys
  | _ => false

def Instruction.readsTimer : Instruction → Bool
  | .readDelay _ => true
  | _ => false

def Instruction.awaitsKey : Instruction → Bool
  | .awaitKey _ => true
  | _ => false

def Input.fromHost : Input → Bool
  | .tick | .key _ _ => true
  | .cycle | .reset _ => false

namespace Machine

def beside (m : Machine) (timers : Timers) (keypad : Keypad) : Machine :=
  { m with timers, keypad }

variable {m n : Machine} {i : Instruction} {t : Timers} {k : Keypad}

theorem jump_beside (target : UInt16) :
    (m.beside t k).jump target = (m.jump target).map (·.beside t k) := by
  simp only [jump]
  split <;> rfl

theorem call_beside (target : UInt16) :
    (m.beside t k).call target = (m.call target).map (·.beside t k) := by
  have pushed : (m.beside t k).stack.push? (after (m.beside t k).pc) =
      m.stack.push? (after m.pc) := rfl
  simp only [call, pushed]
  split
  · split <;> rfl
  · rfl

theorem goBack_beside : (m.beside t k).goBack = m.goBack.map (·.beside t k) := by
  have popped : (m.beside t k).stack.pop? = m.stack.pop? := rfl
  simp only [goBack, popped]
  split <;> rfl

theorem holds_beside {condition : Condition}
    (keys : condition.readsKeys = false ∨ k = m.keypad) :
    condition.holds (m.beside t k) = condition.holds m := by
  rcases keys with unread | rfl
  · cases condition with
    | pressed | released => contradiction
    | _ => rfl
  · cases condition <;> rfl

/-- An instruction that does not read the timers or the keypad does the same beside others, and
leaves the other keypad alone. -/
theorem execute_beside (timer : i.readsTimer = false)
    (keys : i.readsKeys = false ∨ k = m.keypad) :
    ∃ t', (m.beside t k).execute i = (m.execute i).map (·.beside t' k) := by
  cases i with
  | ret => exact ⟨t, goBack_beside⟩
  | jump nnn => exact ⟨t, jump_beside nnn⟩
  | call nnn => exact ⟨t, call_beside nnn⟩
  | jumpOffset x nnn => exact ⟨t, jump_beside (m.offsetTarget x nnn)⟩
  | skip condition =>
    have same : condition.holds (m.beside t k) = condition.holds m := holds_beside keys
    refine ⟨t, ?_⟩
    simp only [execute, same]
    split <;> rfl
  | readDelay => contradiction
  | setDelay x => exact ⟨{ t with delay := m.registers.get x }, rfl⟩
  | setSound x => exact ⟨{ t with sound := m.registers.get x }, rfl⟩
  | _ => exact ⟨t, rfl⟩

theorem unread_of_error {f : Fault} (failed : m.execute i = .error f) :
    i.readsTimer = false ∧ i.readsKeys = false := by
  cases transfer : i.transfers with
  | false =>
    obtain ⟨next, done, -, -⟩ := m.execute_straight transfer
    rw [done] at failed
    contradiction
  | true => cases i <;> first | contradiction | exact ⟨rfl, rfl⟩

theorem cycle_beside (t : Timers) (timer : ∀ i, m.cycle.1 = .executed i → i.readsTimer = false)
    (keys : (∀ i, m.cycle.1 = .executed i → i.readsKeys = false) ∨ k = m.keypad) :
    ∃ t', (m.beside t k).cycle = (m.cycle.1, m.cycle.2.beside t' k) := by
  cases waits : m.waiting with
  | some x =>
    refine ⟨t, ?_⟩
    rw [cycle_of_waiting waits]
    exact cycle_of_waiting (m := m.beside t k) waits
  | none =>
    cases decoded : Instruction.decode? m.fetch with
    | none =>
      refine ⟨t, ?_⟩
      rw [cycle_of_illegal waits decoded]
      exact cycle_of_illegal (m := m.beside t k) waits decoded
    | some i =>
      cases done : m.execute i with
      | error f =>
        have unread := unread_of_error done
        obtain ⟨t', same⟩ := execute_beside (m := m) (t := t) (k := k) unread.1 (.inl unread.2)
        rw [done] at same
        refine ⟨t, ?_⟩
        rw [cycle_of_error waits decoded done]
        exact cycle_of_error (m := m.beside t k) waits decoded same
      | ok next =>
        have cycled := cycle_of_ok waits decoded done
        rw [cycled] at timer keys ⊢
        obtain ⟨t', same⟩ := execute_beside (m := m) (t := t) (k := k) (timer i rfl)
          (keys.imp_left fun unread => unread i rfl)
        rw [done] at same
        exact ⟨t', cycle_of_ok (m := m.beside t k) waits decoded same⟩

theorem cycle_keypad (m : Machine) : m.cycle.2.keypad = m.keypad := by
  rcases m.cycle_cases with ⟨x, -, cycled⟩ | ⟨-, f, cycled⟩ | ⟨-, i, next, -, done, cycled⟩
  · rw [cycled]
  · rw [cycled]
  · rw [cycled]
    exact (execute_fixed done).1

theorem cycle_awake (awake : m.waiting = none)
    (unawaited : ∀ i, m.cycle.1 = .executed i → i.awaitsKey = false) : m.cycle.2.waiting = none := by
  rcases m.cycle_cases with ⟨x, waits, cycled⟩ | ⟨-, f, cycled⟩ | ⟨-, i, next, -, done, cycled⟩
  · rw [awake] at waits
    contradiction
  · rw [cycled]
    exact awake
  · rw [cycled] at unawaited ⊢
    rcases execute_waiting done with same | ⟨x, rfl, -⟩
    · exact same.trans awake
    · exact nomatch unawaited _ rfl

/-- Two machines that differ at most in their timers and their keypads. -/
def Alike (m n : Machine) : Prop :=
  ∃ t k, n = m.beside t k

theorem Alike.refl (m : Machine) : Alike m m :=
  ⟨m.timers, m.keypad, rfl⟩

theorem Alike.beside_left (alike : Alike m n) (t : Timers) (k : Keypad) : Alike (m.beside t k) n := by
  obtain ⟨t', k', rfl⟩ := alike
  exact ⟨t', k', rfl⟩

theorem Alike.beside_right (alike : Alike m n) (t : Timers) (k : Keypad) :
    Alike m (n.beside t k) := by
  obtain ⟨t', k', rfl⟩ := alike
  exact ⟨t, k, rfl⟩

theorem Alike.awake (alike : Alike m n) (awake : m.waiting = none) : n.waiting = none := by
  obtain ⟨t, k, rfl⟩ := alike
  exact awake

theorem setKey_of_awake (awake : m.waiting = none) (key : UInt8) (pressed : Bool) :
    m.setKey key pressed = { m with keypad := m.keypad.set key pressed } := by
  simp only [setKey]
  split
  · rename_i x waits
    rw [awake] at waits
    contradiction
  · rfl

theorem feed_fromHost {input : Input} (host : input.fromHost = true) (awake : m.waiting = none) :
    ∃ t k, m.feed input = (none, m.beside t k) := by
  cases input with
  | tick => exact ⟨m.timers.tick, m.keypad, rfl⟩
  | key key pressed =>
    refine ⟨m.timers, m.keypad.set key pressed, ?_⟩
    rw [feed, setKey_of_awake awake]
    rfl
  | cycle | reset => contradiction

/-- Two rows of inputs with as many cycles, between which the host does what it likes. -/
inductive SameCycles : List Input → List Input → Prop where
  | nil : SameCycles [] []
  | cycle {xs ys : List Input} : SameCycles xs ys → SameCycles (.cycle :: xs) (.cycle :: ys)
  | left {x : Input} {xs ys : List Input} :
    x.fromHost = true → SameCycles xs ys → SameCycles (x :: xs) ys
  | right {y : Input} {xs ys : List Input} :
    y.fromHost = true → SameCycles xs ys → SameCycles xs (y :: ys)

theorem cycle_or_fromHost {x : Input} {xs : List Input} (noReset : ∀ rom, .reset rom ∉ x :: xs) :
    x = .cycle ∨ x.fromHost = true := by
  cases x with
  | cycle => exact .inl rfl
  | tick | key => exact .inr rfl
  | reset rom => exact absurd List.mem_cons_self (noReset rom)

theorem count_cons_fromHost {x : Input} (host : x.fromHost = true) (xs : List Input) :
    (x :: xs).count .cycle = xs.count .cycle := by
  apply List.count_cons_of_ne
  rintro rfl
  contradiction

/- Host inputs of the second row are taken off first, then the two rows begin alike. -/
theorem sameCycles_of_count {xs ys : List Input} (first : ∀ rom, .reset rom ∉ xs)
    (second : ∀ rom, .reset rom ∉ ys) (count : xs.count .cycle = ys.count .cycle) :
    SameCycles xs ys := by
  induction ys generalizing xs with
  | nil =>
    induction xs with
    | nil => exact .nil
    | cons x xs ih =>
      rcases cycle_or_fromHost first with rfl | host
      · simp at count
      · rw [count_cons_fromHost host] at count
        exact .left host (ih (fun rom member => first rom (List.mem_cons_of_mem _ member)) count)
  | cons y ys ih =>
    have rest : ∀ rom, .reset rom ∉ ys := fun rom member =>
      second rom (List.mem_cons_of_mem _ member)
    rcases cycle_or_fromHost second with rfl | host
    · induction xs with
      | nil => simp at count
      | cons x xs inner =>
        have others : ∀ rom, .reset rom ∉ xs := fun rom member =>
          first rom (List.mem_cons_of_mem _ member)
        rcases cycle_or_fromHost first with rfl | host
        · simp only [List.count_cons_self, Nat.add_right_cancel_iff] at count
          exact .cycle (ih others rest count)
        · rw [count_cons_fromHost host] at count
          exact .left host (inner others count)
    · rw [count_cons_fromHost host] at count
      exact .right host (ih first rest count)

theorem run_alike {xs ys : List Input} (cycles : SameCycles xs ys) (alike : Alike m n)
    (awake : m.waiting = none)
    (unread : ∀ i, .executed i ∈ (m.run xs).1 →
      i.readsTimer = false ∧ i.readsKeys = false ∧ i.awaitsKey = false) :
    (m.run xs).1 = (n.run ys).1 ∧ Alike (m.run xs).2 (n.run ys).2 := by
  induction cycles generalizing m n with
  | nil => exact ⟨rfl, alike⟩
  | @cycle xs ys cycles ih =>
    have now : ∀ i, m.cycle.1 = .executed i →
        i.readsTimer = false ∧ i.readsKeys = false ∧ i.awaitsKey = false := by
      intro i executed
      apply unread
      rw [run_cons, feed_cycle, executed]
      exact List.mem_cons_self
    obtain ⟨t, k, rfl⟩ := alike
    obtain ⟨t', cycled⟩ := cycle_beside (k := k) t (fun i executed => (now i executed).1)
      (.inl fun i executed => (now i executed).2.1)
    have later := ih (m := m.cycle.2) (n := m.cycle.2.beside t' k) ⟨t', k, rfl⟩
      (cycle_awake awake fun i executed => (now i executed).2.2)
      (fun i executed => unread i (List.mem_cons_of_mem _ executed))
    simp only [run_cons, feed_cycle, cycled]
    exact ⟨congrArg _ later.1, later.2⟩
  -- One side moves alone here, so the relation absorbs the new timers or the new keypad.
  | @left x xs ys host cycles ih =>
    obtain ⟨t, k, fed⟩ := feed_fromHost host awake
    rw [run_cons, fed] at unread ⊢
    exact ih (alike.beside_left t k) awake unread
  | @right y xs ys host cycles ih =>
    obtain ⟨t, k, fed⟩ := feed_fromHost host (alike.awake awake)
    rw [run_cons n y, fed]
    exact ih (alike.beside_right t k) awake unread

/-- A run that looks neither at the timers nor at the keypad has the same outcomes, and ends in the
same machine but for those two, whatever the host does between its cycles. -/
theorem timers_and_keys_do_not_interfere (first second : List Input) (awake : m.waiting = none)
    (noReset : ∀ rom, .reset rom ∉ first ∧ .reset rom ∉ second)
    (sameCycles : first.count .cycle = second.count .cycle)
    (blind : ∀ x, .executed (.readDelay x) ∉ (m.run first).1 ∧
      .executed (.skip (.pressed x)) ∉ (m.run first).1 ∧
      .executed (.skip (.released x)) ∉ (m.run first).1 ∧
      .executed (.awaitKey x) ∉ (m.run first).1) :
    (m.run first).1 = (m.run second).1 ∧
      (m.run second).2 = { (m.run first).2 with
        timers := (m.run second).2.timers
        keypad := (m.run second).2.keypad } := by
  have cycles : SameCycles first second :=
    sameCycles_of_count (fun rom => (noReset rom).1) (fun rom => (noReset rom).2) sameCycles
  have unread : ∀ i, .executed i ∈ (m.run first).1 →
      i.readsTimer = false ∧ i.readsKeys = false ∧ i.awaitsKey = false := by
    intro i executed
    cases i with
    | readDelay x => exact absurd executed (blind x).1
    | awaitKey x => exact absurd executed (blind x).2.2.2
    | skip condition =>
      cases condition with
      | pressed x => exact absurd executed (blind x).2.1
      | released x => exact absurd executed (blind x).2.2.1
      | _ => exact ⟨rfl, rfl, rfl⟩
    | _ => exact ⟨rfl, rfl, rfl⟩
  obtain ⟨outcomes, t, k, final⟩ := run_alike cycles (.refl m) awake unread
  refine ⟨outcomes, ?_⟩
  rw [final]
  rfl

/- A program that sets the delay timer and then jumps to itself. -/
def delayAndLoop : Rom where
  bytes := #[0x61, 0x05, 0xF1, 0x15, 0x12, 0x04]

def beforeDelay : Machine :=
  { boot delayAndLoop {} with pc := 0x202, registers := Registers.zero.set 1 5 }

def looping : Machine :=
  { beforeDelay with pc := 0x204, timers := { delay := 5 } }

def withHost : List Input :=
  [.cycle, .key 3 true, .tick, .cycle, .tick, .cycle]

theorem timers_and_keys_do_not_interfere_loop :
    ((boot delayAndLoop {}).run withHost).1 =
      [.executed (.load 1 5), .executed (.setDelay 1), .executed (.jump 0x204)] ∧
    ((boot delayAndLoop {}).run withHost).2 = { looping with
      timers := ((boot delayAndLoop {}).run withHost).2.timers
      keypad := ((boot delayAndLoop {}).run withHost).2.keypad } := by
  have atStart : Instruction.decode? (boot delayAndLoop {}).fetch = some (.load 1 5) := by
    rw [fetch_of_loaded (m := boot delayAndLoop {}) delayAndLoop rfl]
    decide
  have atDelay : Instruction.decode? beforeDelay.fetch = some (.setDelay 1) := by
    rw [fetch_of_loaded (m := beforeDelay) delayAndLoop rfl]
    decide
  have atLoop : Instruction.decode? looping.fetch = some (.jump 0x204) := by
    rw [fetch_of_loaded (m := looping) delayAndLoop rfl]
    decide
  have jumped : looping.execute (.jump 0x204) = .ok looping :=
    (jump_eq_ok_iff (m := looping)).mpr ⟨by decide, rfl⟩
  have first : (boot delayAndLoop {}).cycle = (.executed (.load 1 5), beforeDelay) :=
    cycle_of_ok rfl atStart rfl
  have second : beforeDelay.cycle = (.executed (.setDelay 1), looping) :=
    cycle_of_ok rfl atDelay rfl
  have third : looping.cycle = (.executed (.jump 0x204), looping) :=
    cycle_of_ok rfl atLoop jumped
  have bare : (boot delayAndLoop {}).run [.cycle, .cycle, .cycle] =
      ([.executed (.load 1 5), .executed (.setDelay 1), .executed (.jump 0x204)], looping) := by
    rw [run_cons, feed_cycle, first, run_cons, feed_cycle, second, run_cons, feed_cycle, third,
      run_nil]
    rfl
  have same := timers_and_keys_do_not_interfere (m := boot delayAndLoop {})
    [.cycle, .cycle, .cycle] withHost rfl (by simp [withHost]) (by decide) (by simp [bare])
  rwa [bare, eq_comm] at same

end Machine

end Chip8
