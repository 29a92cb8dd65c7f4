import Chip8.Proofs.Feeding

namespace Chip8

inductive Timer where
  | delay
  | sound
deriving DecidableEq

def Timers.read (t : Timers) : Timer → UInt8
  | .delay => t.delay
  | .sound => t.sound

def Instruction.sets (timer : Timer) : Instruction → Bool
  | .setDelay _ => timer = .delay
  | .setSound _ => timer = .sound
  | _ => false

theorem Timers.toNat_countDown (t : UInt8) : (countDown t).toNat = t.toNat - 1 := by
  unfold countDown
  split
  · rename_i zero
    rw [zero]
    rfl
  · rename_i positive
    have nonzero : t.toNat ≠ 0 := fun zero => positive (UInt8.toNat_inj.mp zero)
    have small : t.toNat < 256 := UInt8.toNat_lt t
    rw [UInt8.toNat_sub, UInt8.toNat_one]
    omega

theorem Timers.read_tick (t : Timers) (timer : Timer) :
    (t.tick.read timer).toNat = (t.read timer).toNat - 1 := by
  cases timer <;> exact toNat_countDown _

namespace Machine

variable {m next : Machine} {i : Instruction} {timer : Timer} {input : Input}

theorem execute_timer (unset : i.sets timer = false) (done : m.execute i = .ok next) :
    next.timers.read timer = m.timers.read timer := by
  cases i with
  | ret | jump | call | jumpOffset =>
    obtain ⟨pc, stack, rfl⟩ := execute_transfer rfl done
    rfl
  | skip condition =>
    cases Except.ok.inj done
    split <;> rfl
  | setDelay x | setSound x =>
    cases Except.ok.inj done
    cases timer with
    | delay => first | rfl | contradiction
    | sound => first | rfl | contradiction
  | _ =>
    cases Except.ok.inj done
    rfl

/- Only a tick counts a timer down. -/
theorem feed_timer (stays : ∀ rom, input ≠ .reset rom)
    (unset : ∀ i, (m.feed input).1 = some (.executed i) → i.sets timer = false) :
    ((m.feed input).2.timers.read timer).toNat =
      (m.timers.read timer).toNat - [input].count .tick := by
  cases input with
  | cycle =>
    rw [feed_cycle] at unset ⊢
    rcases m.cycle_cases with ⟨x, -, cycled⟩ | ⟨-, f, cycled⟩ | ⟨-, i, next, -, done, cycled⟩
    · rw [cycled]
      rfl
    · rw [cycled]
      rfl
    · rw [cycled] at unset ⊢
      rw [execute_timer (unset i rfl) done]
      rfl
  | tick => exact m.timers.read_tick timer
  | key key pressed =>
    obtain ⟨keypad, registers, waiting, keyed⟩ := m.setKey_frame key pressed
    rw [feed, keyed]
    rfl
  | reset rom => exact absurd rfl (stays rom)

theorem run_timer {inputs : List Input} (stays : ∀ rom, .reset rom ∉ inputs)
    (unset : ∀ i, .executed i ∈ (m.run inputs).1 → i.sets timer = false) :
    ((m.run inputs).2.timers.read timer).toNat =
      (m.timers.read timer).toNat - inputs.count .tick := by
  induction inputs generalizing m with
  | nil => rfl
  | cons input rest ih =>
    obtain ⟨here, later⟩ := noReset_cons.mp stays
    rw [run_cons] at unset ⊢
    have first := feed_timer (m := m) here fun i executed =>
      unset i (List.mem_append_left _ (by simp [executed]))
    rw [ih later fun i executed => unset i (List.mem_append_right _ executed), first, Nat.sub_sub,
      Nat.add_comm, List.count_cons, List.count_cons, List.count_nil, Nat.zero_add]

theorem frameInputs_noReset (m : Machine) (n : Nat) (rom : Rom) :
    .reset rom ∉ m.frameInputs n := by
  induction n generalizing m with
  | zero => simp [frameInputs]
  | succ n ih =>
    simp only [frameInputs]
    split <;> simp [ih]

end Machine

namespace Session

variable {s : Session} {command : Command}

/-- Whether a command lets the timers tick: a tick by itself, or a frame of a running session that
no fault ends. -/
def ticksOn (s : Session) : Command → Bool
  | .tick => true
  | .frame => s.running && s.frame.1.isOk
  | _ => false

def ticks (s : Session) : List Command → Nat
  | [] => 0
  | command :: rest => (s.ticksOn command).toNat + (s.obey command).2.ticks rest

/- A burst that goes well is followed by the tick of its frame. -/
theorem count_frameInputs (clear : s.fault = none) (executed n : Nat) :
    (s.machine.frameInputs n).count .tick = (s.burst executed n).1.isOk.toNat := by
  induction n generalizing s executed with
  | zero => rfl
  | succ n ih =>
    simp only [burst, Machine.frameInputs]
    rcases s.step_cases with ⟨f, latched, -⟩ | ⟨-, x, waits, stepped⟩ |
      ⟨-, -, f, cycled, stepped⟩ | ⟨-, i, next, cycled, stepped⟩
    · rw [clear] at latched
      contradiction
    · rw [stepped, Machine.cycle_of_waiting waits]
      rfl
    · rw [stepped, cycled]
      rfl
    · rw [stepped, cycled, List.count_cons_of_ne (by simp)]
      exact ih (s := { s with machine := next, host := _ }) clear _

theorem isOk_frame (runs : s.running = true) : s.frame.1.isOk = (s.burst 0 s.rate).1.isOk := by
  simp only [frame, runs, if_true]
  rcases s.burst 0 s.rate with ⟨answer, next⟩
  cases answer <;> rfl

theorem count_inputs (reachable : s.Reachable) (command : Command) :
    (s.inputs command).count .tick = (s.ticksOn command).toNat := by
  cases command with
  | frame =>
    simp only [inputs, ticksOn]
    cases runs : s.running with
    | true =>
      have clear : s.fault = none := reachable.consistent.clear_of_running runs
      rw [if_pos rfl, Bool.true_and, isOk_frame runs, count_frameInputs clear 0]
    | false => rfl
  | step =>
    simp only [inputs]
    split <;> rfl
  | reset bytes =>
    simp only [inputs]
    split <;> simp [ticksOn]
  | _ => rfl

theorem count_history (reachable : s.Reachable) (commands : List Command) :
    (s.history commands).count .tick = s.ticks commands := by
  induction commands generalizing s with
  | nil => rfl
  | cons command rest ih =>
    rw [history, ticks, List.count_append, count_inputs reachable, ih (reachable.obey command)]

theorem inputs_noReset (stays : command.loads = false) (rom : Rom) :
    .reset rom ∉ s.inputs command := by
  cases command with
  | step =>
    simp only [inputs]
    split <;> simp
  | frame =>
    simp only [inputs]
    split
    · exact s.machine.frameInputs_noReset s.rate rom
    · simp
  | reset bytes =>
    have large : ¬ bytes.size ≤ Layout.programSpace := of_decide_eq_false stays
    simp [inputs, Rom.ofBytes, large]
  | load rom => contradiction
  | _ => simp [inputs]

theorem history_noReset {commands : List Command}
    (stays : ∀ command ∈ commands, command.loads = false) (rom : Rom) :
    .reset rom ∉ s.history commands := by
  induction commands generalizing s with
  | nil => simp [history]
  | cons command rest ih =>
    have here : .reset rom ∉ s.inputs command :=
      inputs_noReset (stays command List.mem_cons_self) rom
    have later : .reset rom ∉ (s.obey command).2.history rest :=
      ih fun other member => stays other (List.mem_cons_of_mem _ member)
    simp [history, here, later]

/- A frame of a session that waits for a key is its tick alone, whatever the rate is. -/
theorem frame_of_waiting {x : UInt8} (runs : s.running = true) (clear : s.fault = none)
    (waits : s.machine.waiting = some x) : s.frame = (.ok 0, s.tick) := by
  have burst : s.burst 0 s.rate = (.ok 0, s) := by
    cases s.rate with
    | zero => rfl
    | succ n => simp only [Session.burst, step_of_waiting clear waits]
  simp only [frame, runs, burst, if_true]

theorem run_timer (reachable : s.Reachable) {commands : List Command}
    (stays : ∀ command ∈ commands, command.loads = false) (timer : Timer)
    (unset : ∀ i, .executed i ∈ (s.machine.run (s.history commands)).1 → i.sets timer = false) :
    ((s.run commands).2.machine.timers.read timer).toNat =
      (s.machine.timers.read timer).toNat - s.ticks commands := by
  rw [(run_machine reachable commands).1, ← count_history reachable commands]
  exact Machine.run_timer (history_noReset stays) unset

/-- Until a program is loaded, a timer that no instruction sets counts down once for every tick and
for every frame of a running session that no fault ends, and stops at zero. A frame spent waiting
for a key is such a frame. -/
theorem timers_count_the_ticks (reachable : s.Reachable) (commands : List Command)
    (stays : ∀ command ∈ commands, command.loads = false) :
    (s.run commands).2.machine = (s.machine.run (s.history commands)).2 ∧
    ((∀ x, .executed (.setDelay x) ∉ (s.machine.run (s.history commands)).1) →
      (s.run commands).2.machine.timers.delay.toNat =
        s.machine.timers.delay.toNat - s.ticks commands) ∧
    ((∀ x, .executed (.setSound x) ∉ (s.machine.run (s.history commands)).1) →
      (s.run commands).2.machine.timers.sound.toNat =
        s.machine.timers.sound.toNat - s.ticks commands) ∧
    ∀ x, s.running = true → s.machine.waiting = some x →
      s.ticksOn .frame = true ∧ s.frame.2.machine = s.machine.tick := by
  refine ⟨(run_machine reachable commands).1, ?_, ?_, ?_⟩
  · intro unset
    apply run_timer reachable stays .delay
    intro i executed
    cases i with
    | setDelay x => exact absurd executed (unset x)
    | _ => rfl
  · intro unset
    apply run_timer reachable stays .sound
    intro i executed
    cases i with
    | setSound x => exact absurd executed (unset x)
    | _ => rfl
  · intro x runs waits
    have framed := frame_of_waiting runs (reachable.consistent.clear_of_running runs) waits
    simp only [ticksOn, runs, framed, Bool.true_and]
    exact ⟨rfl, rfl⟩

/- A program that sets the delay timer and then waits for a key. -/
def delayThenWait : Rom where
  bytes := #[0x61, 0x03, 0xF1, 0x15, 0xF2, 0x0A]

def delaying (pc : UInt16) (delay : UInt8) (waiting : Option UInt8) (events : Array Event) :
    Session :=
  { withRom delayThenWait {} overChannel with
    machine := { Machine.boot delayThenWait {} with
      pc, registers := Registers.zero.set 1 3, timers := { delay }, waiting }
    host := { overChannel with events } }

theorem reachable_delaying : (delaying 0x206 3 (some 2) #[.keyWait 2]).Reachable := by
  have atStart : Instruction.decode? (Machine.boot delayThenWait {}).fetch = some (.load 1 3) := by
    rw [Machine.fetch_of_loaded (m := Machine.boot delayThenWait {}) delayThenWait rfl]
    decide
  have atDelay : Instruction.decode? (delaying 0x202 0 none #[]).machine.fetch =
      some (.setDelay 1) := by
    rw [Machine.fetch_of_loaded delayThenWait (by rfl)]
    decide
  have atWait : Instruction.decode? (delaying 0x204 3 none #[]).machine.fetch =
      some (.awaitKey 2) := by
    rw [Machine.fetch_of_loaded delayThenWait (by rfl)]
    decide
  have first : (withRom delayThenWait {} overChannel).step =
      (.executed (.load 1 3), delaying 0x202 0 none #[]) := by
    rw [step_of_executed (s := withRom delayThenWait {} overChannel) rfl
      (Machine.cycle_of_ok rfl atStart rfl), Host.recordAll_of_silent rfl]
    rfl
  have second : (delaying 0x202 0 none #[]).step =
      (.executed (.setDelay 1), delaying 0x204 3 none #[]) := by
    rw [step_of_executed rfl (Machine.cycle_of_ok rfl atDelay rfl), Host.recordAll_of_silent rfl]
    rfl
  have third : (delaying 0x204 3 none #[]).step =
      (.executed (.awaitKey 2), delaying 0x206 3 (some 2) #[.keyWait 2]) := by
    rw [step_of_executed rfl (Machine.cycle_of_ok rfl atWait rfl), Host.recordAll_of_silent rfl]
    rfl
  exact (((Reachable.withRom _ _ _).stepped first).stepped second).stepped third

/- A frame before the session is started, one after it, a step and a tick: two of them tick. -/
theorem timers_count_the_ticks_waiting :
    (delaying 0x206 3 (some 2) #[.keyWait 2]).Reachable ∧
    (delaying 0x206 3 (some 2) #[.keyWait 2]).ticks [.frame, .start, .frame, .step, .tick] = 2 ∧
    ((delaying 0x206 3 (some 2) #[.keyWait 2]).run
      [.frame, .start, .frame, .step, .tick]).2.machine.timers.delay.toNat = 3 - 2 := by
  have two : (delaying 0x206 3 (some 2) #[.keyWait 2]).ticks
      [.frame, .start, .frame, .step, .tick] = 2 := rfl
  have planned : (delaying 0x206 3 (some 2) #[.keyWait 2]).history
      [.frame, .start, .frame, .step, .tick] = [.cycle, .tick, .cycle, .tick] := rfl
  have outcomes : ((delaying 0x206 3 (some 2) #[.keyWait 2]).machine.run
      [.cycle, .tick, .cycle, .tick]).1 = [.waiting, .waiting] := rfl
  have counted := (timers_count_the_ticks reachable_delaying [.frame, .start, .frame, .step, .tick]
    (by simp [Command.loads])).2.1
  rw [planned, outcomes, two] at counted
  exact ⟨reachable_delaying, two, counted (by simp)⟩

end Session

end Chip8
