import Chip8.Machine.History
import Chip8.Proofs.FaultLatch

/-!
# What a session feeds its machine

All that a session does to its machine is to feed it inputs. Every command is a row of them: a frame
is cycles and a tick, a step is a cycle, and the commands that the machine does not notice are no
inputs at all. What the host hears on the way depends on these inputs and the machine alone.
-/

namespace Chip8

namespace Machine

/-- What a frame of at most `n` cycles is for the machine. The first cycle that carries out no
instruction is the last one, and a tick comes after it unless it met a fault. -/
def frameInputs (m : Machine) : Nat → List Input
  | 0 => [.tick]
  | n + 1 =>
    .cycle :: match m.cycle with
      | (.executed _, next) => next.frameInputs n
      | (.waiting, _) => [.tick]
      | (.fault _, _) => []

def told (m : Machine) : Input → List Event
  | .cycle =>
    match m.cycle with
    | (.executed i, next) => next.instructionEvents i ++ m.soundEvents next
    | (.waiting, _) => []
    | (.fault f, _) => [.fault f]
  | .tick => m.soundEvents m.tick
  | .key _ _ => []
  | .reset rom => m.soundEvents (m.reset rom)

def toldAll (m : Machine) : List Input → List Event
  | [] => []
  | input :: rest => m.told input ++ (m.feed input).2.toldAll rest

theorem toldAll_append (m : Machine) (first second : List Input) :
    m.toldAll (first ++ second) = m.toldAll first ++ (m.run first).2.toldAll second := by
  induction first generalizing m with
  | nil => rfl
  | cons input rest ih => simp only [List.cons_append, toldAll, run_cons, ih, List.append_assoc]

structure Configured (settings : Settings) (m : Machine) : Prop where
  stream : m.random.stream = settings.stream settings.seed
  dialect : m.dialect = settings.dialect

variable {settings : Settings} {m next : Machine} {i : Instruction}

theorem execute_configured (configured : m.Configured settings) (done : m.execute i = .ok next) :
    next.Configured settings := by
  constructor
  · rw [execute_random done]
    split <;> exact configured.stream
  · exact (execute_fixed done).2.trans configured.dialect

theorem feed_configured (m : Machine) (input : Input) (configured : m.Configured settings) :
    (m.feed input).2.Configured settings := by
  cases input with
  | cycle =>
    rw [feed_cycle]
    rcases m.cycle_cases with ⟨x, -, cycled⟩ | ⟨-, f, cycled⟩ | ⟨-, i, next, -, done, cycled⟩
    · exact cycled ▸ configured
    · exact cycled ▸ configured
    · exact cycled ▸ execute_configured configured done
  | tick => exact ⟨configured.stream, configured.dialect⟩
  | key key pressed =>
    obtain ⟨keypad, registers, waiting, keyed⟩ := m.setKey_frame key pressed
    rw [feed, keyed]
    exact ⟨configured.stream, configured.dialect⟩
  | reset rom => exact ⟨configured.stream, configured.dialect⟩

end Machine

namespace Session

/-- What a command is for the machine. A step that the kept fault answers is nothing to it, and
neither is a frame of a session that is not running. -/
def inputs (s : Session) : Command → List Input
  | .step => if s.fault.isSome then [] else [.cycle]
  | .frame => if s.running then s.machine.frameInputs s.rate else []
  | .tick => [.tick]
  | .key key pressed => [.key key pressed]
  | .reset bytes =>
    match Rom.ofBytes bytes with
    | .ok rom => [.reset rom]
    | .error _ => []
  | .load rom => [.reset rom]
  | .start | .stop | .hangUp => []

def history (s : Session) : List Command → List Input
  | [] => []
  | command :: rest => s.inputs command ++ (s.obey command).2.history rest

/-- The session `t` is what feeding its machine the inputs makes of `s`. -/
structure Fed (s : Session) (inputs : List Input) (t : Session) : Prop where
  machine : t.machine = (s.machine.run inputs).2
  rate : t.rate = s.rate
  observer : t.host.observer = s.host.observer
  listens : t.host.listens = s.host.listens
  heard : t.host.heard = s.host.heard ++ if s.host.listens then s.machine.toldAll inputs else []

variable {s t u : Session} {xs ys : List Input} {command : Command}

theorem Fed.of_same (machine : t.machine = s.machine) (rate : t.rate = s.rate)
    (observer : t.host.observer = s.host.observer) (listens : t.host.listens = s.host.listens)
    (heard : t.host.heard = s.host.heard) : Fed s [] t :=
  ⟨machine, rate, observer, listens, by simp [Machine.toldAll, heard]⟩

theorem Fed.refl (s : Session) : Fed s [] s :=
  .of_same rfl rfl rfl rfl rfl

theorem Fed.trans (first : Fed s xs t) (second : Fed t ys u) : Fed s (xs ++ ys) u where
  machine := by rw [second.machine, first.machine, Machine.run_append]
  rate := second.rate.trans first.rate
  observer := second.observer.trans first.observer
  listens := second.listens.trans first.listens
  heard := by
    rw [second.heard, first.heard, first.listens, first.machine, Machine.toldAll_append]
    cases s.host.listens <;> simp

theorem Fed.one {input : Input} (machine : t.machine = (s.machine.feed input).2)
    (rate : t.rate = s.rate) (observer : t.host.observer = s.host.observer)
    (listens : t.host.listens = s.host.listens)
    (heard : t.host.heard = s.host.heard ++ if s.host.listens then s.machine.told input else []) :
    Fed s [input] t :=
  ⟨machine, rate, observer, listens, by simpa [Machine.toldAll] using heard⟩

theorem step_fed (clear : s.fault = none) : Fed s [.cycle] s.step.2 := by
  have recorded : (s.host.recordAll s.machine.cycleRecords).heard = s.host.heard :=
    Host.recordAll_heard s.machine.cycleRecords_plain
  rcases s.step_cases with ⟨f, latched, -⟩ | ⟨-, x, waits, stepped⟩ |
    ⟨-, -, f, cycled, stepped⟩ | ⟨-, i, next, cycled, stepped⟩
  · rw [clear] at latched
    contradiction
  · have cycled := Machine.cycle_of_waiting waits
    rw [stepped]
    apply Fed.one
    · rw [Machine.feed_cycle, cycled]
    · rfl
    · rfl
    · rfl
    · simp [Machine.told, cycled]
  · rw [stepped]
    apply Fed.one
    · rw [Machine.feed_cycle, cycled]
    · rfl
    · simp
    · simp
    · simp [Host.send_heard, Host.record_heard (r := .stopped f) rfl, recorded, Machine.told, cycled]
  · rw [stepped]
    apply Fed.one
    · rw [Machine.feed_cycle, cycled]
    · rfl
    · simp
    · simp
    · simp [Host.sendAll_heard, recorded, Machine.told, cycled]

theorem tick_fed (s : Session) : Fed s [.tick] s.tick := by
  apply Fed.one
  · rfl
  · rfl
  · simp [tick]
  · simp [tick]
  · simp [tick, Host.sendAll_heard, Machine.told]

theorem load_fed (s : Session) (rom : Rom) : Fed s [.reset rom] (s.load rom) := by
  apply Fed.one
  · rfl
  · rfl
  · simp [load]
  · simp [load]
  · simp [load, Host.sendAll_heard, Host.record_heard (r := .reset rom.size) rfl, Machine.told]

theorem setKey_fed (s : Session) (key : UInt8) (pressed : Bool) :
    Fed s [.key key pressed] (s.setKey key pressed) := by
  apply Fed.one
  · rfl
  · rfl
  · simp [setKey]
  · simp [setKey]
  · simp [setKey, Host.recordAll_heard (s.machine.keyRecords_plain key pressed), Machine.told]

theorem start_fed (s : Session) : Fed s [] s.start := by
  unfold start
  split
  · exact .of_same rfl rfl (by simp) (by simp) (Host.record_heard rfl)
  · exact .of_same rfl rfl rfl rfl rfl

/- A burst and the tick after it. Each step of the burst is one cycle of the frame. -/
theorem burst_fed (clear : s.fault = none) (executed n : Nat) :
    Fed s (s.machine.frameInputs n) (match s.burst executed n with
      | (.ok _, next) => next.tick
      | (.error _, next) => next) := by
  induction n generalizing s executed with
  | zero => exact tick_fed s
  | succ n ih =>
    have first := step_fed clear
    simp only [burst, Machine.frameInputs]
    rcases s.step_cases with ⟨f, latched, -⟩ | ⟨-, x, waits, stepped⟩ |
      ⟨-, -, f, cycled, stepped⟩ | ⟨-, i, next, cycled, stepped⟩
    · rw [clear] at latched
      contradiction
    · rw [stepped] at first ⊢
      rw [Machine.cycle_of_waiting waits]
      exact first.trans (tick_fed s)
    · rw [stepped] at first ⊢
      rw [cycled]
      exact first
    · rw [stepped] at first ⊢
      rw [cycled]
      -- The session after the step is only known by its parts, so it is given by hand.
      exact first.trans (ih (s := { s with machine := next, host := _ }) clear _)

theorem frame_fed (runs : s.running = true) (clear : s.fault = none) :
    Fed s (s.machine.frameInputs s.rate) s.frame.2 := by
  have whole := burst_fed clear 0 s.rate
  simp only [frame, runs, if_true]
  split at whole <;> simp_all

theorem obey_fed (reachable : s.Reachable) (stays : command ≠ .hangUp) :
    Fed s (s.inputs command) (s.obey command).2 := by
  cases command with
  | start => exact start_fed s
  | stop => exact .of_same rfl rfl rfl rfl rfl
  | step =>
    rw [obey_step, inputs]
    cases fault : s.fault with
    | none => exact step_fed fault
    | some f =>
      rw [step_of_latched fault]
      exact .refl s
  | frame =>
    rw [obey_frame, inputs]
    cases runs : s.running with
    | true => exact frame_fed runs (reachable.consistent.clear_of_running runs)
    | false =>
      have framed : s.frame = (.ok 0, s) := by simp [frame, runs]
      rw [framed]
      exact .refl s
  | tick => exact tick_fed s
  | key key pressed => exact setKey_fed s key pressed
  | reset bytes =>
    by_cases fits : bytes.size ≤ Layout.programSpace
    · rw [obey_reset_of_fits fits]
      simp only [inputs, Rom.ofBytes, dif_pos fits]
      exact load_fed s _
    · rw [obey_reset_of_large fits]
      simp only [inputs, Rom.ofBytes, dif_neg fits]
      exact .refl s
  | load rom => exact load_fed s rom
  | hangUp => exact absurd rfl stays

theorem run_fed {commands : List Command} (reachable : s.Reachable) (stays : .hangUp ∉ commands) :
    Fed s (s.history commands) (s.run commands).2 := by
  induction commands generalizing s with
  | nil => exact .refl s
  | cons command rest ih =>
    obtain ⟨here, later⟩ := List.ne_and_not_mem_of_not_mem_cons stays
    exact (obey_fed reachable here.symm).trans (ih (reachable.obey command) later)

/- The machine does not notice that the receiver of the events hangs up. -/
theorem run_machine (reachable : s.Reachable) (commands : List Command) :
    (s.run commands).2.machine = (s.machine.run (s.history commands)).2 ∧
      (s.run commands).2.rate = s.rate := by
  induction commands generalizing s with
  | nil => exact ⟨rfl, rfl⟩
  | cons command rest ih =>
    obtain ⟨machine, rate⟩ := ih (reachable.obey command)
    have first : (s.obey command).2.machine = (s.machine.run (s.inputs command)).2 ∧
        (s.obey command).2.rate = s.rate := by
      by_cases leaves : command = .hangUp
      · rw [leaves]
        exact ⟨rfl, rfl⟩
      · have fed := obey_fed reachable leaves
        exact ⟨fed.machine, fed.rate⟩
    rw [run_cons, history, Machine.run_append, ← first.1]
    exact ⟨machine, rate.trans first.2⟩

theorem run_configured {first : Session} {settings : Settings} {host : Host}
    (made : first = new settings host ∨ ∃ rom, first = withRom rom settings host)
    (commands : List Command) :
    (first.run commands).2.machine.Configured settings ∧
      (first.run commands).2.rate = settings.rate := by
  have start : first.machine.Configured settings ∧ first.rate = settings.rate := by
    rcases made with rfl | ⟨rom, rfl⟩ <;> exact ⟨⟨rfl, rfl⟩, rfl⟩
  obtain ⟨machine, rate⟩ := run_machine (.of_made made) commands
  rw [machine, rate]
  exact ⟨Machine.run_keeps Machine.feed_configured _ start.1, start.2⟩

end Session

end Chip8
