import Chip8.Proofs.KeyWait
import Chip8.Proofs.TimerTicks

/-!
# Frames and steps

A frame of a running session does what its instructions would do step by step, and then ticks. So it
can be cut behind any of its instructions: the steps up to there, and a frame of the instructions
that are left. Only a wait for a key makes a frame that goes well shorter than it could be, and then
no frame carries out an instruction until the wait is over.
-/

namespace Chip8.Session

variable {s after next : Session} {e k n : Nat} {x : UInt8}

def atRate (s : Session) (rate : Nat) : Session :=
  { s with rate }

theorem step_atRate (s : Session) (rate : Nat) :
    (s.atRate rate).step = (s.step.1, s.step.2.atRate rate) := by
  rcases s.step_cases with ⟨f, latched, stepped⟩ | ⟨clear, x, waits, stepped⟩ |
    ⟨clear, -, f, cycled, stepped⟩ | ⟨clear, i, next, cycled, stepped⟩
  · rw [stepped]
    exact step_of_latched (s := s.atRate rate) latched
  · rw [stepped]
    exact step_of_waiting (s := s.atRate rate) clear waits
  · rw [stepped]
    exact step_of_fault (s := s.atRate rate) clear cycled
  · rw [stepped]
    exact step_of_executed (s := s.atRate rate) clear cycled

theorem start_atRate (s : Session) (rate : Nat) : (s.atRate rate).start = s.start.atRate rate := by
  cases fault : s.fault <;> simp only [start, atRate, fault]

theorem burst_atRate (s : Session) (rate e n : Nat) :
    (s.atRate rate).burst e n = ((s.burst e n).1, (s.burst e n).2.atRate rate) :=
  burst_commutes (fun s => s.step_atRate rate) s e n

/- The frames of a session are steps and ticks, which it could be asked for at another rate just as
well. -/
theorem keeps_reachable_atRate (rate : Nat) : Keeps fun s => (s.atRate rate).Reachable where
  start := fun s reachable => s.start_atRate rate ▸ reachable.obey .start
  stop := fun _ reachable => reachable.obey .stop
  step := fun s reachable => reachable.stepped (s.step_atRate rate)
  tick := fun _ reachable => reachable.obey .tick
  key := fun _ key pressed reachable => reachable.obey (.key key pressed)
  load := fun _ rom reachable => reachable.obey (.load rom)

theorem Reachable.atRate (reachable : s.Reachable) (rate : Nat) : (s.atRate rate).Reachable := by
  induction reachable with
  | new settings host => exact .new { settings with rate } host
  | withRom rom settings host => exact .withRom rom { settings with rate } host
  | obey command _ ih =>
    by_cases leaves : command = .hangUp
    · exact leaves ▸ ih.obey .hangUp
    · exact (keeps_reachable_atRate rate).obey leaves ih

theorem burst_add (s : Session) (k e n : Nat) :
    s.burst (k + e) n = ((s.burst e n).1.map (k + ·), (s.burst e n).2) := by
  induction n generalizing s e with
  | zero => rfl
  | succ n ih =>
    simp only [burst]
    rcases s.step with ⟨outcome, next⟩
    cases outcome with
    | executed i => exact ih next (e + 1)
    | waiting => rfl
    | fault f => rfl

/-- So many steps that each carry out an instruction lead from one session to the other. -/
inductive Walks : Session → Nat → Session → Prop where
  | refl (s : Session) : Walks s 0 s
  | step {s next last : Session} {k : Nat} {i : Instruction} :
    s.step = (.executed i, next) → Walks next k last → Walks s (k + 1) last

theorem Walks.burst (walks : s.Walks k after) (e n : Nat) :
    s.burst e (k + n) = after.burst (e + k) n := by
  induction walks generalizing e with
  | refl s => rw [Nat.zero_add, Nat.add_zero]
  | @step s next last k i stepped _ ih =>
    rw [Nat.add_right_comm k 1 n]
    simp only [Session.burst, stepped]
    rw [ih (e + 1), Nat.add_assoc, Nat.add_comm 1 k]

theorem Walks.running (walks : s.Walks k after) : after.running = s.running := by
  induction walks with
  | refl s => rfl
  | @step s next last k i stepped _ ih =>
    rw [ih]
    rcases s.step_cases with ⟨f, -, same⟩ | ⟨-, x, -, same⟩ | ⟨-, -, f, -, same⟩ |
      ⟨-, j, m, -, same⟩
    · cases same.symm.trans stepped
    · cases same.symm.trans stepped
    · cases same.symm.trans stepped
    · cases same.symm.trans stepped
      rfl

theorem frame_atRate (runs : s.running = true) (n : Nat) :
    (s.atRate n).frame = match s.burst 0 n with
      | (.ok e, next) => (.ok e, next.tick.atRate n)
      | (.error f, next) => (.error f, next.atRate n) := by
  have running : (s.atRate n).running = true := runs
  have rate : (s.atRate n).rate = n := rfl
  simp only [frame, running, rate, burst_atRate, if_true]
  rcases s.burst 0 n with ⟨answer, next⟩
  cases answer <;> rfl

theorem Walks.frame (walks : s.Walks k after) (runs : s.running = true) (fits : k ≤ n) :
    (s.atRate n).frame = ((after.atRate (n - k)).frame.1.map (k + ·),
      (after.atRate (n - k)).frame.2.atRate n) := by
  have whole : s.burst 0 n = ((after.burst 0 (n - k)).1.map (k + ·),
      (after.burst 0 (n - k)).2) := calc
    s.burst 0 n = s.burst 0 (k + (n - k)) := by rw [Nat.add_sub_cancel' fits]
    _ = after.burst (0 + k) (n - k) := walks.burst 0 _
    _ = after.burst (k + 0) (n - k) := by rw [Nat.add_comm]
    _ = _ := after.burst_add k 0 _
  rw [frame_atRate runs, frame_atRate (walks.running.trans runs), whole]
  rcases after.burst 0 (n - k) with ⟨answer, next⟩
  cases answer <;> rfl

/- The answer of a burst that goes well counts the steps that it took, and only a wait cuts it
short. -/
theorem walks_of_burst (burst : s.burst k n = (.ok e, next)) :
    ∃ j ≤ n, e = k + j ∧ s.Walks j next ∧ (j < n → ∃ x, next.machine.waiting = some x) := by
  induction n generalizing s k with
  | zero =>
    cases burst
    exact ⟨0, Nat.le_refl 0, rfl, .refl _, fun short => absurd short (Nat.lt_irrefl 0)⟩
  | succ n ih =>
    simp only [Session.burst] at burst
    rcases s.step_cases with ⟨f, -, stepped⟩ | ⟨-, x, waits, stepped⟩ | ⟨-, -, f, -, stepped⟩ |
      ⟨-, i, m, -, stepped⟩
    · rw [stepped] at burst
      cases burst
    · rw [stepped] at burst
      cases burst
      exact ⟨0, Nat.zero_le _, rfl, .refl _, fun _ => ⟨x, waits⟩⟩
    · rw [stepped] at burst
      cases burst
    · rw [stepped] at burst
      obtain ⟨j, fits, rfl, walks, early⟩ := ih burst
      refine ⟨j + 1, Nat.succ_le_succ fits, Nat.add_right_comm k 1 j, .step stepped walks, ?_⟩
      exact fun short => early (Nat.lt_of_succ_lt_succ short)

theorem walks_of_frame (runs : s.running = true) (framed : (s.atRate n).frame = (.ok e, next)) :
    e ≤ n ∧ (∃ last, s.Walks e last ∧ next = last.tick.atRate n) ∧
      (e < n → ∃ x, next.machine.waiting = some x) := by
  rw [frame_atRate runs] at framed
  split at framed
  · rename_i reached last burst
    cases framed
    obtain ⟨j, fits, count, walks, early⟩ := walks_of_burst burst
    rw [Nat.zero_add] at count
    subst count
    exact ⟨fits, ⟨last, walks, rfl⟩, early⟩
  · cases framed

/- Nothing but a key that goes down or another program ends a wait. -/
theorem waiting_of_unpressed (reachable : s.Reachable) (waits : s.machine.waiting = some x)
    {commands : List Command} (stays : ∀ command ∈ commands, command.loads = false)
    (unpressed : s.machine.Unpressed (s.history commands)) :
    (s.run commands).2.machine.waiting = some x := by
  obtain ⟨t, k, ran⟩ := Machine.run_waiting waits (history_noReset stays) unpressed
  rw [(run_machine reachable commands).1, ran]
  exact waits

theorem frame_executes_nothing (reachable : s.Reachable) (waits : s.machine.waiting = some x) :
    s.frame.1 = .ok 0 := by
  cases runs : s.running with
  | true => rw [frame_of_waiting runs (reachable.consistent.clear_of_running runs) waits]
  | false => simp [frame, runs]

/-- A frame of a running session is the same as some of its steps and a frame of the instructions
that are left, whose answer is counted on. A frame that goes well is as many steps as it answers and
a tick. It carries out all of its instructions, or else it leaves the machine waiting, and then no
frame carries out any until a key goes down or a program is loaded. -/
theorem frames_can_be_cut_into_steps (reachable : s.Reachable) (runs : s.running = true) (n : Nat) :
    (∀ k after, k ≤ n → s.Walks k after →
      (s.atRate n).frame = ((after.atRate (n - k)).frame.1.map (k + ·),
        (after.atRate (n - k)).frame.2.atRate n)) ∧
    ∀ e next, (s.atRate n).frame = (.ok e, next) → e ≤ n ∧
      (∃ last, s.Walks e last ∧ next = last.tick.atRate n) ∧
      (e < n → ∃ x, next.machine.waiting = some x ∧
        ∀ commands, (∀ command ∈ commands, command.loads = false) →
          next.machine.Unpressed (next.history commands) →
          (next.run commands).2.machine.waiting = some x ∧
          (next.run commands).2.frame.1 = .ok 0) := by
  refine ⟨fun k after fits walks => walks.frame runs fits, ?_⟩
  intro e next framed
  obtain ⟨bound, walked, early⟩ := walks_of_frame runs framed
  refine ⟨bound, walked, fun short => ?_⟩
  obtain ⟨x, waits⟩ := early short
  have reached : next.Reachable := by
    have obeyed := (reachable.atRate n).obey .frame
    rwa [obey_frame, framed] at obeyed
  refine ⟨x, waits, ?_⟩
  intro commands stays unpressed
  have waiting := waiting_of_unpressed reached waits stays unpressed
  exact ⟨waiting, frame_executes_nothing (reached.run commands) waiting⟩

/- A program that loads a register and then waits for a key. -/
def loadThenWait : Rom where
  bytes := #[0x61, 0x05, 0xF2, 0x0A]

def loading (pc : UInt16) (value : UInt8) (waiting : Option UInt8) (events : Array Event) :
    Session :=
  { withRom loadThenWait {} overChannel with
    machine := { Machine.boot loadThenWait {} with
      pc, registers := Registers.zero.set 1 value, waiting }
    running := true
    host := { overChannel with events } }

/- A frame of five instructions is the two of the program and a frame of three while it waits. A
number that names no key does not end the wait. -/
theorem frames_can_be_cut_into_steps_wait :
    (loading 0x200 0 none #[]).Reachable ∧
    (loading 0x200 0 none #[]).Walks 2 (loading 0x204 5 (some 2) #[.keyWait 2]) ∧
    ((loading 0x204 5 (some 2) #[.keyWait 2]).atRate 3).frame.1 = .ok 0 ∧
    ((loading 0x200 0 none #[]).atRate 5).frame.1 = .ok 2 ∧
    (((loading 0x200 0 none #[]).atRate 5).frame.2.run
      [.stop, .start, .key 0x20 true, .tick]).2.frame.1 = .ok 0 := by
  have atLoad : Instruction.decode? (loading 0x200 0 none #[]).machine.fetch =
      some (.load 1 5) := by
    rw [Machine.fetch_of_loaded loadThenWait (by rfl)]
    decide
  have atWait : Instruction.decode? (loading 0x202 5 none #[]).machine.fetch =
      some (.awaitKey 2) := by
    rw [Machine.fetch_of_loaded loadThenWait (by rfl)]
    decide
  have first : (loading 0x200 0 none #[]).step =
      (.executed (.load 1 5), loading 0x202 5 none #[]) := by
    rw [step_of_executed rfl (Machine.cycle_of_ok rfl atLoad rfl), Host.recordAll_of_silent rfl]
    rfl
  have second : (loading 0x202 5 none #[]).step =
      (.executed (.awaitKey 2), loading 0x204 5 (some 2) #[.keyWait 2]) := by
    rw [step_of_executed rfl (Machine.cycle_of_ok rfl atWait rfl), Host.recordAll_of_silent rfl]
    rfl
  have reachable : (loading 0x200 0 none #[]).Reachable :=
    (Reachable.withRom loadThenWait {} overChannel).obey .start
  have walks : (loading 0x200 0 none #[]).Walks 2 (loading 0x204 5 (some 2) #[.keyWait 2]) :=
    .step first (.step second (.refl _))
  have rest : ((loading 0x204 5 (some 2) #[.keyWait 2]).atRate 3).frame =
      (.ok 0, ((loading 0x204 5 (some 2) #[.keyWait 2]).atRate 3).tick) :=
    frame_of_waiting rfl rfl rfl
  have unpressed : ∀ m : Machine, m.Unpressed [.key 0x20 true, .tick] := by
    intro m
    refine ⟨?_, ?_, trivial⟩
    · rintro ⟨key, same, digit, -⟩
      cases same
      exact absurd digit (by decide)
    · rintro ⟨key, same, -⟩
      cases same
  obtain ⟨cut, ends⟩ := frames_can_be_cut_into_steps reachable rfl 5
  have whole := cut 2 _ (by decide) walks
  rw [rest] at whole
  obtain ⟨x, -, idle⟩ := (ends 2 _ whole).2.2 (by decide)
  refine ⟨reachable, walks, congrArg Prod.fst rest, congrArg Prod.fst whole, ?_⟩
  rw [whole]
  exact (idle [.stop, .start, .key 0x20 true, .tick] (by simp [Command.loads])
    (unpressed _)).2

end Chip8.Session
