import Chip8.Session.Command
import Chip8.Proofs.Stepping

namespace Chip8

/-- The command loads a program: it is a load, or a reset with bytes that fit. -/
def Command.loads : Command → Bool
  | .load _ => true
  | .reset bytes => decide (bytes.size ≤ Layout.programSpace)
  | _ => false

namespace Session

inductive Reachable : Session → Prop where
  | new (settings : Settings) (host : Host) : Reachable (new settings host)
  | withRom (rom : Rom) (settings : Settings) (host : Host) :
    Reachable (withRom rom settings host)
  | obey {s : Session} (command : Command) : Reachable s → Reachable (s.obey command).2

variable {s : Session} {P : Session → Prop}

@[simp] theorem run_nil (s : Session) : s.run [] = ([], s) := rfl

theorem run_cons (s : Session) (command : Command) (rest : List Command) :
    s.run (command :: rest) = ((s.obey command).1 :: ((s.obey command).2.run rest).1,
      ((s.obey command).2.run rest).2) := rfl

theorem run_append (s : Session) (before after : List Command) :
    s.run (before ++ after) = ((s.run before).1 ++ ((s.run before).2.run after).1,
      ((s.run before).2.run after).2) := by
  induction before generalizing s with
  | nil => rfl
  | cons command rest ih => simp only [List.cons_append, run_cons, ih]

theorem length_run (s : Session) (commands : List Command) :
    (s.run commands).1.length = commands.length := by
  induction commands generalizing s with
  | nil => rfl
  | cons command rest ih => rw [run_cons, List.length_cons, ih, List.length_cons]

theorem obey_step (s : Session) : s.obey .step = (.stepped s.step.1, s.step.2) := rfl

theorem run_step {o : Outcome} {next : Session} (stepped : s.step = (o, next))
    (rest : List Command) :
    s.run (.step :: rest) = (.stepped o :: (next.run rest).1, (next.run rest).2) := by
  rw [run_cons, obey_step, stepped]

theorem Reachable.of_made {settings : Settings} {host : Host}
    (made : s = Session.new settings host ∨ ∃ rom, s = Session.withRom rom settings host) :
    s.Reachable := by
  rcases made with rfl | ⟨rom, rfl⟩
  · exact .new settings host
  · exact .withRom rom settings host

theorem Reachable.stepped {o : Outcome} {next : Session} (reachable : s.Reachable)
    (stepped : s.step = (o, next)) : next.Reachable := by
  have obeyed := reachable.obey .step
  rwa [obey_step, stepped] at obeyed

theorem Reachable.run (reachable : s.Reachable) (commands : List Command) :
    (s.run commands).2.Reachable := by
  induction commands generalizing s with
  | nil => exact reachable
  | cons command rest ih => exact ih (reachable.obey command)

theorem obey_frame (s : Session) : (s.obey .frame).2 = s.frame.2 := by
  simp only [obey]
  split
  · rename_i executed next framed
    rw [framed]
  · rename_i f next framed
    rw [framed]

theorem obey_reset_of_fits {bytes : Array UInt8} (fits : bytes.size ≤ Layout.programSpace) :
    s.obey (.reset bytes) = (.done, s.load ⟨bytes, fits⟩) := by
  simp only [obey, reset, Rom.ofBytes, dif_pos fits, Except.map]

theorem obey_reset_of_large {bytes : Array UInt8} (large : ¬ bytes.size ≤ Layout.programSpace) :
    s.obey (.reset bytes) = (.refused ⟨bytes.size, Layout.programSpace⟩, s) := by
  simp only [obey, reset, Rom.ofBytes, dif_neg large, Except.map]

/- A change of the session that no step notices is not noticed by a burst. -/
theorem burst_commutes {change : Session → Session}
    (step : ∀ s, (change s).step = (s.step.1, change s.step.2)) (s : Session) (executed n : Nat) :
    (change s).burst executed n = ((s.burst executed n).1, change (s.burst executed n).2) := by
  induction n generalizing s executed with
  | zero => rfl
  | succ n ih =>
    simp only [burst, step]
    rcases s.step with ⟨outcome, next⟩
    cases outcome with
    | executed i => exact ih next _
    | waiting => rfl
    | fault f => rfl

theorem burst_kept (step : ∀ s, P s → P s.step.2) (holds : P s) (executed n : Nat) :
    P (s.burst executed n).2 := by
  induction n generalizing s executed with
  | zero => exact holds
  | succ n ih =>
    have next : P s.step.2 := step s holds
    simp only [Session.burst]
    split
    · rename_i i t stepped
      rw [stepped] at next
      exact ih next _
    · rename_i t stepped
      rwa [stepped] at next
    · rename_i f t stepped
      rwa [stepped] at next

theorem frame_kept (step : ∀ s, P s → P s.step.2) (tick : ∀ s, P s → P s.tick) (holds : P s) :
    P s.frame.2 := by
  have next : P (s.burst 0 s.rate).2 := burst_kept step holds 0 s.rate
  simp only [Session.frame]
  split
  · split
    · rename_i executed t burst
      rw [burst] at next
      exact tick t next
    · rename_i f t burst
      rwa [burst] at next
  · exact holds

/-- Everything that a session does by itself or on a command keeps the property, except that the
host may not hang up. -/
structure Keeps (P : Session → Prop) : Prop where
  start : ∀ s, P s → P s.start
  stop : ∀ s, P s → P s.stop
  step : ∀ s, P s → P s.step.2
  tick : ∀ s, P s → P s.tick
  key : ∀ s key pressed, P s → P (s.setKey key pressed)
  load : ∀ s rom, P s → P (s.load rom)

namespace Keeps

theorem frame (keeps : Keeps P) (holds : P s) : P s.frame.2 :=
  frame_kept keeps.step keeps.tick holds

theorem obey (keeps : Keeps P) {command : Command} (stays : command ≠ .hangUp) (holds : P s) :
    P (s.obey command).2 := by
  cases command with
  | start => exact keeps.start s holds
  | stop => exact keeps.stop s holds
  | step => exact keeps.step s holds
  | frame =>
    rw [obey_frame]
    exact keeps.frame holds
  | tick => exact keeps.tick s holds
  | key key pressed => exact keeps.key s key pressed holds
  | reset bytes =>
    by_cases fits : bytes.size ≤ Layout.programSpace
    · rw [obey_reset_of_fits fits]
      exact keeps.load s _ holds
    · rw [obey_reset_of_large fits]
      exact holds
  | load rom => exact keeps.load s rom holds
  | hangUp => exact absurd rfl stays

theorem run (keeps : Keeps P) {commands : List Command} (stays : .hangUp ∉ commands)
    (holds : P s) : P (s.run commands).2 := by
  induction commands generalizing s with
  | nil => exact holds
  | cons command rest ih =>
    obtain ⟨here, later⟩ := List.ne_and_not_mem_of_not_mem_cons stays
    exact ih later (keeps.obey here.symm holds)

end Keeps

end Session

end Chip8
