import Chip8.Proofs.CheckedMachine
import Chip8.Proofs.SplitFrames

namespace Chip8

namespace Session

def stepChecked (s : Session) : Option (Outcome × Session) :=
  match s.fault with
  | some f => some (.fault f, s)
  | none => do
    let host := s.host.recordAll s.machine.cycleRecords
    let (outcome, machine) ← s.machine.cycleChecked
    match outcome with
    | .executed i =>
      let events := machine.instructionEvents i ++ s.machine.soundEvents machine
      some (outcome, { s with machine, host := host.sendAll events })
    | .waiting => some (outcome, { s with machine, host })
    | .fault f =>
      some (outcome, { s with
        machine
        running := false
        fault := some f
        host := (host.record (.stopped f)).send (.fault f) })

/-- A burst whose count may not exceed a limit. -/
def burstChecked (s : Session) (limit executed : Nat) : Nat → Option (Except Fault Nat × Session)
  | 0 => some (.ok executed, s)
  | n + 1 => do
    let (outcome, next) ← s.stepChecked
    match outcome with
    | .executed _ =>
      let count ← Checked.between 1 limit (executed + 1)
      next.burstChecked limit count n
    | .waiting => some (.ok executed, next)
    | .fault f => some (.error f, next)

def frameChecked (s : Session) : Option (Except Fault Nat × Session) :=
  if s.running then do
    let (answer, next) ← s.burstChecked s.rate 0 s.rate
    match answer with
    | .ok executed => some (.ok executed, next.tick)
    | .error f => some (.error f, next)
  else some (.ok 0, s)

def setKeyChecked (s : Session) (key : UInt8) (pressed : Bool) : Option Session := do
  let machine ← s.machine.setKeyChecked key pressed
  some { s with
    machine
    host := s.host.recordAll (s.machine.keyRecords key pressed) }

def loadChecked (s : Session) (rom : Rom) : Option Session := do
  let machine ← s.machine.resetChecked rom
  some { s with
    machine
    running := false
    fault := none
    host := (s.host.record (.reset rom.size)).sendAll (s.machine.soundEvents machine) }

def obeyChecked (s : Session) : Command → Option (Answer × Session)
  | .start => some (.done, s.start)
  | .stop => some (.done, s.stop)
  | .step => do
    let (outcome, next) ← s.stepChecked
    some (.stepped outcome, next)
  | .frame => do
    let (answer, next) ← s.frameChecked
    match answer with
    | .ok executed => some (.ran executed, next)
    | .error f => some (.faulted f, next)
  | .tick => some (.done, s.tick)
  | .key key pressed => do
    let next ← s.setKeyChecked key pressed
    some (.done, next)
  | .reset bytes =>
    match Rom.ofBytes bytes with
    | .ok rom => do
      let next ← s.loadChecked rom
      some (.done, next)
    | .error e => some (.refused e, s)
  | .load rom => do
    let next ← s.loadChecked rom
    some (.done, next)
  | .hangUp => some (.done, s.hangUp)

variable {s : Session}

theorem Reachable.coherent (reachable : s.Reachable) : s.machine.Coherent := by
  induction reachable with
  | new settings host => exact Machine.boot_coherent .empty settings
  | withRom rom settings host => exact Machine.reset_coherent _ rom
  | @obey s command reachable ih =>
    have fed : (s.obey command).2.machine = (s.machine.run (s.history [command])).2 :=
      (run_machine reachable [command]).1
    rw [fed]
    exact Machine.run_keeps Machine.feed_coherent _ ih

theorem Reachable.inRange (reachable : s.Reachable) : s.machine.InRange :=
  reachable.coherent.inRange

theorem stepChecked_eq (inRange : s.machine.InRange) : s.stepChecked = some s.step := by
  unfold stepChecked step
  cases s.fault with
  | some f => rfl
  | none =>
    simp only [Machine.cycleChecked_eq inRange, Option.bind_eq_bind, Option.bind_some]
    rcases s.machine.cycle with ⟨outcome, machine⟩
    cases outcome <;> rfl

/- The count cannot pass the limit, since the instructions left to a burst are as many as are left
to count. -/
theorem burstChecked_eq (reachable : s.Reachable) {limit executed n : Nat}
    (room : executed + n ≤ limit) :
    s.burstChecked limit executed n = some (s.burst executed n) := by
  induction n generalizing s executed with
  | zero => rfl
  | succ n ih =>
    have count : Checked.between 1 limit (executed + 1) = some (executed + 1) :=
      Checked.between_of_le (Nat.le_add_left 1 executed) (by omega)
    simp only [burstChecked, burst, stepChecked_eq reachable.inRange, Option.bind_eq_bind,
      Option.bind_some]
    cases stepped : s.step with
    | mk outcome next =>
      cases outcome with
      | executed i =>
        simp only [count, Option.bind_some]
        exact ih (reachable.stepped stepped) (by omega)
      | waiting => rfl
      | fault f => rfl

theorem frameChecked_eq (reachable : s.Reachable) : s.frameChecked = some s.frame := by
  have counted : s.burstChecked s.rate 0 s.rate = some (s.burst 0 s.rate) :=
    burstChecked_eq reachable (Nat.le_of_eq (Nat.zero_add s.rate))
  unfold frameChecked frame
  cases s.running with
  | true =>
    simp only [counted, Option.bind_eq_bind, Option.bind_some, if_true]
    rcases s.burst 0 s.rate with ⟨answer, next⟩
    cases answer <;> rfl
  | false => rfl

theorem setKeyChecked_eq (s : Session) (key : UInt8) (pressed : Bool) :
    s.setKeyChecked key pressed = some (s.setKey key pressed) := by
  simp [setKeyChecked, setKey, Machine.setKeyChecked_eq]

theorem loadChecked_eq (s : Session) (rom : Rom) : s.loadChecked rom = some (s.load rom) := by
  simp [loadChecked, load, Machine.resetChecked_eq]

theorem obeyChecked_eq (reachable : s.Reachable) (command : Command) :
    s.obeyChecked command = some (s.obey command) := by
  cases command with
  | start | stop | tick | hangUp => rfl
  | step => simp only [obeyChecked, obey, stepChecked_eq reachable.inRange]; rfl
  | frame =>
    simp only [obeyChecked, obey, frameChecked_eq reachable, Option.bind_eq_bind, Option.bind_some]
    rcases s.frame with ⟨answer, next⟩
    cases answer <;> rfl
  | key key pressed => simp only [obeyChecked, obey, setKeyChecked_eq]; rfl
  | reset bytes =>
    simp only [obeyChecked, obey, reset]
    cases Rom.ofBytes bytes with
    | ok rom => simp only [loadChecked_eq]; rfl
    | error e => rfl
  | load rom => simp only [obeyChecked, obey, loadChecked_eq]; rfl

theorem le_rate_of_frame {executed : Nat} {next : Session}
    (framed : s.frame = (.ok executed, next)) : executed ≤ s.rate := by
  unfold frame at framed
  split at framed
  · split at framed
    · rename_i count last burst
      cases framed
      obtain ⟨steps, fits, rfl, -⟩ := walks_of_burst burst
      rwa [Nat.zero_add]
    · cases framed
  · cases framed
    exact Nat.zero_le s.rate

/-- In every session that can be reached the numbers that depend on what went before are in range, a
frame counts no further than its rate, and a command does with all of its numbers checked what it
does without: no sum needs more than sixteen bits, no shift is wider than a byte, and no slot,
register, key, byte of memory or byte of the screen is looked up that is not there. -/
theorem every_number_stays_in_range (reachable : s.Reachable) :
    s.machine.InRange ∧
      (∀ x, s.machine.registers.getChecked x = some (s.machine.registers.get x)) ∧
      (∀ executed next, s.frame = (.ok executed, next) → executed ≤ s.rate) ∧
      ∀ command, s.obeyChecked command = some (s.obey command) :=
  ⟨reachable.inRange, fun x => s.machine.registers.getChecked_eq x,
    fun _ _ framed => le_rate_of_frame framed, fun command => obeyChecked_eq reachable command⟩

/- A program that jumps to an address past the end of memory. -/
def jumpPastEnd : Rom where
  bytes := #[0x60, 0xFF, 0xBF, 0xFF]

def jumping (pc : UInt16) (value : UInt8) : Session :=
  { withRom jumpPastEnd {} overChannel with
    machine := { Machine.boot jumpPastEnd {} with pc, registers := Registers.zero.set 0 value } }

theorem every_number_stays_in_range_past_end :
    (jumping 0x202 0xFF).Reachable ∧
    0xFFF + ((jumping 0x202 0xFF).machine.registers.get 0).toNat < 2 ^ 16 ∧
    (jumping 0x202 0xFF).obeyChecked .step =
      some (.stepped (.executed (.jumpOffset 0xF 0xFFF)), jumping 0x0FE 0xFF) := by
  have atLoad : Instruction.decode? (jumping 0x200 0).machine.fetch = some (.load 0 0xFF) := by
    rw [Machine.fetch_of_loaded jumpPastEnd (by rfl)]
    decide
  have atJump : Instruction.decode? (jumping 0x202 0xFF).machine.fetch =
      some (.jumpOffset 0xF 0xFFF) := by
    rw [Machine.fetch_of_loaded jumpPastEnd (by rfl)]
    decide
  have first : (jumping 0x200 0).step = (.executed (.load 0 0xFF), jumping 0x202 0xFF) := by
    rw [step_of_executed rfl (Machine.cycle_of_ok rfl atLoad rfl), Host.recordAll_of_silent rfl]
    rfl
  have second : (jumping 0x202 0xFF).step =
      (.executed (.jumpOffset 0xF 0xFFF), jumping 0x0FE 0xFF) := by
    rw [step_of_executed rfl (Machine.cycle_of_ok rfl atJump rfl), Host.recordAll_of_silent rfl]
    rfl
  have start : (jumping 0x200 0).Reachable := Reachable.withRom jumpPastEnd {} overChannel
  have reachable : (jumping 0x202 0xFF).Reachable := start.stepped first
  obtain ⟨inRange, -, -, same⟩ := every_number_stays_in_range reachable
  refine ⟨reachable, inRange.offset 0xF 0xFFF 0 atJump, ?_⟩
  rw [same .step, obey_step, second]

end Session

end Chip8
