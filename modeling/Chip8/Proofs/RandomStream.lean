import Chip8.Proofs.Digits
import Chip8.Proofs.Feeding
import Chip8.Proofs.Invariant

namespace Chip8

def Outcome.takesByte : Outcome → Bool
  | .executed i => i.takesByte
  | _ => false

namespace Machine

variable {m next : Machine} {i : Instruction} {x kk : UInt8}

theorem register_of_random (digit : x.toNat ≤ 15) (done : m.execute (.random x kk) = .ok next) :
    next.registers.get x = m.random.next &&& kk := by
  cases Except.ok.inj done
  exact (m.registers.get_set _ digit digit).trans (if_pos rfl)

/- A cycle takes a byte or none, and no other input but a reset moves the generator. -/
theorem feed_random (m : Machine) {input : Input} (stays : ∀ rom, input ≠ .reset rom) :
    (m.feed input).2.random = { m.random with
      taken := m.random.taken + (m.feed input).1.toList.countP Outcome.takesByte } := by
  cases input with
  | tick => rfl
  | key key pressed =>
    obtain ⟨keypad, registers, waiting, keyed⟩ := m.setKey_frame key pressed
    rw [feed, keyed]
    rfl
  | reset rom => exact absurd rfl (stays rom)
  | cycle =>
    rw [feed_cycle]
    rcases m.cycle_cases with ⟨x, -, cycled⟩ | ⟨-, f, cycled⟩ | ⟨-, i, next, -, done, cycled⟩
    · rw [cycled]
      rfl
    · rw [cycled]
      rfl
    · rw [cycled, execute_random done]
      cases takes : i.takesByte <;> simp [takes, Outcome.takesByte, Random.advanced]

theorem run_random (m : Machine) {inputs : List Input} (stays : ∀ rom, .reset rom ∉ inputs) :
    (m.run inputs).2.random = { m.random with
      taken := m.random.taken + (m.run inputs).1.countP Outcome.takesByte } := by
  induction inputs generalizing m with
  | nil => rfl
  | cons input rest ih =>
    obtain ⟨here, later⟩ := noReset_cons.mp stays
    rw [run_cons, ih _ later, feed_random m here, List.countP_append, Nat.add_assoc]

theorem run_restarted {settings : Settings} {older : List Input}
    (configured : m.Configured settings) (fresh : m.random.taken = 0)
    (restarts : older = [] ∨ ∃ earlier rom, older = earlier ++ [.reset rom]) :
    (m.run older).2.random = { stream := settings.stream settings.seed } := by
  rcases restarts with rfl | ⟨earlier, rom, rfl⟩
  · rw [run_nil, ← fresh, ← configured.stream]
  · have last := run_keeps feed_configured earlier configured
    rw [run_append, ← last.stream]
    rfl

end Machine

namespace Session

/-- The random instruction that comes after `k` others since the session was made or a program was
last loaded stores the byte `k` of the row that the seed stands for, with only the bits of its
operand kept. It does not matter what row that is. -/
theorem random_bytes_in_order {first : Session} (settings : Settings) (host : Host)
    (made : first = new settings host ∨ ∃ rom, first = withRom rom settings host)
    (commands : List Command) :
    (first.run commands).2.machine = (first.machine.run (first.history commands)).2 ∧
    ∀ older recent rest m next x kk,
      first.history commands = older ++ recent ++ .cycle :: rest →
      (older = [] ∨ ∃ earlier rom, older = earlier ++ [.reset rom]) →
      (∀ rom, .reset rom ∉ recent) →
      m = (first.machine.run older).2 →
      (m.run recent).2.cycle = (.executed (.random x kk), next) →
      next.registers.get x =
        settings.stream settings.seed ((m.run recent).1.countP Outcome.takesByte) &&& kk := by
  refine ⟨(run_machine (.of_made made) commands).1, ?_⟩
  rintro older recent rest m next x kk - restarts stays rfl cycled
  have fresh : first.machine.random.taken = 0 := by
    rcases made with rfl | ⟨rom, rfl⟩ <;> rfl
  have configured := (run_configured made []).1
  have restarted := Machine.run_restarted configured fresh restarts
  obtain ⟨-, decoded, done⟩ := Machine.of_cycle_executed cycled
  have digit : x.toNat ≤ 15 := (Instruction.of_decode? decoded).2
  rw [Machine.register_of_random digit done, Machine.run_random _ stays]
  rw [run_nil] at restarted
  simp only [restarted, Random.next, Nat.zero_add]

/- A program that fills two registers with random bits, the second with four of them. -/
def rollTwice : Rom where
  bytes := #[0xC0, 0xFF, 0xC1, 0x0F]

def rolled : Machine :=
  { Machine.boot rollTwice {} with
    pc := 0x202
    registers := Registers.zero.set 0 (Random.byteAt 2 0 &&& 0xFF)
    random := { stream := Random.byteAt 2, taken := 1 } }

theorem cycle_to_rolled :
    (Machine.boot rollTwice {}).cycle = (.executed (.random 0 0xFF), rolled) := by
  have decoded : Instruction.decode? (Machine.boot rollTwice {}).fetch = some (.random 0 0xFF) := by
    rw [Machine.fetch_of_loaded (m := Machine.boot rollTwice {}) rollTwice rfl]
    decide
  exact Machine.cycle_of_ok rfl decoded rfl

def afterRoll : Session :=
  { withRom rollTwice {} overChannel with machine := rolled }

theorem step_to_afterRoll :
    (withRom rollTwice {} overChannel).step = (.executed (.random 0 0xFF), afterRoll) := by
  rw [step_of_executed (s := withRom rollTwice {} overChannel) rfl cycle_to_rolled,
    Host.recordAll_of_silent rfl]
  rfl

theorem random_bytes_in_order_second :
    (withRom rollTwice {} overChannel).history
      [.step, .reset rollTwice.bytes, .step, .tick, .step] =
        [.cycle, .reset rollTwice] ++ [.cycle, .tick] ++ [.cycle] ∧
    rolled.cycle.1 = .executed (.random 1 0x0F) ∧
    rolled.cycle.2.registers.get 1 = Random.byteAt 2 1 &&& 0x0F := by
  have decoded : Instruction.decode? rolled.fetch = some (.random 1 0x0F) := by
    rw [Machine.fetch_of_loaded (m := rolled) rollTwice rfl]
    decide
  have cycled := Machine.cycle_of_ok (m := rolled) rfl decoded rfl
  have reloaded : (afterRoll.obey (.reset rollTwice.bytes)).2 =
      withRom rollTwice {} overChannel := by
    rw [obey_reset_of_fits rollTwice.size_le]
    rfl
  have planned : (withRom rollTwice {} overChannel).history
      [.step, .reset rollTwice.bytes, .step, .tick, .step] =
        [.cycle, .reset rollTwice] ++ [.cycle, .tick] ++ [.cycle] := by
    rw [history, obey_step, step_to_afterRoll, history, reloaded, history, obey_step,
      step_to_afterRoll]
    rfl
  have before : ((withRom rollTwice {} overChannel).machine.run [.cycle, .reset rollTwice]).2.run
      [.cycle, .tick] = ([.executed (.random 0 0xFF)], rolled) := by
    have start : (withRom rollTwice {} overChannel).machine = Machine.boot rollTwice {} := rfl
    have again : rolled.reset rollTwice = Machine.boot rollTwice {} := rfl
    have booted : ((Machine.boot rollTwice {}).run [.cycle, .reset rollTwice]).2 =
        Machine.boot rollTwice {} := by
      rw [Machine.run_cons, Machine.feed_cycle, cycle_to_rolled]
      exact again
    rw [start, booted, Machine.run_cons, Machine.feed_cycle, cycle_to_rolled]
    rfl
  have stored := (random_bytes_in_order {} overChannel (.inr ⟨rollTwice, rfl⟩) _).2
    _ _ _ _ rolled.cycle.2 1 0x0F planned (.inr ⟨[.cycle], rollTwice, rfl⟩) (by simp) rfl
    (by rw [before, cycled])
  rw [before] at stored
  exact ⟨planned, by rw [cycled], stored⟩

end Session

end Chip8
