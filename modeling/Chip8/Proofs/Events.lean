import Chip8.Proofs.Digits
import Chip8.Proofs.Feeding
import Chip8.Proofs.Invariant
import Chip8.Proofs.Pixels

namespace Chip8

/-- Whether some pixel is lit on the first screen and dark on the second. -/
def Screen.darkens (before after : Screen) : Bool :=
  decide (∃ px py, before.pixel px py = true ∧ after.pixel px py = false)

def Event.plain (e : Event) : Bool :=
  e.sound?.isNone

theorem Registers.flag_setFlag (r : Registers) (b : Bool) :
    ((r.setFlag b).get flag == 1) = b := by
  rw [setFlag, get_set r _ (by decide) (by decide), if_pos rfl]
  cases b <;> rfl

namespace Machine

/-- What there is to tell of the next cycle, sound apart. -/
def notices (m : Machine) : List Event :=
  match m.cycle with
  | (.executed .clear, _) => [.clear]
  | (.executed (.draw _ _ _), next) => [.draw (m.screen.darkens next.screen)]
  | (.executed (.awaitKey x), _) => [.keyWait x]
  | (.executed _, _) => []
  | (.waiting, _) => []
  | (.fault f, _) => [.fault f]

/-- The machines that the cycles among a row of inputs start from. -/
def atCycles (m : Machine) : List Input → List Machine
  | [] => []
  | .cycle :: rest => m :: (m.feed .cycle).2.atCycles rest
  | input :: rest => (m.feed input).2.atCycles rest

variable {m next : Machine} {i : Instruction}

theorem soundEvents_plain (before after : Machine) :
    (before.soundEvents after).filter Event.plain = [] := by
  unfold soundEvents
  split <;> rfl

theorem flag_of_draw {x y n : UInt8} (few : n.toNat ≤ 32)
    (done : m.execute (.draw x y n) = .ok next) :
    (next.registers.get Registers.flag == 1) = m.screen.darkens next.screen := by
  have sprite : (m.memory.read m.registers.index n.toNat).length ≤ 32 := by
    simpa [Memory.read] using few
  have collision := m.screen.draw_collides_iff (x := m.registers.get x)
    (y := (m.registers.get y).toNat) sprite
  cases Except.ok.inj done
  rw [Registers.flag_setFlag, Bool.eq_iff_iff, Screen.darkens, decide_eq_true_iff, ← collision]

theorem notices_of_executed (cycled : m.cycle = (.executed i, next)) :
    m.notices = next.instructionEvents i := by
  obtain ⟨-, decoded, done⟩ := of_cycle_executed cycled
  unfold notices
  rw [cycled]
  cases i with
  | draw x y n =>
    obtain ⟨-, -, digit⟩ := (Instruction.of_decode? decoded).2
    have few : n.toNat ≤ 32 := Nat.le_trans digit (by decide)
    change [Event.draw _] = [Event.draw _]
    rw [flag_of_draw few done]
  | _ => rfl

theorem told_plain (m : Machine) (input : Input) :
    (m.told input).filter Event.plain = if input = .cycle then m.notices else [] := by
  cases input with
  | tick => exact m.soundEvents_plain _
  | key key pressed => rfl
  | reset rom => exact m.soundEvents_plain _
  | cycle =>
    rw [if_pos rfl]
    rcases m.cycle_cases with ⟨x, -, cycled⟩ | ⟨-, f, cycled⟩ | ⟨-, i, next, -, -, cycled⟩
    · simp [told, notices, cycled]
    · simp [told, notices, cycled, Event.plain, Event.sound?]
    · have plain : (next.instructionEvents i).filter Event.plain = next.instructionEvents i := by
        cases i <;> rfl
      rw [notices_of_executed cycled]
      simp only [told, cycled, List.filter_append, soundEvents_plain, plain, List.append_nil]

theorem toldAll_plain (m : Machine) (inputs : List Input) :
    (m.toldAll inputs).filter Event.plain = (m.atCycles inputs).flatMap notices := by
  induction inputs generalizing m with
  | nil => rfl
  | cons input rest ih =>
    rw [toldAll, List.filter_append, told_plain, ih]
    cases input <;> simp [atCycles]

end Machine

namespace Session

/-- What a host that stays connected is sent while commands are obeyed tells of each cycle that was
performed, one after the other, and of the sound. -/
theorem events_mirror_cycles {s : Session} (reachable : s.Reachable)
    (connected : s.host.observer = .channel true) (commands : List Command)
    (stays : .hangUp ∉ commands) :
    (s.run commands).2.machine = (s.machine.run (s.history commands)).2 ∧
    ∃ sent, (s.run commands).2.host.events.toList = s.host.events.toList ++ sent ∧
      sent.filter Event.plain =
        (s.machine.atCycles (s.history commands)).flatMap Machine.notices := by
  have fed : Fed s (s.history commands) (s.run commands).2 := run_fed reachable stays
  refine ⟨fed.machine, s.machine.toldAll (s.history commands), ?_, Machine.toldAll_plain _ _⟩
  have heard := fed.heard
  simpa [Host.heard, Host.listens, fed.observer, connected] using heard

/- A program that draws the upper edge of the digit 0 twice at the same place, and has no third
instruction. -/
def drawTwice : Rom where
  bytes := #[0xD0, 0x01, 0xD0, 0x01]

def edge : Screen × Bool :=
  Screen.blank.draw [0xF0] 0 0

def erased : Screen × Bool :=
  edge.1.draw [0xF0] 0 0

def drawing (pc : UInt16) (drawn : Screen × Bool) (events : Array Event) : Session :=
  { withRom drawTwice {} overChannel with
    machine := { Machine.boot drawTwice {} with
      pc, screen := drawn.1, registers := Registers.zero.setFlag drawn.2 }
    host := { overChannel with events } }

theorem step_drawing (pc : UInt16) (drawn : Screen × Bool) (events : Array Event)
    (decoded : Instruction.decode? (drawing pc drawn events).machine.fetch = some (.draw 0 0 1)) :
    (drawing pc drawn events).step = (.executed (.draw 0 0 1),
      drawing (Machine.after pc) (drawn.1.draw [0xF0] 0 0)
        (events.push (.draw (drawn.1.draw [0xF0] 0 0).2))) := by
  have index : (drawing pc drawn events).machine.registers.index = 0 := rfl
  have sprite : (drawing pc drawn events).machine.memory.read 0 1 = [0xF0] := by
    change [(Memory.ofRom drawTwice).get 0] = [0xF0]
    rw [Memory.get_ofRom]
    rfl
  have corner : (drawing pc drawn events).machine.registers.get 0 = 0 := by
    cases flag : drawn.2 <;> simp only [drawing, flag] <;> decide
  have flag : ∀ b, (Registers.zero.setFlag drawn.2).setFlag b = Registers.zero.setFlag b := by
    intro b
    cases drawn.2 <;> cases b <;> decide
  have drew : (drawing pc drawn events).machine.execute (.draw 0 0 1) =
      .ok (drawing (Machine.after pc) (drawn.1.draw [0xF0] 0 0) events).machine := by
    simp only [Machine.execute, index, corner, UInt8.reduceToNat, sprite]
    simp only [drawing, flag]
  rw [step_of_executed rfl (Machine.cycle_of_ok rfl decoded drew), Host.recordAll_of_silent rfl]
  conv => rhs; rw [← Registers.zero.flag_setFlag (drawn.1.draw [0xF0] 0 0).2]
  rfl

theorem step_to_edge : (withRom drawTwice {} overChannel).step =
    (.executed (.draw 0 0 1), drawing 0x202 edge #[.draw false]) := by
  have zero : Registers.zero.setFlag false = Registers.zero := by decide
  have start : withRom drawTwice {} overChannel = drawing 0x200 (.blank, false) #[] := by
    simp only [drawing, zero]
    rfl
  have drew : (drawing 0x200 (.blank, false) #[]).step =
      (.executed (.draw 0 0 1), drawing 0x202 edge #[.draw edge.2]) := by
    apply step_drawing
    rw [Machine.fetch_of_loaded drawTwice (by rfl)]
    decide
  have dark : edge.2 = false := by decide
  rw [start, drew, dark]

theorem step_to_erased : (drawing 0x202 edge #[.draw false]).step =
    (.executed (.draw 0 0 1), drawing 0x204 erased #[.draw false, .draw true]) := by
  have drew : (drawing 0x202 edge #[.draw false]).step =
      (.executed (.draw 0 0 1), drawing 0x204 erased #[.draw false, .draw erased.2]) := by
    apply step_drawing
    rw [Machine.fetch_of_loaded drawTwice (by rfl)]
    decide
  have lit : erased.2 = true := by decide
  rw [drew, lit]

theorem events_mirror_cycles_drawing : (withRom drawTwice {} overChannel).Reachable ∧
    ((withRom drawTwice {} overChannel).run [.step, .step, .step]).2.host.events =
      #[.draw false, .draw true, .fault (.illegalOpcode 0 0x204)] ∧
    ((withRom drawTwice {} overChannel).machine.atCycles
      ((withRom drawTwice {} overChannel).history [.step, .step, .step])).flatMap
        Machine.notices = [.draw false, .draw true, .fault (.illegalOpcode 0 0x204)] := by
  have reachable : (withRom drawTwice {} overChannel).Reachable := .withRom _ _ _
  have fetched : (drawing 0x204 erased #[.draw false, .draw true]).machine.fetch = 0 := by
    rw [Machine.fetch_of_loaded drawTwice (by rfl)]
    decide
  have illegal : (drawing 0x204 erased #[.draw false, .draw true]).machine.cycle = _ :=
    Machine.cycle_of_illegal rfl (by rw [fetched]; rfl)
  have ran : ((withRom drawTwice {} overChannel).run [.step, .step, .step]).2.host.events =
      #[.draw false, .draw true, .fault (.illegalOpcode 0 0x204)] := by
    rw [run_step step_to_edge, run_step step_to_erased, run_step (step_of_fault rfl illegal),
      Host.recordAll_of_silent rfl, fetched]
    rfl
  obtain ⟨-, sent, all, plain⟩ := events_mirror_cycles reachable rfl [.step, .step, .step] (by simp)
  rw [ran] at all
  cases all
  exact ⟨reachable, ran, plain.symm⟩

end Session

end Chip8
