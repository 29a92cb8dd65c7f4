import Chip8.Proofs.Commands
import Chip8.Proofs.Hearing

/-!
# Sound events

The sound timer changes in three places: by an instruction, by a tick, and by a program that is
loaded. In each of them the host is told if the sound goes on or off by it, and in no other case. So
the host, which is told nothing at first, hears on and off in turn.
-/

namespace Chip8

def Event.sound? : Event → Option Bool
  | .sound on => some on
  | _ => none

/-- On and off in turn, `n` in all. -/
def alternation (n : Nat) : List Bool :=
  (List.range n).map fun k => k % 2 == 0

theorem alternation_succ (n : Nat) : alternation (n + 1) = alternation n ++ [n % 2 == 0] := by
  simp [alternation, List.range_succ]

theorem even_iff_not_odd (n : Nat) : (n % 2 == 0) = !(n % 2 == 1) := by
  rcases Nat.mod_two_eq_zero_or_one n with even | odd
  · simp [even]
  · simp [odd]

theorem succ_odd_iff (n : Nat) : ((n + 1) % 2 == 1) = (n % 2 == 0) := by
  rcases Nat.mod_two_eq_zero_or_one n with even | odd
  · simp [even, Nat.add_mod]
  · simp [odd, Nat.add_mod]

theorem getLast?_alternation (n : Nat) :
    (alternation n).getLast?.getD false = (n % 2 == 1) := by
  cases n with
  | zero => rfl
  | succ n => rw [alternation_succ, List.getLast?_concat, Option.getD_some, succ_odd_iff]

namespace Machine

theorem instructionEvents_silent (m : Machine) (i : Instruction) :
    (m.instructionEvents i).filterMap Event.sound? = [] := by
  cases i <;> rfl

theorem setKey_soundOn (m : Machine) (key : UInt8) (pressed : Bool) :
    (m.setKey key pressed).soundOn = m.soundOn := by
  obtain ⟨keypad, registers, waiting, keyed⟩ := m.setKey_frame key pressed
  rw [keyed]
  rfl

end Machine

namespace Session

/-- The host takes events over a channel, has heard on and off in turn, and knows whether the sound
is on by what it heard last. -/
structure Mirrored (s : Session) : Prop where
  connected : s.host.observer = .channel true
  turns : ∃ n, s.host.heard.filterMap Event.sound? = alternation n ∧
    s.machine.soundOn = (n % 2 == 1)

variable {s t : Session} {command : Command}

theorem Mirrored.listens (mirrored : s.Mirrored) : s.host.listens = true := by
  simp only [Host.listens, mirrored.connected]

/- Every change of the machine goes with the events for it, so the count of the events keeps in step
with the sound. -/
theorem Mirrored.next (mirrored : s.Mirrored) (plain : List Event)
    (silent : plain.filterMap Event.sound? = []) (observer : t.host.observer = s.host.observer)
    (heard : t.host.heard = s.host.heard ++ (plain ++ s.machine.soundEvents t.machine)) :
    t.Mirrored := by
  refine ⟨observer.trans mirrored.connected, ?_⟩
  obtain ⟨n, turns, sound⟩ := mirrored.turns
  rw [heard, List.filterMap_append, List.filterMap_append, silent, turns, List.nil_append]
  by_cases same : s.machine.soundOn = t.machine.soundOn
  · refine ⟨n, ?_, same ▸ sound⟩
    simp [Machine.soundEvents, same]
  · have other : t.machine.soundOn = (n % 2 == 0) := by
      rw [even_iff_not_odd, ← sound]
      exact Bool.eq_not_of_ne (Ne.symm same)
    refine ⟨n + 1, ?_, ?_⟩
    · rw [Machine.soundEvents, if_neg same, other, alternation_succ]
      rfl
    · rw [other, succ_odd_iff]

theorem Mirrored.same (mirrored : s.Mirrored) (observer : t.host.observer = s.host.observer)
    (heard : t.host.heard = s.host.heard) (sound : t.machine.soundOn = s.machine.soundOn) :
    t.Mirrored := by
  apply mirrored.next [] rfl observer
  simp [Machine.soundEvents, sound, heard]

theorem step_mirrored (s : Session) (mirrored : s.Mirrored) : s.step.2.Mirrored := by
  have recorded : (s.host.recordAll s.machine.cycleRecords).heard = s.host.heard :=
    Host.recordAll_heard s.machine.cycleRecords_plain
  rcases s.step_cases with ⟨f, -, stepped⟩ | ⟨-, x, -, stepped⟩ |
    ⟨-, -, f, -, stepped⟩ | ⟨-, i, next, -, stepped⟩
  · rw [stepped]
    exact mirrored
  · rw [stepped]
    exact mirrored
  · rw [stepped]
    apply mirrored.next [.fault f] rfl
    · simp
    · simp [Host.send_heard, Host.record_heard (r := .stopped f) rfl, recorded, mirrored.listens,
        Machine.soundEvents]
  · rw [stepped]
    apply mirrored.next _ (next.instructionEvents_silent i)
    · simp
    · simp [Host.sendAll_heard, recorded, mirrored.listens]

theorem start_mirrored (s : Session) (mirrored : s.Mirrored) : s.start.Mirrored := by
  unfold start
  split
  · exact mirrored.same (by simp) (Host.record_heard rfl) rfl
  · exact mirrored.same rfl rfl rfl

theorem tick_mirrored (s : Session) (mirrored : s.Mirrored) : s.tick.Mirrored := by
  apply mirrored.next [] rfl
  · simp [tick]
  · simp [tick, Host.sendAll_heard, mirrored.listens]

theorem setKey_mirrored (s : Session) (key : UInt8) (pressed : Bool) (mirrored : s.Mirrored) :
    (s.setKey key pressed).Mirrored := by
  apply mirrored.same
  · simp [setKey]
  · exact Host.recordAll_heard (s.machine.keyRecords_plain key pressed)
  · exact s.machine.setKey_soundOn key pressed

theorem load_mirrored (s : Session) (rom : Rom) (mirrored : s.Mirrored) :
    (s.load rom).Mirrored := by
  apply mirrored.next [] rfl
  · simp [load]
  · simp [load, Host.sendAll_heard, Host.record_heard (r := .reset rom.size) rfl, mirrored.listens]

theorem keeps_mirrored : Keeps Mirrored where
  start := start_mirrored
  stop := fun _ mirrored => mirrored.same rfl rfl rfl
  step := step_mirrored
  tick := tick_mirrored
  key := setKey_mirrored
  load := load_mirrored

/-- The host of a new session that stays connected hears the sound go on and off in turn, on first,
and what it heard last is whether the sound is on. -/
theorem sound_events_alternate {first : Session} (settings : Settings) (host : Host)
    (made : first = new settings host ∨ ∃ rom, first = withRom rom settings host)
    (connected : host.observer = .channel true) (unsent : host.events = #[])
    (commands : List Command) (stays : .hangUp ∉ commands) :
    (∀ k on, ((first.run commands).2.host.events.toList.filterMap Event.sound?)[k]? = some on →
      on = (k % 2 == 0)) ∧
    (first.run commands).2.machine.soundOn =
      ((first.run commands).2.host.events.toList.filterMap Event.sound?).getLast?.getD false := by
  have silent : host.heard = [] := by simp [Host.heard, connected, unsent]
  have start : first.Mirrored := by
    rcases made with rfl | ⟨rom, rfl⟩
    · exact ⟨connected, 0, by simp [new, silent, alternation], rfl⟩
    · refine ⟨by simp [withRom, new, connected], 0, ?_, rfl⟩
      simp [withRom, new, Host.record_heard (r := .reset rom.size) rfl, silent, alternation]
  have last : (first.run commands).2.Mirrored := keeps_mirrored.run stays start
  obtain ⟨n, turns, sound⟩ := last.turns
  have heard : (first.run commands).2.host.heard = (first.run commands).2.host.events.toList := by
    simp only [Host.heard, last.connected]
  rw [heard] at turns
  rw [turns, getLast?_alternation]
  refine ⟨?_, sound⟩
  intro k on sent
  simp only [alternation, List.getElem?_map, Option.map_eq_some_iff] at sent
  obtain ⟨j, place, rfl⟩ := sent
  obtain ⟨inside, rfl⟩ := List.getElem?_eq_some_iff.mp place
  rw [List.getElem_range]

/- A program that starts the sound for a tick and then returns from no call. -/
def soundThenReturn : Rom where
  bytes := #[0x61, 0x01, 0xF1, 0x18, 0x00, 0xEE]

def overChannel : Host where
  observer := .channel true

def readyToSound : Session :=
  { withRom soundThenReturn {} overChannel with
    machine := { Machine.boot soundThenReturn {} with
      pc := 0x202, registers := Registers.zero.set 1 1 } }

def sounding : Session :=
  { readyToSound with
    machine := { readyToSound.machine with pc := 0x204, timers := { sound := 1 } }
    host := { overChannel with events := #[.sound true] } }

theorem step_to_readyToSound : (withRom soundThenReturn {} overChannel).step =
    (.executed (.load 1 1), readyToSound) := by
  have decoded : Instruction.decode? (Machine.boot soundThenReturn {}).fetch =
      some (.load 1 1) := by
    rw [Machine.fetch_of_loaded (m := Machine.boot soundThenReturn {}) soundThenReturn rfl]
    decide
  have cycled : (Machine.boot soundThenReturn {}).cycle =
      (.executed (.load 1 1), readyToSound.machine) :=
    Machine.cycle_of_ok rfl decoded rfl
  rw [step_of_executed (s := withRom soundThenReturn {} overChannel) rfl cycled,
    Host.recordAll_of_silent rfl]
  rfl

theorem step_to_sounding : readyToSound.step = (.executed (.setSound 1), sounding) := by
  have decoded : Instruction.decode? readyToSound.machine.fetch = some (.setSound 1) := by
    rw [Machine.fetch_of_loaded (m := readyToSound.machine) soundThenReturn rfl]
    decide
  have cycled : readyToSound.machine.cycle = (.executed (.setSound 1), sounding.machine) :=
    Machine.cycle_of_ok rfl decoded rfl
  rw [step_of_executed rfl cycled, Host.recordAll_of_silent rfl]
  rfl

theorem sound_events_alternate_tick :
    ((withRom soundThenReturn {} overChannel).run [.step, .step, .tick]).2.host.events =
      #[.sound true, .sound false] ∧
    ((withRom soundThenReturn {} overChannel).run [.step, .step, .tick]).2.machine.soundOn =
      false := by
  have ran : ((withRom soundThenReturn {} overChannel).run [.step, .step, .tick]).2 =
      sounding.tick := by
    rw [run_cons, obey_step, step_to_readyToSound, run_cons, obey_step, step_to_sounding,
      run_cons, run_nil]
    rfl
  have events : sounding.tick.host.events = #[.sound true, .sound false] := by decide
  have mirrored := (sound_events_alternate {} overChannel (.inr ⟨soundThenReturn, rfl⟩) rfl rfl
    [.step, .step, .tick] (by simp)).2
  rw [ran, events] at mirrored
  rw [ran]
  exact ⟨events, mirrored⟩

end Session

end Chip8
