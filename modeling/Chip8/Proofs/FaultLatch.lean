import Chip8.Proofs.Interference
import Chip8.Proofs.Sound

/-!
# The fault that stops a session

A session keeps the fault that stopped it, and its machine would meet the same fault again. Until a
program is loaded, commands change nothing but the timers and the keypad, neither of which a fault
depends on, and the host hears nothing but the sound running out.
-/

namespace Chip8

/-- The answer to a command that loads no program, where the fault has stopped the session. -/
def Command.stalledAnswer (f : Fault) : Command → Answer
  | .step => .stepped (.fault f)
  | .frame => .ran 0
  | .reset bytes => .refused ⟨bytes.size, Layout.programSpace⟩
  | _ => .done

namespace Machine

theorem cycle_fault_beside {m : Machine} {f : Fault} (met : m.cycle.1 = .fault f) (t : Timers)
    (k : Keypad) : (m.beside t k).cycle.1 = .fault f := by
  have unread : ∀ i, m.cycle.1 ≠ .executed i := by
    intro i executed
    rw [met] at executed
    contradiction
  obtain ⟨t', cycled⟩ := m.cycle_beside (k := k) t (fun i executed => absurd executed (unread i))
    (.inl fun i executed => absurd executed (unread i))
  rw [cycled]
  exact met

theorem soundOn_of_tick {m : Machine} (sounds : m.tick.soundOn = true) : m.soundOn = true := by
  simp only [soundOn, tick, Timers.soundOn, Timers.tick, Timers.countDown, decide_eq_true_eq,
    gt_iff_lt, UInt8.lt_iff_toNat_lt] at sounds ⊢
  by_cases empty : m.timers.sound = 0
  · simp [empty] at sounds
  · exact Nat.pos_of_ne_zero fun zero => empty (UInt8.toNat_inj.mp zero)

end Machine

namespace Session

/-- The session is stopped by the fault, and its machine meets the fault in every cycle. -/
structure Latched (f : Fault) (s : Session) : Prop where
  fault : s.fault = some f
  running : s.running = false
  awake : s.machine.waiting = none
  cycle : s.machine.cycle.1 = .fault f

structure Stalls (s last : Session) : Prop where
  alike : Machine.Alike s.machine last.machine
  quieter : last.machine.soundOn = true → s.machine.soundOn = true
  heard : last.host.heard = s.host.heard ∨
    last.host.heard = s.host.heard ++ [.sound false] ∧
      s.machine.soundOn = true ∧ last.machine.soundOn = false

variable {s mid last : Session} {f : Fault} {command : Command}

theorem Stalls.refl (s : Session) : Stalls s s :=
  ⟨.refl _, id, .inl rfl⟩

/- The sound runs out once: if it does in the first part, there is none left for the second. -/
theorem Stalls.trans (first : Stalls s mid) (second : Stalls mid last) : Stalls s last where
  alike := by
    obtain ⟨t, k, machine⟩ := first.alike
    obtain ⟨t', k', machine'⟩ := second.alike
    exact ⟨t', k', by rw [machine', machine]; rfl⟩
  quieter := fun sounds => first.quieter (second.quieter sounds)
  heard := by
    rcases second.heard with heard' | ⟨heard', on', off'⟩
    · rcases first.heard with heard | ⟨heard, on, off⟩
      · exact .inl (heard'.trans heard)
      · refine .inr ⟨heard'.trans heard, on, ?_⟩
        rw [← Bool.not_eq_true]
        intro sounds
        rw [second.quieter sounds] at off
        contradiction
    · rcases first.heard with heard | ⟨-, -, off⟩
      · exact .inr ⟨by rw [heard', heard], first.quieter on', off'⟩
      · rw [on'] at off
        contradiction

theorem Stalls.of_same (machine : last.machine = s.machine)
    (heard : last.host.heard = s.host.heard) : Stalls s last :=
  ⟨machine ▸ .refl _, fun sounds => machine ▸ sounds, .inl heard⟩

theorem Latched.tick (latched : Latched f s) : Latched f s.tick where
  fault := latched.fault
  running := latched.running
  awake := latched.awake
  cycle := s.machine.cycle_fault_beside latched.cycle _ _

theorem tick_stalls (s : Session) : Stalls s s.tick where
  alike := ⟨s.machine.timers.tick, s.machine.keypad, rfl⟩
  quieter := Machine.soundOn_of_tick
  heard := by
    have quieter : s.machine.tick.soundOn = true → s.machine.soundOn = true :=
      Machine.soundOn_of_tick
    simp only [Session.tick, Host.sendAll_heard, Machine.soundEvents]
    cases before : s.machine.soundOn <;> cases after : s.machine.tick.soundOn <;>
      cases s.host.listens <;> simp_all

theorem Latched.setKey (latched : Latched f s) (key : UInt8) (pressed : Bool) :
    Latched f (s.setKey key pressed) := by
  have machine := Machine.setKey_of_awake latched.awake key pressed
  refine ⟨latched.fault, latched.running, ?_, ?_⟩
  · simp only [Session.setKey, machine]
    exact latched.awake
  · simp only [Session.setKey, machine]
    exact Machine.cycle_fault_beside latched.cycle _ _

theorem setKey_stalls (latched : Latched f s) (key : UInt8) (pressed : Bool) :
    Stalls s (s.setKey key pressed) := by
  have machine := Machine.setKey_of_awake latched.awake key pressed
  have heard : (s.setKey key pressed).host.heard = s.host.heard :=
    Host.recordAll_heard (s.machine.keyRecords_plain key pressed)
  refine ⟨⟨s.machine.timers, s.machine.keypad.set key pressed, machine⟩, ?_, .inl heard⟩
  simp only [Session.setKey, machine]
  exact id

theorem obey_latched (latched : Latched f s) (stays : command.loads = false) :
    (s.obey command).1 = command.stalledAnswer f ∧ Latched f (s.obey command).2 ∧
      Stalls s (s.obey command).2 := by
  have fault : s.fault = some f := latched.fault
  cases command with
  | start =>
    have started : s.start = { s with host := s.host.record (.notStarted f) } := by
      simp only [start, fault]
    rw [obey, started]
    exact ⟨rfl, ⟨fault, latched.running, latched.awake, latched.cycle⟩,
      .of_same rfl (Host.record_heard rfl)⟩
  | stop => exact ⟨rfl, ⟨fault, rfl, latched.awake, latched.cycle⟩, .of_same rfl rfl⟩
  | step =>
    rw [obey, step_of_latched fault]
    exact ⟨rfl, latched, .refl s⟩
  | frame =>
    have framed : s.frame = (.ok 0, s) := by simp [frame, latched.running]
    simp only [obey, framed]
    exact ⟨rfl, latched, .refl s⟩
  | tick => exact ⟨rfl, latched.tick, tick_stalls s⟩
  | key key pressed => exact ⟨rfl, latched.setKey key pressed, setKey_stalls latched key pressed⟩
  | reset bytes =>
    rw [obey_reset_of_large (of_decide_eq_false stays)]
    exact ⟨rfl, latched, .refl s⟩
  | load rom => contradiction
  | hangUp =>
    exact ⟨rfl, ⟨fault, latched.running, latched.awake, latched.cycle⟩,
      .of_same rfl s.host.hangUp_heard⟩

theorem run_latched {commands : List Command} (latched : Latched f s)
    (stays : ∀ command ∈ commands, command.loads = false) :
    (s.run commands).1 = commands.map (·.stalledAnswer f) ∧ Latched f (s.run commands).2 ∧
      Stalls s (s.run commands).2 := by
  induction commands generalizing s with
  | nil => exact ⟨rfl, latched, .refl s⟩
  | cons command rest ih =>
    obtain ⟨answer, next, first⟩ := obey_latched latched (stays command List.mem_cons_self)
    obtain ⟨answers, last, second⟩ := ih next fun other member =>
      stays other (List.mem_cons_of_mem _ member)
    refine ⟨?_, last, first.trans second⟩
    rw [run_cons, answer, answers]
    rfl

/-- The fault that the session keeps, if it keeps one, is a fault that has stopped it. -/
def Consistent (s : Session) : Prop :=
  ∀ f, s.fault = some f → Latched f s

theorem consistent_of_clear (clear : s.fault = none) : Consistent s := by
  intro f fault
  rw [clear] at fault
  contradiction

theorem step_consistent (s : Session) (consistent : Consistent s) : Consistent s.step.2 := by
  rcases s.step_cases with ⟨f, -, stepped⟩ | ⟨-, x, -, stepped⟩ |
    ⟨-, awake, f, cycled, stepped⟩ | ⟨fault, i, next, -, stepped⟩
  · rw [stepped]
    exact consistent
  · rw [stepped]
    exact consistent
  -- This is where a fault comes to be kept: the cycle that met it has left the machine as it was.
  · rw [stepped]
    intro g same
    cases Option.some.inj same
    exact ⟨rfl, rfl, awake, congrArg Prod.fst cycled⟩
  · rw [stepped]
    exact consistent_of_clear fault

theorem start_consistent (s : Session) (consistent : Consistent s) : Consistent s.start := by
  cases fault : s.fault with
  | some f =>
    have stays : Command.start.loads = false := rfl
    have next : Latched f s.start := (obey_latched (consistent f fault) stays).2.1
    exact fun g same => Option.some.inj (next.fault.symm.trans same) ▸ next
  | none =>
    have started : s.start = { s with running := true } := by simp only [start, fault]
    rw [started]
    exact consistent_of_clear fault

theorem keeps_consistent : Keeps Consistent where
  start := start_consistent
  stop := fun _ consistent f fault =>
    ⟨fault, rfl, (consistent f fault).awake, (consistent f fault).cycle⟩
  step := step_consistent
  tick := fun _ consistent f fault => (consistent f fault).tick
  key := fun _ key pressed consistent f fault => (consistent f fault).setKey key pressed
  load := fun _ _ _ => consistent_of_clear rfl

theorem hangUp_consistent (consistent : Consistent s) : Consistent s.hangUp := by
  intro f fault
  have latched := consistent f fault
  exact ⟨fault, latched.running, latched.awake, latched.cycle⟩

theorem Reachable.consistent (reachable : s.Reachable) : Consistent s := by
  induction reachable with
  | new settings host => exact consistent_of_clear rfl
  | withRom rom settings host => exact consistent_of_clear rfl
  | obey command _ ih =>
    by_cases leaves : command = .hangUp
    · exact leaves ▸ hangUp_consistent ih
    · exact keeps_consistent.obey leaves ih

theorem Consistent.clear_of_running (consistent : Consistent s) (runs : s.running = true) :
    s.fault = none := by
  cases fault : s.fault with
  | none => rfl
  | some f =>
    rw [(consistent f fault).running] at runs
    contradiction

/-- A session that keeps a fault is stopped, and its machine meets the fault in its next cycle. Until
a program is loaded, it answers every command by the fault or by doing nothing, its machine stays
as it is but for the timers and the keypad, and the host hears at most that the sound is off. -/
theorem kept_fault_is_final (reachable : s.Reachable) (fault : s.fault = some f) :
    s.running = false ∧ s.machine.waiting = none ∧ s.machine.cycle.1 = .fault f ∧
    ∀ commands, (∀ command ∈ commands, command.loads = false) →
      (s.run commands).1 = commands.map (·.stalledAnswer f) ∧
      (s.run commands).2.fault = some f ∧ (s.run commands).2.running = false ∧
      Machine.Alike s.machine (s.run commands).2.machine ∧
      ((s.run commands).2.host.heard = s.host.heard ∨
        (s.run commands).2.host.heard = s.host.heard ++ [.sound false]) := by
  have latched : Latched f s := reachable.consistent f fault
  refine ⟨latched.running, latched.awake, latched.cycle, ?_⟩
  intro commands stays
  obtain ⟨answers, last, stalls⟩ := run_latched latched stays
  refine ⟨answers, last.fault, last.running, stalls.alike, ?_⟩
  exact stalls.heard.imp_right And.left

def afterReturn : Session :=
  { sounding with
    fault := some (.stackUnderflow 0x204)
    host := { overChannel with events := #[.sound true, .fault (.stackUnderflow 0x204)] } }

theorem step_to_afterReturn : sounding.step = (.fault (.stackUnderflow 0x204), afterReturn) := by
  have decoded : Instruction.decode? sounding.machine.fetch = some .ret := by
    rw [Machine.fetch_of_loaded (m := sounding.machine) soundThenReturn rfl]
    decide
  have failed : sounding.machine.goBack = .error (.stackUnderflow 0x204) :=
    Machine.goBack_eq_error_iff.mpr ⟨rfl, rfl⟩
  rw [step_of_fault rfl (Machine.cycle_of_error rfl decoded failed), Host.recordAll_of_silent rfl]
  rfl

theorem reachable_afterReturn : afterReturn.Reachable :=
  (((Reachable.withRom soundThenReturn {} overChannel).stepped step_to_readyToSound).stepped
    step_to_sounding).stepped step_to_afterReturn

theorem kept_fault_is_final_return : afterReturn.Reachable ∧
    afterReturn.fault = some (.stackUnderflow 0x204) ∧ afterReturn.machine.soundOn = true ∧
    afterReturn.machine.cycle.1 = .fault (.stackUnderflow 0x204) ∧
    (afterReturn.run [.start, .step, .tick, .key 3 true, .frame]).1 =
      [.done, .stepped (.fault (.stackUnderflow 0x204)), .done, .done, .ran 0] ∧
    (afterReturn.run [.start, .step, .tick, .key 3 true, .frame]).2.running = false := by
  have reachable := reachable_afterReturn
  obtain ⟨-, -, cycle, stalls⟩ := kept_fault_is_final reachable rfl
  obtain ⟨answers, -, running, -⟩ := stalls [.start, .step, .tick, .key 3 true, .frame]
    (by simp [Command.loads])
  exact ⟨reachable, rfl, by decide, cycle, answers, running⟩

end Session

end Chip8
