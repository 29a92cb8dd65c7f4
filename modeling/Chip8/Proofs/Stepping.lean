import Chip8.CommandLine.Playback
import Chip8.Proofs.Histories

namespace Chip8.Session

variable {s : Session} {m next : Machine} {i : Instruction} {f : Fault} {x : UInt8}

theorem step_of_latched (latched : s.fault = some f) : s.step = (.fault f, s) := by
  simp only [step, latched]

theorem step_of_executed (clear : s.fault = none) (cycled : s.machine.cycle = (.executed i, next)) :
    s.step = (.executed i, { s with
      machine := next
      host := (s.host.recordAll s.machine.cycleRecords).sendAll
        (next.instructionEvents i ++ s.machine.soundEvents next) }) := by
  simp only [step, clear, cycled]

theorem step_of_fault (clear : s.fault = none) (cycled : s.machine.cycle = (.fault f, next)) :
    s.step = (.fault f, { s with
      machine := next
      running := false
      fault := some f
      host := ((s.host.recordAll s.machine.cycleRecords).record (.stopped f)).send (.fault f) }) := by
  simp only [step, clear, cycled]

/- A machine that waits writes nothing to the log, so a step that finds it waiting changes nothing
at all. -/
theorem step_of_waiting (clear : s.fault = none) (waits : s.machine.waiting = some x) :
    s.step = (.waiting, s) := by
  have records : s.machine.cycleRecords = [] := by simp only [Machine.cycleRecords, waits]
  simp only [step]
  split
  · rename_i f latched
    rw [clear] at latched
    contradiction
  · rw [Machine.cycle_of_waiting waits, records]
    rfl

theorem step_cases (s : Session) :
    (∃ f, s.fault = some f ∧ s.step = (.fault f, s)) ∨
    (s.fault = none ∧ ∃ x, s.machine.waiting = some x ∧ s.step = (.waiting, s)) ∨
    (s.fault = none ∧ s.machine.waiting = none ∧ ∃ f, s.machine.cycle = (.fault f, s.machine) ∧
      s.step = (.fault f, { s with
        running := false
        fault := some f
        host := ((s.host.recordAll s.machine.cycleRecords).record (.stopped f)).send
          (.fault f) })) ∨
    (s.fault = none ∧ ∃ i next, s.machine.cycle = (.executed i, next) ∧
      s.step = (.executed i, { s with
        machine := next
        host := (s.host.recordAll s.machine.cycleRecords).sendAll
          (next.instructionEvents i ++ s.machine.soundEvents next) })) := by
  rcases Option.eq_none_or_eq_some s.fault with clear | ⟨f, latched⟩
  · rcases s.machine.cycle_cases with ⟨x, waits, -⟩ | ⟨awake, f, cycled⟩ |
      ⟨-, i, next, -, -, cycled⟩
    · exact .inr (.inl ⟨clear, x, waits, step_of_waiting clear waits⟩)
    · exact .inr (.inr (.inl ⟨clear, awake, f, cycled, step_of_fault clear cycled⟩))
    · exact .inr (.inr (.inr ⟨clear, i, next, cycled, step_of_executed clear cycled⟩))
  · exact .inl ⟨f, latched, step_of_latched latched⟩

/- A script without keys sets none before a frame and none after it. -/
theorem scriptedFrame_nil (s : Session) (frame : Nat) : s.scriptedFrame [] frame = s.frame := by
  simp only [scriptedFrame]
  split
  · rename_i executed next framed
    exact framed.symm
  · rename_i f next framed
    exact framed.symm

end Chip8.Session
