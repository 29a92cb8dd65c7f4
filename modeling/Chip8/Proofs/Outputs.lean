import Chip8.Proofs.Commands
import Chip8.Proofs.Hearing

/-!
# What a session hands to its host

Records and events, in the order in which they are made. A session never asks who its host is: on
the same commands it gives the same answers, goes through the same states, and hands the same
outputs to every host. What becomes of them is up to the host alone.
-/

namespace Chip8

inductive Output where
  | record (r : Record)
  | event (e : Event)

namespace Output

def record? : Output → Option Record
  | .record r => some r
  | .event _ => none

def event? : Output → Option Event
  | .record _ => none
  | .event e => some e

/-- What the output leaves in a log that the events are written to as well. -/
def entry : Output → Record
  | .record r => r
  | .event e => .event e

/-- A record that is handed out as one stands for no event. -/
def Plain : Output → Prop
  | .record r => r.event? = none
  | .event _ => True

theorem plain_of_records {rs : List Record} (plain : ∀ r ∈ rs, r.event? = none) :
    ∀ o ∈ rs.map record, o.Plain :=
  List.forall_mem_map.mpr plain

theorem plain_of_events (es : List Event) : ∀ o ∈ es.map event, o.Plain :=
  List.forall_mem_map.mpr fun _ _ => trivial

@[simp] theorem events_records (rs : List Record) : (rs.map record).filterMap event? = [] := by
  induction rs with
  | nil => rfl
  | cons r rs ih => exact ih

@[simp] theorem events_events (es : List Event) : (es.map event).filterMap event? = es := by
  induction es with
  | nil => rfl
  | cons e es ih => exact congrArg (e :: ·) ih

/-- There is one event among the outputs, or none. -/
def Few (outputs : List Output) : Prop :=
  (outputs.filterMap event?).length ≤ 1

end Output

namespace Host

variable (h : Host)

def take : Output → Host
  | .record r => h.record r
  | .event e => h.send e

def takeAll (outputs : List Output) : Host :=
  outputs.foldl take h

@[simp] theorem takeAll_nil : h.takeAll [] = h := rfl

theorem takeAll_cons (o : Output) (outputs : List Output) :
    h.takeAll (o :: outputs) = (h.take o).takeAll outputs := rfl

@[simp] theorem takeAll_append (first second : List Output) :
    h.takeAll (first ++ second) = (h.takeAll first).takeAll second :=
  List.foldl_append

@[simp] theorem takeAll_records (rs : List Record) :
    h.takeAll (rs.map .record) = h.recordAll rs :=
  List.foldl_map

@[simp] theorem takeAll_events (es : List Event) : h.takeAll (es.map .event) = h.sendAll es :=
  List.foldl_map

@[simp] theorem take_observer (o : Output) : (h.take o).observer = h.observer := by
  cases o with
  | record r => exact record_observer h r
  | event e => exact send_observer h e

@[simp] theorem take_listens (o : Output) : (h.take o).listens = h.listens := by
  cases o with
  | record r => exact record_listens h r
  | event e => exact send_listens h e

theorem take_heard {o : Output} (plain : o.Plain) :
    (h.take o).heard = h.heard ++ if h.listens then o.event?.toList else [] := by
  cases o with
  | record r =>
    rw [take, record_heard plain]
    simp [Output.event?]
  | event e => exact send_heard h e

@[simp] theorem takeAll_observer (outputs : List Output) :
    (h.takeAll outputs).observer = h.observer := by
  induction outputs generalizing h with
  | nil => rfl
  | cons o outputs ih => rw [takeAll_cons, ih, take_observer]

theorem takeAll_heard {outputs : List Output} (plain : ∀ o ∈ outputs, o.Plain) :
    (h.takeAll outputs).heard =
      h.heard ++ if h.listens then outputs.filterMap Output.event? else [] := by
  induction outputs generalizing h with
  | nil => simp
  | cons o outputs ih =>
    obtain ⟨here, later⟩ := List.forall_mem_cons.mp plain
    rw [takeAll_cons, ih _ later, take_listens, take_heard h here]
    cases event : o.event? <;> cases listens : h.listens <;> simp [event]

end Host

namespace Machine

variable {m next : Machine} {i : Instruction}

theorem soundEvents_length (before after : Machine) : (before.soundEvents after).length ≤ 1 := by
  unfold soundEvents
  split
  · exact Nat.zero_le 1
  · exact Nat.le_refl 1

/- An instruction that has an event of its own leaves the sound as it is. -/
theorem executed_events_length (done : m.execute i = .ok next) :
    (next.instructionEvents i ++ m.soundEvents next).length ≤ 1 := by
  have silent : next.timers = m.timers → m.soundEvents next = [] :=
    fun same => if_pos (congrArg Timers.soundOn same.symm)
  cases i with
  | draw x y n =>
    cases Except.ok.inj done
    rw [silent rfl]
    exact Nat.le_refl 1
  | clear =>
    cases Except.ok.inj done
    rw [silent rfl]
    exact Nat.le_refl 1
  | awaitKey x =>
    cases Except.ok.inj done
    rw [silent rfl]
    exact Nat.le_refl 1
  | _ => exact m.soundEvents_length next

end Machine

namespace Session

variable {s : Session} {α : Type}

def hostedBy (s : Session) (host : Host) : Session :=
  { s with host }

/-- The host has no part in the answer to an act and in what the session is like after it, and the
act hands these outputs to any host. -/
structure HandsOut (act : Session → α × Session) (s : Session) (outputs : List Output) : Prop where
  plain : ∀ o ∈ outputs, o.Plain
  same : ∀ host, act (s.hostedBy host) = ((act s).1, (act s).2.hostedBy (host.takeAll outputs))

theorem step_handsOut (s : Session) :
    ∃ outputs, HandsOut step s outputs ∧ Output.Few outputs := by
  have records : ∀ o ∈ s.machine.cycleRecords.map Output.record, o.Plain :=
    Output.plain_of_records s.machine.cycleRecords_plain
  rcases s.step_cases with ⟨f, latched, stepped⟩ | ⟨clear, x, waits, stepped⟩ |
    ⟨clear, -, f, cycled, stepped⟩ | ⟨clear, i, next, cycled, stepped⟩
  · refine ⟨[], ⟨by simp, fun host => ?_⟩, Nat.zero_le 1⟩
    rw [stepped]
    exact step_of_latched (s := s.hostedBy host) latched
  · refine ⟨[], ⟨by simp, fun host => ?_⟩, Nat.zero_le 1⟩
    rw [stepped]
    exact step_of_waiting (s := s.hostedBy host) clear waits
  · refine ⟨s.machine.cycleRecords.map .record ++ [.record (.stopped f), .event (.fault f)],
      ⟨?_, fun host => ?_⟩, ?_⟩
    · rw [List.forall_mem_append]
      refine ⟨records, ?_⟩
      rw [List.forall_mem_cons]
      exact ⟨rfl, Output.plain_of_events [.fault f]⟩
    · rw [stepped, step_of_fault (s := s.hostedBy host) clear cycled, Host.takeAll_append,
        Host.takeAll_records]
      rfl
    · rw [Output.Few, List.filterMap_append, Output.events_records]
      exact Nat.le_refl 1
  · refine ⟨s.machine.cycleRecords.map .record ++
      (next.instructionEvents i ++ s.machine.soundEvents next).map .event,
      ⟨?_, fun host => ?_⟩, ?_⟩
    · exact List.forall_mem_append.mpr ⟨records, Output.plain_of_events _⟩
    · rw [stepped, step_of_executed (s := s.hostedBy host) clear cycled, Host.takeAll_append,
        Host.takeAll_records, Host.takeAll_events]
      rfl
    · rw [Output.Few, List.filterMap_append, Output.events_records, Output.events_events]
      exact Machine.executed_events_length (Machine.of_cycle_executed cycled).2.2

theorem tick_hostedBy (s : Session) (host : Host) : (s.hostedBy host).tick =
    s.tick.hostedBy (host.takeAll ((s.machine.soundEvents s.machine.tick).map .event)) := by
  rw [Host.takeAll_events]
  rfl

theorem tick_handsOut (s : Session) :
    ∃ outputs, HandsOut (obey · .tick) s outputs ∧ Output.Few outputs := by
  refine ⟨_, ⟨Output.plain_of_events _, fun host => congrArg _ (s.tick_hostedBy host)⟩, ?_⟩
  rw [Output.Few, Output.events_events]
  exact s.machine.soundEvents_length _

theorem setKey_hostedBy (s : Session) (key : UInt8) (pressed : Bool) (host : Host) :
    (s.hostedBy host).setKey key pressed = (s.setKey key pressed).hostedBy
      (host.takeAll ((s.machine.keyRecords key pressed).map .record)) := by
  rw [Host.takeAll_records]
  rfl

theorem load_hostedBy (s : Session) (rom : Rom) (host : Host) : (s.hostedBy host).load rom =
    (s.load rom).hostedBy (host.takeAll (.record (.reset rom.size) ::
      (s.machine.soundEvents (s.machine.reset rom)).map .event)) := by
  rw [Host.takeAll_cons, Host.takeAll_events]
  rfl

theorem burst_handsOut (s : Session) (executed n : Nat) :
    ∃ outputs, HandsOut (burst · executed n) s outputs := by
  induction n generalizing s executed with
  | zero => exact ⟨[], by simp, fun host => rfl⟩
  | succ n ih =>
    obtain ⟨outputs, ⟨plain, same⟩, -⟩ := s.step_handsOut
    cases stepped : s.step with
    | mk outcome next =>
      rw [stepped] at same
      cases outcome with
      | executed i =>
        obtain ⟨later, plain', same'⟩ := ih next (executed + 1)
        refine ⟨outputs ++ later, List.forall_mem_append.mpr ⟨plain, plain'⟩, fun host => ?_⟩
        simp only [burst, same, stepped, same', Host.takeAll_append]
      | waiting =>
        refine ⟨outputs, plain, fun host => ?_⟩
        simp only [burst, same, stepped]
      | fault f =>
        refine ⟨outputs, plain, fun host => ?_⟩
        simp only [burst, same, stepped]

theorem frame_handsOut (s : Session) : ∃ outputs, HandsOut frame s outputs := by
  by_cases runs : s.running = true
  · obtain ⟨outputs, plain, same⟩ := s.burst_handsOut 0 s.rate
    have other : ∀ host, (s.hostedBy host).running = true := fun _ => runs
    have rate : ∀ host, (s.hostedBy host).rate = s.rate := fun _ => rfl
    cases burst : s.burst 0 s.rate with
    | mk answer next =>
      rw [burst] at same
      cases answer with
      | ok executed =>
        refine ⟨outputs ++ (next.machine.soundEvents next.machine.tick).map .event,
          List.forall_mem_append.mpr ⟨plain, Output.plain_of_events _⟩, fun host => ?_⟩
        simp only [frame, if_pos runs, if_pos (other host), rate, same, burst, tick_hostedBy,
          Host.takeAll_append]
      | error f =>
        refine ⟨outputs, plain, fun host => ?_⟩
        simp only [frame, if_pos runs, if_pos (other host), rate, same, burst]
  · have other : ∀ host, ¬ (s.hostedBy host).running = true := fun _ => runs
    refine ⟨[], by simp, fun host => ?_⟩
    simp only [frame, if_neg runs, if_neg (other host), Host.takeAll_nil]

theorem obey_handsOut (s : Session) {command : Command} (stays : command ≠ .hangUp) :
    ∃ outputs, HandsOut (obey · command) s outputs ∧ (command ≠ .frame → Output.Few outputs) := by
  -- Said of `load` itself, since a reset with bytes that fit comes to it as well.
  have loads : ∀ rom, ∃ outputs, HandsOut (obey · (.load rom)) s outputs ∧
      Output.Few outputs := by
    intro rom
    refine ⟨_, ⟨List.forall_mem_cons.mpr ⟨by rfl, Output.plain_of_events _⟩,
      fun host => congrArg _ (s.load_hostedBy rom host)⟩, ?_⟩
    rw [Output.Few, List.filterMap_cons_none rfl, Output.events_events]
    exact s.machine.soundEvents_length _
  cases command with
  | start =>
    cases latched : s.fault with
    | none =>
      exact ⟨[], ⟨by simp, fun host => by simp [obey, start, hostedBy, latched]⟩,
        fun _ => Nat.zero_le 1⟩
    | some f =>
      refine ⟨[.record (.notStarted f)], ⟨by simp [Output.Plain, Record.event?], fun host => ?_⟩,
        fun _ => Nat.zero_le 1⟩
      simp [obey, start, hostedBy, latched, Host.takeAll, Host.take]
  | stop => exact ⟨[], ⟨by simp, fun host => rfl⟩, fun _ => Nat.zero_le 1⟩
  | step =>
    obtain ⟨outputs, ⟨plain, same⟩, few⟩ := s.step_handsOut
    refine ⟨outputs, ⟨plain, fun host => ?_⟩, fun _ => few⟩
    simp only [obey_step, same]
  | frame =>
    obtain ⟨outputs, plain, same⟩ := s.frame_handsOut
    refine ⟨outputs, ⟨plain, fun host => ?_⟩, fun single => absurd rfl single⟩
    simp only [obey, same]
    rcases s.frame with ⟨answer, next⟩
    cases answer <;> rfl
  | tick =>
    obtain ⟨outputs, handed, few⟩ := s.tick_handsOut
    exact ⟨outputs, handed, fun _ => few⟩
  | key key pressed =>
    refine ⟨_, ⟨Output.plain_of_records (s.machine.keyRecords_plain key pressed),
      fun host => congrArg _ (s.setKey_hostedBy key pressed host)⟩, fun _ => ?_⟩
    rw [Output.Few, Output.events_records]
    exact Nat.zero_le 1
  | reset bytes =>
    by_cases fits : bytes.size ≤ Layout.programSpace
    · obtain ⟨outputs, ⟨plain, same⟩, few⟩ := loads ⟨bytes, fits⟩
      refine ⟨outputs, ⟨plain, fun host => ?_⟩, fun _ => few⟩
      rw [obey_reset_of_fits fits, obey_reset_of_fits fits]
      exact same host
    · exact ⟨[], ⟨by simp, fun host => by simp only [obey_reset_of_large fits, Host.takeAll_nil]⟩,
        fun _ => Nat.zero_le 1⟩
  | load rom =>
    obtain ⟨outputs, handed, few⟩ := loads rom
    exact ⟨outputs, handed, fun _ => few⟩
  | hangUp => exact absurd rfl stays

theorem run_handsOut (s : Session) {commands : List Command} (stays : .hangUp ∉ commands) :
    ∃ outputs, HandsOut (run · commands) s outputs := by
  induction commands generalizing s with
  | nil => exact ⟨[], by simp, fun host => rfl⟩
  | cons command rest ih =>
    obtain ⟨here, later⟩ := List.ne_and_not_mem_of_not_mem_cons stays
    obtain ⟨outputs, ⟨plain, same⟩, -⟩ := s.obey_handsOut (Ne.symm here)
    obtain ⟨outputs', plain', same'⟩ := ih (s.obey command).2 later
    refine ⟨outputs ++ outputs', List.forall_mem_append.mpr ⟨plain, plain'⟩, fun host => ?_⟩
    simp only [run_cons, same, same', Host.takeAll_append]

end Session

end Chip8
