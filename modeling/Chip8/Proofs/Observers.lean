import Chip8.Proofs.HangUp
import Chip8.Proofs.Sound

/-!
# Hosts that watch the same run

A channel, a log and a host that takes no events see one and the same run. The log has a line for
each event that the channel gets, among the lines that are written in any case, and no line of the
one kind can be mistaken for one of the other. A receiver that hangs up has got what was sent
before, and the session goes on as if nothing had happened.
-/

namespace Chip8

def Event.rendering : Event → String
  | .draw true => "TRACE draw, collision: true"
  | .draw false => "TRACE draw, collision: false"
  | .clear => "TRACE clear screen"
  | .sound true => "INFO sound on"
  | .sound false => "INFO sound off"
  | .keyWait x => "INFO waiting for a key press to store in V" ++ Numeral.hex 1 x.toNat
  | .fault f => "ERROR " ++ f.message

/-- Whether a line of the log is about an event, as its first characters show. -/
def tellsEvent : List Char → Bool
  | 'I' :: _ => true
  | 'E' :: _ => true
  | 'T' :: _ :: _ :: _ :: _ :: _ :: c :: _ => c != '0'
  | _ => false

theorem Event.rendering_keyWait (x : UInt8) : (Event.keyWait x).rendering =
    "INFO waiting for a key press to store in V" ++ Numeral.hex 1 x.toNat := rfl

theorem Event.rendering_fault (f : Fault) : (Event.fault f).rendering = "ERROR " ++ f.message := rfl

theorem Record.line_def (r : Record) : r.line = r.level.name ++ " " ++ r.message := rfl

theorem Record.message_decoded (address word : UInt16) (i : Instruction) :
    (Record.decoded address word i).message =
      Numeral.marked 3 address.toNat ++ "  " ++ Numeral.hex 4 word.toNat ++ "  " ++ i.text := rfl

theorem Event.line_eq_rendering (e : Event) : (Record.event e).line = e.rendering := by
  cases e with
  | draw collision => cases collision <;> rfl
  | clear => rfl
  | sound on => cases on <;> rfl
  | keyWait x =>
    have head : "INFO waiting for a key press to store in V" =
        "INFO" ++ " " ++ "waiting for a key press to store in V" := by decide
    rw [rendering_keyWait, head, String.append_assoc]
    rfl
  | fault f => rfl

theorem Event.tells_rendering (e : Event) : tellsEvent e.rendering.toList = true := by
  cases e with
  | draw collision => cases collision <;> rfl
  | clear => rfl
  | sound on => cases on <;> rfl
  | keyWait x => simp [rendering_keyWait, tellsEvent]
  | fault f => simp [rendering_fault, tellsEvent]

theorem Record.tells_line {r : Record} (plain : r.event? = none) :
    tellsEvent r.line.toList = false := by
  cases r with
  | event e => cases plain
  | decoded address word i =>
    simp [line_def, message_decoded, level, Level.name, Numeral.marked, tellsEvent]
  | _ => simp [line_def, level, Level.name, tellsEvent]

namespace Output

variable {outputs : List Output}

def logged? (observer : Observer) (o : Output) : Option Record :=
  match observer with
  | .log => some o.entry
  | _ => o.record?

/- The lines of the log that are written for any observer, and those that tell of the events. -/

def recordLines (outputs : List Output) : List String :=
  (outputs.filterMap record?).map Record.line

def eventLines (outputs : List Output) : List String :=
  (outputs.filterMap event?).map Event.rendering

theorem line_disjoint (plain : ∀ o ∈ outputs, o.Plain) :
    (recordLines outputs).Disjoint (eventLines outputs) := by
  intro line record event
  obtain ⟨r, written, rfl⟩ := List.mem_map.mp record
  obtain ⟨e, -, same⟩ := List.mem_map.mp event
  obtain ⟨o, member, of⟩ := List.mem_filterMap.mp written
  cases o with
  | event e' => cases of
  | record r' =>
    cases of
    have tells := e.tells_rendering
    rw [same, Record.tells_line (plain _ member)] at tells
    cases tells

theorem filter_lines (kept : String → Bool)
    (records : ∀ line ∈ recordLines outputs, kept line = false)
    (events : ∀ line ∈ eventLines outputs, kept line = true) :
    (outputs.map (·.entry.line)).filter kept = eventLines outputs ∧
    (outputs.map (·.entry.line)).filter (!kept ·) = recordLines outputs := by
  induction outputs with
  | nil => exact ⟨rfl, rfl⟩
  | cons o outputs ih =>
    rw [List.map_cons]
    cases o with
    | record r =>
      obtain ⟨here, later⟩ := List.forall_mem_cons.mp records
      obtain ⟨told, written⟩ := ih later events
      have line : (record r).entry.line = r.line := rfl
      rw [List.filter_cons_of_neg (by simp [line, here]), told,
        List.filter_cons_of_pos (by simp [line, here]), written]
      exact ⟨rfl, rfl⟩
    | event e =>
      obtain ⟨here, later⟩ := List.forall_mem_cons.mp events
      obtain ⟨told, written⟩ := ih records later
      have line : (event e).entry.line = e.rendering := e.line_eq_rendering
      rw [List.filter_cons_of_pos (by simp [line, here]), told,
        List.filter_cons_of_neg (by simp [line, here]), written, line]
      exact ⟨rfl, rfl⟩

end Output

namespace Host

variable {h : Host}

theorem take_logged (logging : h.logging = true) (o : Output) :
    (h.take o).logging = true ∧
      (h.take o).records.toList = h.records.toList ++ (o.logged? h.observer).toList := by
  cases o with
  | record r =>
    cases observer : h.observer <;>
      simp [take, record, logging, Output.logged?, Output.record?, Output.entry]
  | event e =>
    cases observer : h.observer with
    | channel connected =>
      cases connected <;> simp [take, send, observer, logging, Output.logged?, Output.record?]
    | _ =>
      simp [take, send, record, observer, logging, Output.logged?, Output.record?, Output.entry]

theorem takeAll_logged (logging : h.logging = true) (outputs : List Output) :
    (h.takeAll outputs).records.toList =
      h.records.toList ++ outputs.filterMap (Output.logged? h.observer) := by
  induction outputs generalizing h with
  | nil => simp
  | cons o outputs ih =>
    obtain ⟨still, records⟩ := take_logged logging o
    rw [takeAll_cons, ih still, take_observer, records]
    cases logged : o.logged? h.observer <;> simp [logged]

def connected (logging : Bool) : Host where
  observer := .channel true
  logging := logging

theorem heard_of_channel {listening : Bool} (channel : h.observer = .channel listening) :
    h.heard = h.events.toList := by
  simp only [heard, channel]

theorem connected_observer (logging : Bool) (outputs : List Output) :
    ((connected logging).takeAll outputs).observer = .channel true :=
  takeAll_observer _ outputs

theorem connected_events (logging : Bool) {outputs : List Output}
    (plain : ∀ o ∈ outputs, o.Plain) :
    ((connected logging).takeAll outputs).events.toList = outputs.filterMap Output.event? := by
  rw [← heard_of_channel (connected_observer logging outputs), takeAll_heard _ plain]
  rfl

theorem broken_events (logging : Bool) {sent lost : List Output}
    (plain : ∀ o ∈ sent, o.Plain) (plain' : ∀ o ∈ lost, o.Plain) :
    (((connected logging).takeAll sent).hangUp.takeAll lost).events.toList =
      sent.filterMap Output.event? := by
  have broken : ((connected logging).takeAll sent).hangUp.observer = .channel false := by
    simp only [hangUp, connected_observer]
  have deaf : ((connected logging).takeAll sent).hangUp.listens = false := by
    simp only [listens, broken]
  rw [← heard_of_channel ((takeAll_observer _ lost).trans broken), takeAll_heard _ plain', deaf,
    hangUp_heard, takeAll_heard _ plain]
  exact List.append_nil _

end Host

namespace Session

def SameButHost (a b : List Answer × Session) : Prop :=
  a.1 = b.1 ∧ a.2 = b.2.hostedBy a.2.host

/-- The events that a receiver has got who was there from the first. -/
def received (first : Host → Session) (logging : Bool) (commands : List Command) : List Event :=
  ((first (.connected logging)).run commands).2.host.events.toList

def logLines (first : Host → Session) (observer : Observer) (commands : List Command) :
    List String :=
  ((first { observer, logging := true }).run commands).2.host.records.toList.map Record.line

variable {first : Host → Session} {settings : Settings}

theorem made_handsOut (made : first = new settings ∨ ∃ rom, first = withRom rom settings) :
    ∃ (base : Session) (outputs : List Output), (∀ o ∈ outputs, o.Plain) ∧
      ∀ host, first host = base.hostedBy (host.takeAll outputs) := by
  rcases made with rfl | ⟨rom, rfl⟩
  · exact ⟨new settings { observer := .none }, [], by simp, fun host => rfl⟩
  · refine ⟨withRom rom settings { observer := .none }, [.record (.reset rom.size)], ?_,
      fun host => rfl⟩
    exact List.forall_mem_singleton.mpr rfl

/- Whoever the host is, its run is this one. -/
theorem made_run (made : first = new settings ∨ ∃ rom, first = withRom rom settings)
    {commands : List Command} (stays : .hangUp ∉ commands) :
    ∃ (answers : List Answer) (last : Session) (outputs : List Output),
      (∀ o ∈ outputs, o.Plain) ∧
      ∀ host, (first host).run commands = (answers, last.hostedBy (host.takeAll outputs)) := by
  obtain ⟨base, start, plain, same⟩ := made_handsOut made
  obtain ⟨outputs, plain', same'⟩ := base.run_handsOut stays
  refine ⟨(base.run commands).1, (base.run commands).2, start ++ outputs,
    List.forall_mem_append.mpr ⟨plain, plain'⟩, fun host => ?_⟩
  rw [same, same', Host.takeAll_append]

theorem logLines_log {outputs : List Output} {commands : List Command}
    (handed : ∀ host, ((first host).run commands).2.host = host.takeAll outputs) :
    logLines first .log commands = outputs.map (·.entry.line) := by
  have records := Host.takeAll_logged (h := { observer := .log, logging := true }) rfl outputs
  have all : outputs.filterMap (Output.logged? .log) = outputs.map Output.entry :=
    congrFun List.filterMap_eq_map outputs
  rw [logLines, handed, records, all, List.map_append, List.map_map]
  rfl

theorem logLines_none {outputs : List Output} {commands : List Command}
    (handed : ∀ host, ((first host).run commands).2.host = host.takeAll outputs) :
    logLines first .none commands = Output.recordLines outputs := by
  have records := Host.takeAll_logged (h := { observer := .none, logging := true }) rfl outputs
  rw [logLines, handed, records]
  rfl

theorem received_eq {outputs : List Output} {commands : List Command} {logging : Bool}
    (plain : ∀ o ∈ outputs, o.Plain)
    (handed : ∀ host, ((first host).run commands).2.host = host.takeAll outputs) :
    received first logging commands = outputs.filterMap Output.event? := by
  rw [received, handed]
  exact Host.connected_events logging plain

/-- The receiver hangs up between two commands. The session gives the same answers and comes to the
same state, and the receiver has got the events before. -/
theorem hangUp_between (made : first = new settings ∨ ∃ rom, first = withRom rom settings)
    {before after : List Command} (stays : .hangUp ∉ before ++ after) (logging : Bool) :
    let whole := (first (.connected logging)).run (before ++ after)
    let broken := (first (.connected logging)).run (before ++ .hangUp :: after)
    broken.1 = whole.1.take before.length ++ .done :: whole.1.drop before.length ∧
    broken.2 = whole.2.hostedBy broken.2.host ∧
    broken.2.host.events.toList = received first logging before ∧
    received first logging before <+: received first logging (before ++ after) := by
  obtain ⟨early, late⟩ := not_or.mp (mt List.mem_append.mpr stays)
  obtain ⟨answers, mid, sent, plain, start⟩ := made_run made early
  obtain ⟨lost, plain', rest⟩ := mid.run_handsOut late
  have length : answers.length = before.length := by
    rw [← length_run (first (.connected logging)) before, start]
  -- Both runs go on from the same session, the one with a host that hears, the other without.
  let host := (Host.connected logging).takeAll sent
  have whole : (first (.connected logging)).run (before ++ after) =
      (answers ++ (mid.run after).1, (mid.run after).2.hostedBy (host.takeAll lost)) := by
    rw [run_append, start, rest]
  have broken : (first (.connected logging)).run (before ++ .hangUp :: after) =
      (answers ++ .done :: (mid.run after).1,
        (mid.run after).2.hostedBy (host.hangUp.takeAll lost)) := by
    have hungUp : (mid.hostedBy host).obey .hangUp = (.done, mid.hostedBy host.hangUp) := rfl
    rw [run_append, start, run_cons, hungUp, rest]
  have events : received first logging before = sent.filterMap Output.event? :=
    received_eq plain fun host => by rw [start]; rfl
  have all : received first logging (before ++ after) = (sent ++ lost).filterMap Output.event? := by
    rw [received, whole, ← Host.takeAll_append]
    exact Host.connected_events logging (List.forall_mem_append.mpr ⟨plain, plain'⟩)
  rw [whole, broken, ← length]
  refine ⟨?_, rfl, ?_, ?_⟩
  · rw [List.take_left, List.drop_left]
  · rw [events]
    exact Host.broken_events logging plain plain'
  · rw [events, all]
    exact (List.prefix_append sent lost).filterMap _

/-- The answers of a run, and the sessions that it leads to, do not depend on the observer. If the
lines that are logged in any case are taken out of the log of an observer that logs the events, then
what is left is one line for each event that a receiver gets, in order. A receiver that hangs up
between two commands, or in the middle of one as soon as it has got `k` events, has got the events
before, and nothing else is different. -/
theorem observers_agree (made : first = new settings ∨ ∃ rom, first = withRom rom settings)
    (commands : List Command) (stays : .hangUp ∉ commands) (logging : Bool) :
    (∀ host other, SameButHost ((first host).run commands) ((first other).run commands)) ∧
    (logLines first .log commands).filter (· ∉ logLines first .none commands) =
      (received first logging commands).map Event.rendering ∧
    (logLines first .log commands).filter
      (· ∉ (received first logging commands).map Event.rendering) =
        logLines first .none commands ∧
    (∀ before after, commands = before ++ after →
      let whole := (first (.connected logging)).run commands
      let broken := (first (.connected logging)).run (before ++ .hangUp :: after)
      broken.1 = whole.1.take before.length ++ .done :: whole.1.drop before.length ∧
      broken.2 = whole.2.hostedBy broken.2.host ∧
      broken.2.host.events.toList = received first logging before ∧
      received first logging before <+: received first logging commands) ∧
    (∀ k,
      let whole := (first (.connected logging)).run commands
      let broken := (first (.connected logging)).runBeside (Host.leaveAt k) commands
      broken.1 = whole.1 ∧
      broken.2 = whole.2.hostedBy broken.2.host ∧
      broken.2.host.events.toList = (received first logging commands).take k) ∧
    ∃ outputs, (∀ host, ((first host).run commands).2.host = host.takeAll outputs) ∧
      received first logging commands = outputs.filterMap Output.event? := by
  obtain ⟨answers, last, outputs, plain, same⟩ := made_run made stays
  have handed : ∀ host, ((first host).run commands).2.host = host.takeAll outputs :=
    fun host => by rw [same]; rfl
  have events : (received first logging commands).map Event.rendering =
      Output.eventLines outputs := by
    rw [received_eq plain handed]
    rfl
  refine ⟨fun host other => ?_, ?_, ?_, ?_, fun k => ?_, outputs, handed, received_eq plain handed⟩
  · rw [same, same]
    exact ⟨rfl, rfl⟩
  · rw [logLines_log handed, logLines_none handed, events]
    apply (Output.filter_lines _ _ _).1
    · intro line written
      exact decide_eq_false (not_not_intro written)
    · intro line told
      exact decide_eq_true fun written => Output.line_disjoint plain written told
  · rw [logLines_log handed, logLines_none handed, events]
    rw [← (Output.filter_lines (· ∈ Output.eventLines outputs) ?_ ?_).2]
    · simp only [decide_not]
    · intro line written
      exact decide_eq_false (Output.line_disjoint plain written)
    · intro line told
      exact decide_eq_true told
  · rintro before after rfl
    exact hangUp_between made stays logging
  · apply runBeside_leaveAt _ _ stays
    · rcases made with rfl | ⟨rom, rfl⟩
      · rfl
      · exact Host.record_observer (.connected logging) (.reset rom.size)
    · rcases made with rfl | ⟨rom, rfl⟩
      · rfl
      · cases logging <;> rfl

theorem received_sound {commands : List Command} {s : Session}
    (ran : ((withRom soundThenReturn {} overChannel).run commands).2 = s) :
    received (withRom soundThenReturn {}) false commands = s.host.events.toList := by
  have receiver : Host.connected false = overChannel := rfl
  rw [received, receiver, ran]

theorem observers_agree_sound :
    (logLines (withRom soundThenReturn {}) .log [.step, .step, .tick]).filter
      (· ∉ logLines (withRom soundThenReturn {}) .none [.step, .step, .tick]) =
        ["INFO sound on", "INFO sound off"] ∧
    ((withRom soundThenReturn {} (.connected false)).run
      [.step, .step, .hangUp, .tick]).2.host.events.toList = [.sound true] ∧
    ((withRom soundThenReturn {} (.connected false)).runBeside (Host.leaveAt 1)
      [.step, .step, .tick]).2.host.events.toList = [.sound true] := by
  have made : withRom soundThenReturn {} = new {} ∨
      ∃ rom, withRom soundThenReturn {} = withRom rom {} := .inr ⟨soundThenReturn, rfl⟩
  obtain ⟨-, told, -, broken, left, -⟩ := observers_agree made [.step, .step, .tick] (by simp) false
  obtain ⟨-, -, events, -⟩ := broken [.step, .step] [.tick] rfl
  obtain ⟨-, -, first⟩ := left 1
  have on : received (withRom soundThenReturn {}) false [.step, .step] = [.sound true] := by
    apply received_sound (s := sounding)
    rw [run_step step_to_readyToSound, run_step step_to_sounding, run_nil]
  have onAndOff : received (withRom soundThenReturn {}) false [.step, .step, .tick] =
      [.sound true, .sound false] := by
    apply received_sound (s := sounding.tick)
    rw [run_step step_to_readyToSound, run_step step_to_sounding]
    rfl
  rw [onAndOff] at told first
  simp only [on, List.cons_append, List.nil_append] at events
  exact ⟨told, events, first⟩

end Session

end Chip8
