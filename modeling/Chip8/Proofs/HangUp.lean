import Chip8.Proofs.Outputs

namespace Chip8

namespace Host

/-- What a receiver does that hangs up as soon as it has got `k` events. -/
def leaveAt (k : Nat) (h : Host) : Host :=
  if k ≤ h.events.size then h.hangUp else h

/-- What a host is like if its receiver hung up when it had got `k` events. -/
def cutAt (k : Nat) (h : Host) : Host :=
  if k ≤ h.events.size then { h with observer := .channel false, events := h.events.take k } else h

variable {h : Host} {k : Nat} {outputs : List Output}

theorem hangUp_of_channel {connected : Bool} (channel : h.observer = .channel connected) :
    h.hangUp = { h with observer := .channel false } := by
  simp only [hangUp, channel]

theorem cutAt_of_le (enough : k ≤ h.events.size) :
    h.cutAt k = { h with observer := .channel false, events := h.events.take k } :=
  if_pos enough

theorem cutAt_of_lt (few : h.events.size < k) : h.cutAt k = h :=
  if_neg (Nat.not_le_of_lt few)

theorem cutAt_events (h : Host) (k : Nat) : (h.cutAt k).events.toList = h.events.toList.take k := by
  unfold cutAt
  split
  · simp
  · rename_i few
    exact (List.take_of_length_le (Nat.le_of_not_le few)).symm

theorem leaveAt_events (h : Host) (k : Nat) : (h.leaveAt k).events = h.events := by
  unfold leaveAt hangUp
  repeat' split
  all_goals rfl

/- A receiver that has `k` events and never had more has lost none. -/
theorem leaveAt_of_le (connected : h.observer = .channel true) (few : h.events.size ≤ k) :
    h.leaveAt k = h.cutAt k := by
  unfold leaveAt cutAt
  rw [hangUp_of_channel connected, Array.take_eq_extract, Array.extract_eq_self_of_le few]

theorem leaveAt_cutAt (enough : k ≤ h.events.size) : (h.cutAt k).leaveAt k = h.cutAt k := by
  rw [cutAt_of_le enough, leaveAt, hangUp_of_channel rfl]
  split <;> rfl

theorem take_events_size (connected : h.observer = .channel true) (o : Output) :
    (h.take o).events.size = h.events.size + o.event?.toList.length := by
  cases o with
  | record r => cases logging : h.logging <;> simp [take, record, logging, Output.event?]
  | event e => simp [take, send, connected, Output.event?]

theorem le_take (connected : h.observer = .channel true) (enough : k ≤ h.events.size)
    (o : Output) : k ≤ (h.take o).events.size := by
  rw [take_events_size connected]
  omega

theorem take_cutAt (connected : h.observer = .channel true) (enough : k ≤ h.events.size)
    (o : Output) : (h.cutAt k).take o = (h.take o).cutAt k := by
  rw [cutAt_of_le enough, cutAt_of_le (le_take connected enough o)]
  cases o with
  | record r => cases logging : h.logging <;> simp [take, record, logging]
  | event e => simp [take, send, connected, Array.extract_push_of_le enough]

theorem takeAll_events_size (connected : h.observer = .channel true) (outputs : List Output) :
    (h.takeAll outputs).events.size =
      h.events.size + (outputs.filterMap Output.event?).length := by
  induction outputs generalizing h with
  | nil => rfl
  | cons o outputs ih =>
    rw [takeAll_cons, ih ((take_observer h o).trans connected), take_events_size connected]
    cases event : o.event? <;> simp [event, Nat.add_comm, Nat.add_left_comm]

theorem takeAll_cutAt (connected : h.observer = .channel true) (enough : k ≤ h.events.size) :
    (h.cutAt k).takeAll outputs = (h.takeAll outputs).cutAt k := by
  induction outputs generalizing h with
  | nil => rfl
  | cons o outputs ih =>
    rw [takeAll_cons, takeAll_cons, take_cutAt connected enough,
      ih ((take_observer h o).trans connected) (le_take connected enough o)]

/- One event at most is sent between two moments at which the receiver can hang up, so it never gets
one too many. -/
theorem leaveAt_takeAll (connected : h.observer = .channel true) (few : Output.Few outputs) :
    ((h.cutAt k).takeAll outputs).leaveAt k = (h.takeAll outputs).cutAt k := by
  have size := takeAll_events_size connected outputs
  have count : (outputs.filterMap Output.event?).length ≤ 1 := few
  rcases Nat.lt_or_ge h.events.size k with before | after
  · rw [cutAt_of_lt before]
    exact leaveAt_of_le ((takeAll_observer h outputs).trans connected) (by omega)
  · rw [takeAll_cutAt connected after]
    exact leaveAt_cutAt (by omega)

end Host

namespace Session

variable {s whole broken : Session} {outputs : List Output} {k : Nat} {α : Type}

def burstBeside (receiver : Host → Host) (s : Session) (executed : Nat) :
    Nat → Except Fault Nat × Session
  | 0 => (.ok executed, s)
  | n + 1 =>
    match (s.hostedBy (receiver s.host)).step with
    | (.executed _, next) => next.burstBeside receiver (executed + 1) n
    | (.waiting, next) => (.ok executed, next)
    | (.fault f, next) => (.error f, next)

def frameBeside (receiver : Host → Host) (s : Session) : Except Fault Nat × Session :=
  if s.running then
    match s.burstBeside receiver 0 s.rate with
    | (.ok executed, next) => (.ok executed, (next.hostedBy (receiver next.host)).tick)
    | (.error f, next) => (.error f, next)
  else (.ok 0, s)

def obeyBeside (receiver : Host → Host) (s : Session) : Command → Answer × Session
  | .frame =>
    match s.frameBeside receiver with
    | (.ok executed, next) => (.ran executed, next)
    | (.error f, next) => (.faulted f, next)
  | command => (s.hostedBy (receiver s.host)).obey command

/-- `run`, beside a receiver that may do something to the host whenever the session is about to do
something. -/
def runBeside (receiver : Host → Host) (s : Session) : List Command → List Answer × Session
  | [] => ([], s)
  | command :: rest =>
    let (answer, next) := s.obeyBeside receiver command
    let (answers, last) := next.runBeside receiver rest
    (answer :: answers, last)

theorem burstBeside_id (s : Session) (executed n : Nat) :
    s.burstBeside id executed n = s.burst executed n := by
  induction n generalizing s executed with
  | zero => rfl
  | succ n ih =>
    have idle : s.hostedBy (id s.host) = s := rfl
    simp only [burstBeside, burst, idle]
    rcases s.step with ⟨outcome, next⟩
    cases outcome with
    | executed i => exact ih next _
    | waiting => rfl
    | fault f => rfl

theorem runBeside_id (s : Session) (commands : List Command) :
    s.runBeside id commands = s.run commands := by
  have obeyed : ∀ (s : Session) command, s.obeyBeside id command = s.obey command := by
    intro s command
    cases command with
    | frame => simp only [obeyBeside, obey, frameBeside, frame, burstBeside_id]; rfl
    | _ => rfl
  induction commands generalizing s with
  | nil => rfl
  | cons command rest ih => simp only [runBeside, obeyed, ih, run_cons]

/-- The one session has a receiver from first to last. The other is the same but for its receiver,
who hangs up at `k` events. -/
structure Left (k : Nat) (whole broken : Session) : Prop where
  connected : whole.host.observer = .channel true
  same : broken.hostedBy (broken.host.leaveAt k) = whole.hostedBy (whole.host.cutAt k)

theorem Left.butHost (left : Left k whole broken) : broken = whole.hostedBy broken.host := by
  have same := congrArg (·.hostedBy broken.host) left.same
  exact same

theorem Left.events (left : Left k whole broken) :
    broken.host.events.toList = whole.host.events.toList.take k := by
  have same : broken.host.leaveAt k = whole.host.cutAt k := congrArg host left.same
  rw [← Host.leaveAt_events broken.host k, same, Host.cutAt_events]

theorem Left.act {act : Session → α × Session} (left : Left k whole broken)
    (handed : HandsOut act whole outputs) (few : Output.Few outputs) :
    (act (broken.hostedBy (broken.host.leaveAt k))).1 = (act whole).1 ∧
      Left k (act whole).2 (act (broken.hostedBy (broken.host.leaveAt k))).2 := by
  have own : (act whole).2.host = whole.host.takeAll outputs :=
    congrArg (·.2.host) (handed.same whole.host)
  rw [left.same, handed.same]
  refine ⟨rfl, ?_, ?_⟩
  · rw [own]
    exact (Host.takeAll_observer _ outputs).trans left.connected
  · rw [own]
    exact congrArg _ (Host.leaveAt_takeAll left.connected few)

theorem Left.burst (left : Left k whole broken) (executed n : Nat) :
    (broken.burstBeside (Host.leaveAt k) executed n).1 = (whole.burst executed n).1 ∧
      Left k (whole.burst executed n).2 (broken.burstBeside (Host.leaveAt k) executed n).2 := by
  induction n generalizing whole broken executed with
  | zero => exact ⟨rfl, left⟩
  | succ n ih =>
    obtain ⟨outputs, handed, few⟩ := whole.step_handsOut
    have acted := left.act handed few
    cases stepped : whole.step with
    | mk outcome after =>
      cases stepped' : (broken.hostedBy (broken.host.leaveAt k)).step with
      | mk outcome' after' =>
        rw [stepped, stepped'] at acted
        obtain ⟨rfl, next⟩ := acted
        simp only [burstBeside, Session.burst, stepped, stepped']
        cases outcome' with
        | executed i => exact ih next _
        | waiting => exact ⟨rfl, next⟩
        | fault f => exact ⟨rfl, next⟩

theorem Left.frame (left : Left k whole broken) :
    (broken.frameBeside (Host.leaveAt k)).1 = whole.frame.1 ∧
      Left k whole.frame.2 (broken.frameBeside (Host.leaveAt k)).2 := by
  have runs : broken.running = whole.running := by rw [left.butHost]; rfl
  have rate : broken.rate = whole.rate := by rw [left.butHost]; rfl
  have whole' := left.burst 0 whole.rate
  cases burst : whole.burst 0 whole.rate with
  | mk answer after =>
    cases burst' : broken.burstBeside (Host.leaveAt k) 0 whole.rate with
    | mk answer' after' =>
      rw [burst, burst'] at whole'
      obtain ⟨rfl, next⟩ := whole'
      simp only [frameBeside, Session.frame, runs, rate, burst, burst']
      split
      · cases answer' with
        | ok executed =>
          obtain ⟨outputs, handed, few⟩ := after.tick_handsOut
          exact ⟨rfl, (next.act handed few).2⟩
        | error f => exact ⟨rfl, next⟩
      · exact ⟨rfl, left⟩

theorem Left.obey (left : Left k whole broken) {command : Command} (stays : command ≠ .hangUp) :
    (broken.obeyBeside (Host.leaveAt k) command).1 = (whole.obey command).1 ∧
      Left k (whole.obey command).2 (broken.obeyBeside (Host.leaveAt k) command).2 := by
  by_cases frame : command = .frame
  · rw [frame]
    have framed := left.frame
    cases run : whole.frame with
    | mk answer after =>
      cases run' : broken.frameBeside (Host.leaveAt k) with
      | mk answer' after' =>
        rw [run, run'] at framed
        obtain ⟨rfl, next⟩ := framed
        simp only [obeyBeside, Session.obey, run, run']
        cases answer' with
        | ok executed => exact ⟨rfl, next⟩
        | error f => exact ⟨rfl, next⟩
  · obtain ⟨outputs, handed, few⟩ := whole.obey_handsOut stays
    have single : broken.obeyBeside (Host.leaveAt k) command =
        (broken.hostedBy (broken.host.leaveAt k)).obey command := by
      cases command with
      | frame => contradiction
      | _ => rfl
    rw [single]
    exact left.act handed (few frame)

theorem Left.run (left : Left k whole broken) {commands : List Command}
    (stays : .hangUp ∉ commands) :
    (broken.runBeside (Host.leaveAt k) commands).1 = (whole.run commands).1 ∧
      Left k (whole.run commands).2 (broken.runBeside (Host.leaveAt k) commands).2 := by
  induction commands generalizing whole broken with
  | nil => exact ⟨rfl, left⟩
  | cons command rest ih =>
    obtain ⟨here, later⟩ := List.ne_and_not_mem_of_not_mem_cons stays
    obtain ⟨answer, next⟩ := left.obey (Ne.symm here)
    obtain ⟨answers, last⟩ := ih next later
    simp only [runBeside, run_cons, answer, answers]
    exact ⟨trivial, last⟩

/-- A receiver that hangs up when it has got `k` events has got the first `k`, wherever in the run
the last of them was sent, and nothing else is different. -/
theorem runBeside_leaveAt (connected : s.host.observer = .channel true)
    (fresh : s.host.events = #[]) {commands : List Command} (stays : .hangUp ∉ commands) (k : Nat) :
    (s.runBeside (Host.leaveAt k) commands).1 = (s.run commands).1 ∧
    (s.runBeside (Host.leaveAt k) commands).2 =
      (s.run commands).2.hostedBy (s.runBeside (Host.leaveAt k) commands).2.host ∧
    (s.runBeside (Host.leaveAt k) commands).2.host.events.toList =
      (s.run commands).2.host.events.toList.take k := by
  have start : Left k s s :=
    ⟨connected, congrArg s.hostedBy (Host.leaveAt_of_le connected (by simp [fresh]))⟩
  obtain ⟨answers, last⟩ := start.run stays
  exact ⟨answers, last.butHost, last.events⟩

end Session

end Chip8
