import Chip8.Proofs.Commands

namespace Chip8

namespace Host

/-- The host with what came through to another one put in front. -/
def behind (h past : Host) : Host :=
  { h with events := past.events ++ h.events, records := past.records ++ h.records }

variable (h past : Host)

theorem emptied_behind : h.emptied.behind h = h := by
  simp [behind, emptied]

theorem record_behind (r : Record) : (h.behind past).record r = (h.record r).behind past := by
  cases logging : h.logging <;> simp [record, behind, logging]

theorem recordAll_behind (rs : List Record) :
    (h.behind past).recordAll rs = (h.recordAll rs).behind past := by
  induction rs generalizing h with
  | nil => rfl
  | cons r rs ih =>
    change ((h.behind past).record r).recordAll rs = _
    rw [record_behind, ih]
    rfl

theorem send_behind (e : Event) : (h.behind past).send e = (h.send e).behind past := by
  cases observer : h.observer with
  | none => simp [send, behind, observer]
  | channel connected => cases connected <;> simp [send, behind, observer]
  | log =>
    have before := h.record_behind past (.event e)
    simpa [send, behind, observer] using before

theorem sendAll_behind (es : List Event) :
    (h.behind past).sendAll es = (h.sendAll es).behind past := by
  induction es generalizing h with
  | nil => rfl
  | cons e es ih =>
    change ((h.behind past).send e).sendAll es = _
    rw [send_behind, ih]
    rfl

theorem hangUp_behind : (h.behind past).hangUp = h.hangUp.behind past := by
  cases observer : h.observer <;> simp [hangUp, behind, observer]

variable {h}

@[simp] theorem record_emptied (r : Record) : (h.record r).emptied = h.emptied := by
  unfold record
  split <;> rfl

@[simp] theorem send_emptied (e : Event) : (h.send e).emptied = h.emptied := by
  unfold send
  split
  · rfl
  · split <;> rfl
  · exact record_emptied _

@[simp] theorem sendAll_emptied (es : List Event) : (h.sendAll es).emptied = h.emptied := by
  induction es generalizing h with
  | nil => rfl
  | cons e es ih => exact (ih (h := h.send e)).trans (send_emptied e)

end Host

namespace Session

def behind (s : Session) (past : Host) : Session :=
  { s with host := s.host.behind past }

variable (s : Session) (past : Host)

theorem step_behind : (s.behind past).step = (s.step.1, s.step.2.behind past) := by
  rcases s.step_cases with ⟨f, latched, stepped⟩ | ⟨clear, x, waits, stepped⟩ |
    ⟨clear, -, f, cycled, stepped⟩ | ⟨clear, i, next, cycled, stepped⟩
  · rw [stepped]
    exact step_of_latched (s := s.behind past) latched
  · rw [stepped]
    exact step_of_waiting (s := s.behind past) clear waits
  · rw [stepped, step_of_fault (s := s.behind past) clear cycled]
    simp only [behind, Host.recordAll_behind, Host.record_behind, Host.send_behind]
  · rw [stepped, step_of_executed (s := s.behind past) clear cycled]
    simp only [behind, Host.recordAll_behind, Host.sendAll_behind]

theorem start_behind : (s.behind past).start = s.start.behind past := by
  cases fault : s.fault <;> simp [start, behind, fault, Host.record_behind]

theorem tick_behind : (s.behind past).tick = s.tick.behind past := by
  simp only [tick, behind, Host.sendAll_behind]

theorem setKey_behind (key : UInt8) (pressed : Bool) :
    (s.behind past).setKey key pressed = (s.setKey key pressed).behind past := by
  simp only [setKey, behind, Host.recordAll_behind]

theorem load_behind (rom : Rom) : (s.behind past).load rom = (s.load rom).behind past := by
  simp only [load, behind, Host.record_behind, Host.sendAll_behind]

theorem burst_behind (executed n : Nat) :
    (s.behind past).burst executed n =
      ((s.burst executed n).1, (s.burst executed n).2.behind past) :=
  burst_commutes (fun s => s.step_behind past) s executed n

theorem frame_behind : (s.behind past).frame = (s.frame.1, s.frame.2.behind past) := by
  have running : (s.behind past).running = s.running := rfl
  have rate : (s.behind past).rate = s.rate := rfl
  simp only [frame, running, rate, burst_behind]
  split
  · rcases s.burst 0 s.rate with ⟨answer, next⟩
    cases answer with
    | ok executed => simp only [tick_behind]
    | error f => rfl
  · rfl

theorem obey_behind (command : Command) :
    (s.behind past).obey command = ((s.obey command).1, (s.obey command).2.behind past) := by
  cases command with
  | start => exact congrArg _ (s.start_behind past)
  | stop => rfl
  | step => rw [obey_step, step_behind]; rfl
  | frame =>
    simp only [obey, frame_behind]
    rcases s.frame with ⟨answer, next⟩
    cases answer <;> rfl
  | tick => exact congrArg _ (s.tick_behind past)
  | key key pressed => exact congrArg _ (s.setKey_behind past key pressed)
  | reset bytes =>
    by_cases fits : bytes.size ≤ Layout.programSpace
    · rw [obey_reset_of_fits fits, obey_reset_of_fits fits, load_behind]
    · rw [obey_reset_of_large fits, obey_reset_of_large fits]
  | load rom => exact congrArg _ (s.load_behind past rom)
  | hangUp => simp only [obey, hangUp, behind, Host.hangUp_behind]

theorem run_behind (commands : List Command) :
    (s.behind past).run commands = ((s.run commands).1, (s.run commands).2.behind past) := by
  induction commands generalizing s with
  | nil => rfl
  | cons command rest ih => rw [run_cons, obey_behind, ih, run_cons]

/- Two sessions that are alike but for what their hosts got are one session, each with its own
past in front. -/
theorem run_of_alike {s t : Session} (alike : t = { s with host := t.host })
    (hosts : t.host.emptied = s.host.emptied) (later : List Command) :
    (t.run later).1 = (s.run later).1 ∧
      ∃ last : Session, (t.run later).2 = last.behind t.host ∧
        (s.run later).2 = last.behind s.host := by
  let u : Session := { s with host := s.host.emptied }
  have ran : ∀ v : Session, u.behind v.host = v →
      v.run later = ((u.run later).1, (u.run later).2.behind v.host) := by
    intro v same
    exact (congrArg (·.run later) same.symm).trans (u.run_behind v.host later)
  have first : u.behind t.host = t := by
    rw [alike]
    simp only [u, behind, ← hosts, Host.emptied_behind]
  have second : u.behind s.host = s := by
    simp only [u, behind, Host.emptied_behind]
  rw [ran t first, ran s second]
  exact ⟨rfl, _, rfl, rfl⟩

end Session

end Chip8
