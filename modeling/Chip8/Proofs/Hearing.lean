import Chip8.Session.Basic

namespace Chip8

/-- The event that a record was written for, where the host has events written to the log. -/
def Record.event? : Record → Option Event
  | .event e => some e
  | _ => none

namespace Host

/-- Whether an event that is sent now comes through. -/
def listens (h : Host) : Bool :=
  match h.observer with
  | .none => false
  | .channel connected => connected
  | .log => h.logging

/-- The events that came through, the first one first. -/
def heard (h : Host) : List Event :=
  match h.observer with
  | .none => []
  | .channel _ => h.events.toList
  | .log => h.records.toList.filterMap Record.event?

variable {h : Host}

@[simp] theorem record_observer (h : Host) (r : Record) : (h.record r).observer = h.observer := by
  unfold record
  split <;> rfl

@[simp] theorem record_listens (h : Host) (r : Record) : (h.record r).listens = h.listens := by
  unfold record
  split <;> rfl

theorem record_heard {r : Record} (plain : r.event? = none) : (h.record r).heard = h.heard := by
  unfold record
  split
  · simp only [heard, Array.toList_push, List.filterMap_append, List.filterMap_cons, plain,
      List.filterMap_nil, List.append_nil]
  · rfl

@[simp] theorem send_observer (h : Host) (e : Event) : (h.send e).observer = h.observer := by
  cases observer : h.observer with
  | none => simp [send, observer]
  | channel connected => cases connected <;> simp [send, observer]
  | log => simp [send, observer]

@[simp] theorem send_listens (h : Host) (e : Event) : (h.send e).listens = h.listens := by
  cases observer : h.observer with
  | none => simp [send, observer]
  | channel connected => cases connected <;> simp [send, listens, observer]
  | log => simp [send, observer]

theorem send_heard (h : Host) (e : Event) :
    (h.send e).heard = h.heard ++ if h.listens then [e] else [] := by
  cases observer : h.observer with
  | none => simp [send, heard, listens, observer]
  | channel connected => cases connected <;> simp [send, heard, listens, observer]
  | log => cases logging : h.logging <;>
      simp [send, record, heard, listens, observer, logging, Record.event?]

@[simp] theorem recordAll_observer (h : Host) (rs : List Record) :
    (h.recordAll rs).observer = h.observer := by
  induction rs generalizing h with
  | nil => rfl
  | cons r rs ih => exact (ih (h.record r)).trans (record_observer h r)

@[simp] theorem recordAll_listens (h : Host) (rs : List Record) :
    (h.recordAll rs).listens = h.listens := by
  induction rs generalizing h with
  | nil => rfl
  | cons r rs ih => exact (ih (h.record r)).trans (record_listens h r)

theorem recordAll_heard {rs : List Record} (plain : ∀ r ∈ rs, r.event? = none) :
    (h.recordAll rs).heard = h.heard := by
  induction rs generalizing h with
  | nil => rfl
  | cons r rs ih =>
    have later : ∀ r ∈ rs, r.event? = none := fun r member => plain r (List.mem_cons_of_mem _ member)
    exact (ih later).trans (record_heard (plain r List.mem_cons_self))

/- Without a log, records are not kept at all. -/
theorem recordAll_of_silent {rs : List Record} (silent : h.logging = false) :
    h.recordAll rs = h := by
  induction rs with
  | nil => rfl
  | cons r rs ih =>
    have dropped : h.record r = h := by simp [record, silent]
    simp only [recordAll, List.foldl_cons, dropped]
    exact ih

@[simp] theorem sendAll_observer (h : Host) (es : List Event) :
    (h.sendAll es).observer = h.observer := by
  induction es generalizing h with
  | nil => rfl
  | cons e es ih => exact (ih (h.send e)).trans (send_observer h e)

@[simp] theorem sendAll_listens (h : Host) (es : List Event) :
    (h.sendAll es).listens = h.listens := by
  induction es generalizing h with
  | nil => rfl
  | cons e es ih => exact (ih (h.send e)).trans (send_listens h e)

theorem sendAll_heard (h : Host) (es : List Event) :
    (h.sendAll es).heard = h.heard ++ if h.listens then es else [] := by
  induction es generalizing h with
  | nil => simp [sendAll]
  | cons e es ih =>
    have sent : h.sendAll (e :: es) = (h.send e).sendAll es := rfl
    rw [sent, ih, send_heard, send_listens]
    cases h.listens <;> simp

theorem hangUp_heard (h : Host) : h.hangUp.heard = h.heard := by
  cases observer : h.observer <;> simp [hangUp, heard, observer]

end Host

namespace Machine

theorem cycleRecords_plain (m : Machine) : ∀ r ∈ m.cycleRecords, r.event? = none := by
  intro r member
  simp only [cycleRecords] at member
  split at member
  · contradiction
  · split at member
    · contradiction
    · simp only [List.mem_cons, List.not_mem_nil, or_false] at member
      rcases member with rfl | rfl <;> rfl
    · cases List.mem_singleton.mp member
      rfl

theorem keyRecords_plain (m : Machine) (key : UInt8) (pressed : Bool) :
    ∀ r ∈ m.keyRecords key pressed, r.event? = none := by
  intro r member
  simp only [keyRecords] at member
  split at member
  · split at member
    · split at member
      · cases List.mem_singleton.mp member
        rfl
      · contradiction
    · contradiction
  · cases List.mem_singleton.mp member
    rfl

end Machine

end Chip8
