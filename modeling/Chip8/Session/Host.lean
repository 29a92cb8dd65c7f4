import Chip8.Session.Record

namespace Chip8

inductive Observer where
  | none
  /-- A receiver at the other end of a channel, for as long as it is connected. -/
  | channel (connected : Bool)
  | log
deriving DecidableEq, Repr

structure Host where
  observer : Observer
  logging : Bool := false
  /-- The events that the receiver got, the first one first. -/
  events : Array Event := #[]
  records : Array Record := #[]
deriving DecidableEq, Repr

namespace Host

def record (h : Host) (r : Record) : Host :=
  if h.logging then { h with records := h.records.push r } else h

def recordAll (h : Host) (rs : List Record) : Host :=
  rs.foldl record h

def send (h : Host) (e : Event) : Host :=
  match h.observer with
  | .none => h
  | .channel connected => if connected then { h with events := h.events.push e } else h
  | .log => h.record (.event e)

def sendAll (h : Host) (es : List Event) : Host :=
  es.foldl send h

def hangUp (h : Host) : Host :=
  match h.observer with
  | .channel _ => { h with observer := .channel false }
  | _ => h

def emptied (h : Host) : Host :=
  { h with events := #[], records := #[] }

end Host

end Chip8
