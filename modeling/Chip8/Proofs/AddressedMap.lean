import Chip8.Proofs.Blocks
import Chip8.Proofs.Requests

namespace Chip8.Memory

inductive Request where
  | set (a : UInt16) (value : UInt8)
  | get (a : UInt16)
  | word (a : UInt16)
  | read (a : UInt16) (n : UInt8)
deriving DecidableEq, Repr

inductive Reply where
  | done
  | byte (value : UInt8)
  | word (value : UInt16)
  | row (values : List UInt8)
deriving DecidableEq, Repr

def answer (m : Memory) : Request → Reply × Memory
  | .set a value => (.done, m.set a value)
  | .get a => (.byte (m.get a), m)
  | .word a => (.word (m.word a), m)
  | .read a n => (.row (m.read a n.toNat), m)

/-- A byte for each remainder by 4096. -/
abbrev Contents := Fin 4096 → UInt8

/-- What a map answers. Offsets are added to the number of an address before the remainder is
taken. -/
def mapAnswer (f : Contents) : Request → Reply × Contents
  | .set a value => (.done, Function.update f (ahead a 0) value)
  | .get a => (.byte (f (ahead a 0)), f)
  | .word a => (.word (.ofNat (256 * (f (ahead a 0)).toNat + (f (ahead a 1)).toNat)), f)
  | .read a n => (.row ((List.range n.toNat).map fun k => f (ahead a k)), f)

/-- The byte that was set last at an address with the remainder `p`, if one was. -/
def lastSet (p : Fin 4096) : List Request → Option UInt8
  | [] => none
  | .set a value :: rest =>
    (lastSet p rest).or (if a.toNat % 4096 = p.val then some value else none)
  | _ :: rest => lastSet p rest

/-- The bytes at every place after some requests to a memory that was just loaded. -/
def contents (rom : Rom) (requests : List Request) : Contents :=
  fun p => (lastSet p requests).getD (initial rom p.val)

variable (m : Memory) (a : UInt16)

theorem get_eq_byteAt : m.get a = m.byteAt (ahead a 0) := by
  rw [ahead_zero]
  rfl

theorem word_eq_byteAt :
    (m.word a).toNat = 256 * (m.byteAt (ahead a 0)).toNat + (m.byteAt (ahead a 1)).toNat := by
  have next : m.get (a + 1) = m.byteAt (ahead a 1) := m.get_add a 1
  rw [toNat_word, get_eq_byteAt, next]

theorem read_eq_byteAt (n : Nat) :
    m.read a n = (List.range n).map fun k => m.byteAt (ahead a k) := by
  simp only [read, get_add]

theorem byteAt_set_eq_update (value : UInt8) :
    (m.set a value).byteAt = Function.update m.byteAt (ahead a 0) value := by
  funext p
  rw [byteAt_set, Function.update_apply]
  simp only [past_eq_iff (show 0 < 4096 by decide), eq_comm]

theorem answer_of_byteAt (m : Memory) (f : Contents) (same : m.byteAt = f) (request : Request) :
    (m.answer request).1 = (mapAnswer f request).1 ∧
      (m.answer request).2.byteAt = (mapAnswer f request).2 := by
  subst same
  cases request with
  | set a value => exact ⟨rfl, m.byteAt_set_eq_update a value⟩
  | get a => exact ⟨congrArg Reply.byte (m.get_eq_byteAt a), rfl⟩
  | word a =>
    refine ⟨?_, rfl⟩
    simp only [answer, mapAnswer, ← word_eq_byteAt, UInt16.ofNat_toNat]
  | read a n => exact ⟨congrArg Reply.row (m.read_eq_byteAt a n.toNat), rfl⟩

theorem ahead_zero_eq_iff {p : Fin 4096} : ahead a 0 = p ↔ a.toNat % 4096 = p.val :=
  Fin.ext_iff

theorem byteAt_of_answer (request : Request) (p : Fin 4096) :
    (m.answer request).2.byteAt p = (lastSet p [request]).getD (m.byteAt p) := by
  cases request with
  | set a value =>
    simp only [answer, byteAt_set, past_eq_iff (show 0 < 4096 by decide), ahead_zero_eq_iff,
      lastSet, Option.none_or]
    split <;> rfl
  | _ => rfl

theorem lastSet_cons (p : Fin 4096) (request : Request) (rest : List Request) :
    lastSet p (request :: rest) = (lastSet p rest).or (lastSet p [request]) := by
  cases request with
  | set a value => rfl
  | _ => exact Option.or_none.symm

/- Only requests that set a byte count, and of those that set one at a place the last. -/
theorem byteAt_of_askAll (requests : List Request) (p : Fin 4096) :
    (askAll answer m requests).2.byteAt p = (lastSet p requests).getD (m.byteAt p) := by
  induction requests generalizing m with
  | nil => rfl
  | cons request rest ih =>
    simp only [askAll, ih, byteAt_of_answer]
    rw [lastSet_cons p request rest]
    cases lastSet p rest <;> rfl

theorem byteAt_of_askAll_ofRom (rom : Rom) (requests : List Request) :
    (askAll answer (ofRom rom) requests).2.byteAt = contents rom requests := by
  funext p
  rw [byteAt_of_askAll, byteAt_ofRom, contents]

theorem get_set (value : UInt8) (b : UInt16) :
    (m.set a value).get b = if a.toNat % 4096 = b.toNat % 4096 then value else m.get b := by
  rw [get_eq_byteAt, get_eq_byteAt, byteAt_set_eq_update, Function.update_apply]
  simp only [eq_comm (a := ahead b 0), ahead_zero_eq_iff]
  rfl

/-- Memory is a map from remainders by 4096 to bytes. Each place holds the byte that was set last at
an address with its remainder, or the one it had at first, and setting a byte changes no other
place. Every reply is read off the map at the sum of address and offset, also where the sum passes
the last place of memory or the last address of sixteen bits. -/
theorem answers_like_a_map (rom : Rom) (requests : List Request) :
    let m := (askAll answer (ofRom rom) requests).2
    let byte := contents rom requests
    (askAll answer (ofRom rom) requests).1 =
        (askAll mapAnswer (fun p => initial rom p.val) requests).1 ∧
      (∀ a, m.get a = byte (ahead a 0)) ∧
      (∀ a, (m.word a).toNat = 256 * (byte (ahead a 0)).toNat + (byte (ahead a 1)).toNat) ∧
      (∀ a n, (m.read a n).length = n ∧
        ∀ k < n, (m.read a n)[k]? = some (byte (ahead a k))) ∧
      ∀ a value b, (m.set a value).get b =
        if a.toNat % 4096 = b.toNat % 4096 then value else m.get b := by
  intro m byte
  have bytes : m.byteAt = byte := byteAt_of_askAll_ofRom rom requests
  have loaded : (ofRom rom).byteAt = fun p => initial rom p.val := funext (byteAt_ofRom rom)
  refine ⟨(askAll_of_related answer_of_byteAt loaded requests).1, ?_, ?_, ?_,
    fun a value b => m.get_set a value b⟩
  · intro a
    rw [get_eq_byteAt, bytes]
  · intro a
    rw [word_eq_byteAt, bytes]
  · intro a n
    rw [read_eq_byteAt, bytes]
    refine ⟨by simp, ?_⟩
    intro k inside
    rw [List.getElem?_map, List.getElem?_range inside]
    rfl

end Chip8.Memory
