import Chip8.CallStack

namespace Chip8

namespace CallStack

theorem push?_eq_none_iff (s : CallStack) (a : UInt16) : s.push? a = none ↔ 16 ≤ s.depth := by
  unfold push?
  split <;> simp <;> omega

theorem pop?_eq_none_iff (s : CallStack) : s.pop? = none ↔ s.depth = 0 := by
  unfold pop?
  split <;> simp_all

theorem depth_of_push {s t : CallStack} {a : UInt16} (pushed : s.push? a = some t) :
    s.depth < 16 ∧ t.depth = s.depth + 1 := by
  unfold push? at pushed
  split at pushed
  · rename_i room
    cases Option.some.inj pushed
    exact ⟨room, rfl⟩
  · contradiction

theorem toList_of_push {s t : CallStack} {a : UInt16} (pushed : s.push? a = some t) :
    t.toList = s.toList ++ [a] := by
  unfold push? at pushed
  split at pushed
  · rename_i room
    cases Option.some.inj pushed
    have length : s.slots.toList.length = 16 := s.slots.length_toList
    simp only [toList, Vector.toList_set]
    rw [List.take_succ_eq_append_getElem (by simp; omega), List.take_set_of_le (Nat.le_refl _),
      List.getElem_set_self]
  · contradiction

theorem depth_of_pop {s t : CallStack} {a : UInt16} (popped : s.pop? = some (a, t)) :
    s.depth = t.depth + 1 := by
  unfold pop? at popped
  split at popped
  · contradiction
  · rename_i d depth
    cases Option.some.inj popped
    exact depth

theorem toList_of_pop {s t : CallStack} {a : UInt16} (bounded : s.depth ≤ 16)
    (popped : s.pop? = some (a, t)) : s.toList = t.toList ++ [a] := by
  unfold pop? at popped
  split at popped
  · contradiction
  · rename_i d depth
    cases Option.some.inj popped
    have room : d < s.slots.toList.length := by
      rw [s.slots.length_toList]
      omega
    simp only [toList, depth]
    rw [List.take_succ_eq_append_getElem room]
    simp [Vector.getElem?_eq_getElem (show d < 16 by omega)]

theorem slot_mem_toList (s : CallStack) {k : Nat} (slot : k < 16) (used : k < s.depth) :
    s.slots[k] ∈ s.toList := by
  have length : s.slots.toList.length = 16 := s.slots.length_toList
  refine List.mem_iff_getElem.mpr ⟨k, ?_, ?_⟩
  · simp only [toList, List.length_take]
    omega
  · simp only [toList, List.getElem_take, Vector.getElem_toList]

theorem length_toList {s : CallStack} (bounded : s.depth ≤ 16) : s.toList.length = s.depth := by
  simp only [toList, List.length_take, Vector.length_toList]
  omega

theorem slot_eq_of_prefix {s : CallStack} {addresses : List UInt16} {k : Nat} {a : UInt16}
    (inside : addresses <+: s.toList) (stored : addresses[k]? = some a) (slot : k < 16) :
    s.slots[k] = a := by
  obtain ⟨used, rfl⟩ := List.getElem?_eq_some_iff.mp stored
  rw [inside.getElem used]
  simp only [toList, List.getElem_take, Vector.getElem_toList]

end CallStack

/-- What is left by a failure is what there was before: it comes before the first write. -/
def FailsFirst (change : EStateM ε σ α) : Prop :=
  ∀ s e t, change.run s = .error e t → t = s

namespace CallStack

inductive Failure where
  | overflow
  | underflow
deriving DecidableEq, Repr

/-- Stores an address: finds the slot, writes to it, and counts it. -/
def push (a : UInt16) : EStateM Failure CallStack Unit := do
  let s ← get
  if room : s.depth < 16 then
    set { s with slots := s.slots.set s.depth a }
    modify fun s => { s with depth := s.depth + 1 }
  else throw .overflow

/-- Takes off the address stored last: counts it out and reads its slot. -/
def pop : EStateM Failure CallStack UInt16 := do
  match (← get).depth with
  | 0 => throw .underflow
  | d + 1 =>
    modify fun s => { s with depth := d }
    let s ← get
    return s.slots[s.depth]?.getD 0

theorem run_push (s : CallStack) (a : UInt16) : (push a).run s =
    match s.push? a with
    | some t => .ok () t
    | none => .error .overflow s := by
  unfold push push?
  by_cases room : s.depth < 16 <;> simp [room]

theorem run_pop (s : CallStack) : pop.run s =
    match s.pop? with
    | some (a, t) => .ok a t
    | none => .error .underflow s := by
  obtain ⟨slots, depth⟩ := s
  cases depth with
  | zero => rfl
  | succ d => rfl

theorem push_failsFirst (a : UInt16) : FailsFirst (push a) := by
  intro s e t failed
  rw [run_push] at failed
  split at failed
  · contradiction
  · cases failed
    rfl

theorem pop_failsFirst : FailsFirst pop := by
  intro s e t failed
  rw [run_pop] at failed
  split at failed
  · contradiction
  · cases failed
    rfl

end CallStack

end Chip8
