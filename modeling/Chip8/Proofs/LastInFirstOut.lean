import Chip8.Proofs.CallStack
import Chip8.Proofs.Requests

namespace Chip8.CallStack

inductive Request where
  | push (a : UInt16)
  | pop
deriving DecidableEq, Repr

inductive Reply where
  | stored
  | taken (a : UInt16)
  | failed (e : Failure)
deriving DecidableEq, Repr

def answer (s : CallStack) : Request → Reply × CallStack
  | .push a =>
    match (push a).run s with
    | .ok _ t => (.stored, t)
    | .error e t => (.failed e, t)
  | .pop =>
    match pop.run s with
    | .ok a t => (.taken a, t)
    | .error e t => (.failed e, t)

/-- What a list of addresses answers that has room for sixteen, the latest address at its end. -/
def listAnswer (stored : List UInt16) : Request → Reply × List UInt16
  | .push a =>
    if stored.length < 16 then (.stored, stored ++ [a]) else (.failed .overflow, stored)
  | .pop =>
    match stored.getLast? with
    | some a => (.taken a, stored.dropLast)
    | none => (.failed .underflow, stored)

/-- The list holds what the stack has stored, and its depth is within bounds. -/
structure Lists (s : CallStack) (stored : List UInt16) : Prop where
  bounded : s.depth ≤ 16
  toList : s.toList = stored

variable {s t : CallStack} {a : UInt16}

theorem answer_of_push (pushed : s.push? a = some t) : s.answer (.push a) = (.stored, t) := by
  simp only [answer, run_push, pushed]

theorem answer_of_full (full : s.push? a = none) :
    s.answer (.push a) = (.failed .overflow, s) := by
  simp only [answer, run_push, full]

theorem answer_of_pop (popped : s.pop? = some (a, t)) : s.answer .pop = (.taken a, t) := by
  simp only [answer, run_pop, popped]

theorem answer_of_empty (bottom : s.pop? = none) : s.answer .pop = (.failed .underflow, s) := by
  simp only [answer, run_pop, bottom]

theorem answer_of_lists (s : CallStack) (stored : List UInt16) (lists : s.Lists stored)
    (request : Request) : (s.answer request).1 = (listAnswer stored request).1 ∧
      (s.answer request).2.Lists (listAnswer stored request).2 := by
  obtain ⟨bounded, rfl⟩ := lists
  have length := length_toList bounded
  cases request with
  | push a =>
    cases pushed : s.push? a with
    | some t =>
      obtain ⟨room, depth⟩ := depth_of_push pushed
      have fits : s.toList.length < 16 := by omega
      rw [answer_of_push pushed, listAnswer, if_pos fits]
      exact ⟨rfl, by simp only; omega, toList_of_push pushed⟩
    | none =>
      have full := (push?_eq_none_iff s a).mp pushed
      have no_room : ¬ s.toList.length < 16 := by omega
      rw [answer_of_full pushed, listAnswer, if_neg no_room]
      exact ⟨rfl, bounded, rfl⟩
  | pop =>
    cases popped : s.pop? with
    | some taken =>
      obtain ⟨a, t⟩ := taken
      have depth := depth_of_pop popped
      have last : s.toList.getLast? = some a := by simp [toList_of_pop bounded popped]
      have others : s.toList.dropLast = t.toList := by simp [toList_of_pop bounded popped]
      rw [answer_of_pop popped, listAnswer, last]
      exact ⟨rfl, by simp only; omega, others.symm⟩
    | none =>
      have bottom := (pop?_eq_none_iff s).mp popped
      have nothing : s.toList = [] := List.eq_nil_of_length_eq_zero (length.trans bottom)
      rw [answer_of_empty popped, listAnswer, nothing]
      exact ⟨rfl, bounded, nothing⟩

theorem answer_of_failed {request : Request} {e : Failure}
    (failed : (s.answer request).1 = .failed e) : (s.answer request).2 = s := by
  cases request with
  | push a =>
    simp only [answer] at failed ⊢
    split at failed
    · contradiction
    · rename_i broken
      exact push_failsFirst a _ _ _ broken
  | pop =>
    simp only [answer] at failed ⊢
    split at failed
    · contradiction
    · rename_i broken
      exact pop_failsFirst _ _ _ broken

/-- The replies to any pushes and pops of a stack that was empty are those of a list with room for
sixteen addresses, which takes them whole and gives back the latest first. The depth is the number
of addresses in the list, and a request that fails leaves the depth and every slot as they were. -/
theorem answers_like_a_bounded_list (requests : List Request) :
    let s := (askAll answer empty requests).2
    let stored := (askAll listAnswer [] requests).2
    (askAll answer empty requests).1 = (askAll listAnswer [] requests).1 ∧
      s.toList = stored ∧ s.depth = stored.length ∧ stored.length ≤ 16 ∧
      ∀ request e, (s.answer request).1 = .failed e → (s.answer request).2 = s := by
  intro s stored
  have start : empty.Lists [] := ⟨Nat.zero_le 16, rfl⟩
  obtain ⟨replies, bounded, same⟩ := askAll_of_related answer_of_lists start requests
  have length : s.depth = stored.length := (length_toList bounded).symm.trans (congrArg _ same)
  exact ⟨replies, same, length, length ▸ bounded, fun request e failed => answer_of_failed failed⟩

end Chip8.CallStack
