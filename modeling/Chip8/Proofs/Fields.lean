import Mathlib.Data.List.TakeWhile
import Chip8.Text.Fields

namespace Chip8.Fields

variable {separator : Char} {text before after front : List Char}

theorem cut?_eq_some_iff : cut? separator text = some (before, after) ↔
    text = before ++ separator :: after ∧ separator ∉ before := by
  constructor
  · intro cut
    unfold cut? at cut
    split at cut
    · contradiction
    · rename_i c rest dropped
      cases Option.some.inj cut
      have stopped : c = separator := by
        have first := List.head?_dropWhile_not (· ≠ separator) text
        rw [dropped] at first
        simpa using first
      refine ⟨?_, ?_⟩
      · rw [stopped] at dropped
        rw [← dropped, List.takeWhile_append_dropWhile]
      · intro member
        simpa using List.mem_takeWhile_imp member
  · rintro ⟨rfl, none⟩
    have front : ∀ c ∈ before, decide (c ≠ separator) = true :=
      fun c member => decide_eq_true fun same => none (same ▸ member)
    unfold cut?
    rw [List.dropWhile_append_of_pos front, List.takeWhile_append_of_pos front]
    simp

theorem cut?_eq_none_iff : cut? separator text = none ↔ separator ∉ text := by
  constructor
  · intro uncut member
    obtain ⟨before, after, rfl, none⟩ := List.eq_append_cons_of_mem member
    rw [cut?_eq_some_iff.mpr ⟨rfl, none⟩] at uncut
    contradiction
  · intro none
    rw [Option.eq_none_iff_forall_ne_some]
    rintro ⟨before, after⟩ cut
    obtain ⟨rfl, -⟩ := cut?_eq_some_iff.mp cut
    simp at none

/- Two texts that are cut at the same separator are the same in front of it and behind it. -/
theorem cut_inj {before' after' : List Char} (one : separator ∉ before) (other : separator ∉ before')
    (same : before ++ separator :: after = before' ++ separator :: after') :
    before = before' ∧ after = after' := by
  have cut := cut?_eq_some_iff.mpr ⟨same, other⟩
  rw [cut?_eq_some_iff.mpr ⟨rfl, one⟩] at cut
  exact Prod.mk.inj (Option.some.inj cut)

theorem split_append (none : separator ∉ front) (rest : List Char) :
    split separator (front ++ separator :: rest) = front :: split separator rest := by
  induction front with
  | nil => simp [split]
  | cons c front ih =>
    obtain ⟨here, later⟩ := List.ne_and_not_mem_of_not_mem_cons none
    simp [split, Ne.symm here, ih later]

theorem split_of_notMem (none : separator ∉ front) : split separator front = [front] := by
  induction front with
  | nil => rfl
  | cons c front ih =>
    obtain ⟨here, later⟩ := List.ne_and_not_mem_of_not_mem_cons none
    simp [split, Ne.symm here, ih later]

end Chip8.Fields
