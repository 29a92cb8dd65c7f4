import Chip8.Proofs.Overlays

namespace Chip8

/- Rows of equal length, one after the other. -/
theorem getElem?_flatten_of_width {α : Type} {rows : List (List α)} {width : Nat}
    (even : ∀ row ∈ rows, row.length = width) (i : Nat) {j : Nat} (inside : j < width) :
    rows.flatten[width * i + j]? = rows[i]?.bind (·[j]?) := by
  induction rows generalizing i with
  | nil => rfl
  | cons row rows ih =>
    obtain ⟨here, later⟩ := List.forall_mem_cons.mp even
    rw [List.flatten_cons]
    cases i with
    | zero =>
      rw [Nat.mul_zero, Nat.zero_add, List.getElem?_append_left (here ▸ inside)]
      rfl
    | succ i =>
      have ahead : width * (i + 1) + j = row.length + (width * i + j) := by
        rw [here, Nat.mul_succ]
        omega
      rw [ahead, List.getElem?_append_right (Nat.le_add_right _ _), Nat.add_sub_cancel_left,
        ih later, List.getElem?_cons_succ]

namespace Screen

variable (s : Screen) {t : Screen}

def mark (lit : Bool) : Char :=
  if lit then '#' else '.'

theorem mark_inj {a b : Bool} (same : mark a = mark b) : a = b := by
  revert a b
  decide

theorem count_marks {α : Type} (lit : α → Bool) (xs : List α) :
    (xs.map fun x => mark (lit x)).count '#' =
      (xs.map fun x => if lit x = true then 1 else 0).sum := by
  induction xs with
  | nil => rfl
  | cons x xs ih =>
    rw [List.map_cons, List.count_cons, ih, List.map_cons, List.sum_cons, Nat.add_comm]
    cases lit x <;> rfl

theorem line_eq (y : Fin 32) :
    s.line y = ((List.finRange 64).map fun x => mark (s.pixel x y)) ++ ['\n'] := rfl

theorem length_line (y : Fin 32) : (s.line y).length = 65 := by
  simp [line_eq]

theorem text_toList : s.text.toList = ((List.finRange 32).map s.line).flatten := by
  rw [text, String.toList_ofList, List.flatMap_def]

theorem length_text : s.text.toList.length = 65 * 32 := by
  simp [text_toList, Function.comp_def, length_line]

theorem getElem?_text (y : Fin 32) {j : Nat} (inside : j < 65) :
    s.text.toList[65 * y.val + j]? = (s.line y)[j]? := by
  have even : ∀ row ∈ (List.finRange 32).map s.line, row.length = 65 :=
    List.forall_mem_map.mpr fun y _ => s.length_line y
  rw [text_toList, getElem?_flatten_of_width even y.val inside]
  simp

theorem text_pixel (x : Fin 64) (y : Fin 32) :
    s.text.toList[65 * y.val + x.val]? = some (mark (s.pixel x y)) := by
  rw [getElem?_text s y (by omega), line_eq, List.getElem?_append_left (by simp)]
  simp

theorem text_lineEnd (y : Fin 32) : s.text.toList[65 * y.val + 64]? = some '\n' := by
  rw [getElem?_text s y (by decide), line_eq, List.getElem?_append_right (by simp)]
  simp

theorem text_inj (same : s.text = t.text) : s = t := by
  apply ext_pixel
  intro x y
  apply mark_inj
  apply Option.some.inj
  rw [← text_pixel, ← text_pixel, same]

theorem flatMap_row : (List.finRange 32).flatMap s.row = s.bytes.toList := by
  have listed : s.bytes.toList = List.ofFn fun i : Fin (8 * 32) => s.bytes[i.val] := by
    rw [← Vector.toList_ofFn, Vector.ofFn_getElem]
  rw [listed, List.ofFn_mul', List.flatMap_def, ← List.ofFn_eq_map]
  rfl

theorem pixel_of_row (x : Fin 64) (y : Fin 32) : ∃ bits, (s.row y)[x.val / 8]? = some bits ∧
    s.pixel x y = bits.toNat.testBit (7 - x.val % 8) := by
  have column : x.val / 8 < 8 := by omega
  refine ⟨s.byte ⟨x.val / 8, column⟩ y, ?_, rfl⟩
  simp [row, column]

theorem count_line (y : Fin 32) :
    (s.line y).count '#' = ∑ x, if s.pixel x y = true then 1 else 0 := by
  have lineEnd : ['\n'].count '#' = 0 := by decide
  rw [line_eq, List.count_append, count_marks, lineEnd, Nat.add_zero, Fin.sum_univ_def]

theorem count_text : s.text.toList.count '#' = s.litCount := by
  rw [text_toList, List.count_flatten, List.map_map, ← Fin.sum_univ_def, ← card_lit, lit,
    Finset.card_filter, Fintype.sum_prod_type_right]
  apply Finset.sum_congr rfl
  intro y _
  exact s.count_line y

theorem isBlank_iff : s.isBlank = true ↔ s = blank := by
  rw [isBlank, Vector.all_eq_true]
  constructor
  · intro dark
    apply congrArg Screen.mk
    ext i inside
    rw [Vector.getElem_replicate]
    exact congrArg _ (beq_iff_eq.mp (dark i inside))
  · rintro rfl i inside
    simp [blank]

theorem isBlank_iff_litCount : s.isBlank = true ↔ s.litCount = 0 := by
  have dark : blank.lit = ∅ := by
    ext p
    simp [mem_lit, pixel_blank]
  rw [isBlank_iff, ← card_lit, Finset.card_eq_zero, ← dark]
  exact ⟨fun same => congrArg lit same, ext_lit⟩

/-- The text of a screen is 32 lines of 64 characters and a line end, with the character of a pixel
in its column of its line. The pixel is its bit of its byte of its row, and the rows are the bytes
of the screen. The text has as many lit characters as the screen has lit pixels, a blank screen is
one without any, and no two screens have the same text. -/
theorem views_agree :
    s.text.toList.length = 65 * 32 ∧
    (∀ y : Fin 32, s.text.toList[65 * y.val + 64]? = some '\n') ∧
    (∀ (x : Fin 64) (y : Fin 32),
      s.text.toList[65 * y.val + x.val]? = some (if s.pixel x y then '#' else '.')) ∧
    (∀ (x : Fin 64) (y : Fin 32), s.pixelAt x y = .ok (s.pixel x y) ∧ s.rowAt y = .ok (s.row y) ∧
      ∃ bits, (s.row y)[x.val / 8]? = some bits ∧
        s.pixel x y = bits.toNat.testBit (7 - x.val % 8)) ∧
    (List.finRange 32).flatMap s.row = s.bytes.toList ∧
    s.text.toList.count '#' = s.litCount ∧
    (s.isBlank = true ↔ s.litCount = 0) ∧
    ∀ t : Screen, s.text = t.text → s = t := by
  refine ⟨s.length_text, s.text_lineEnd, s.text_pixel, fun x y => ⟨?_, ?_, s.pixel_of_row x y⟩,
    s.flatMap_row, s.count_text, s.isBlank_iff_litCount, fun t => s.text_inj⟩
  · rw [pixelAt, dif_pos ⟨x.isLt, y.isLt⟩]
  · rw [rowAt, dif_pos y.isLt]

end Screen

end Chip8
