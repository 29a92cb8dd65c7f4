import Mathlib.Data.Nat.Bitwise
import Chip8.Screen.Drawing

/-!
# Drawing, pixel by pixel

A row that is drawn changes two bytes of the screen, by the bits that fall into each. Taken
together, these are the eight pixels from column `x` on, counted around the screen: each of them
that is set in the row is switched. A sprite of at most 32 rows meets no row of the screen twice, so
its collision is that some lit pixel is dark in the end.
-/

namespace Chip8.Screen

variable {a b : UInt8} {k : Nat}

theorem bit_xor (a b : UInt8) (k : Nat) : bit (a ^^^ b) k = (bit a k ^^ bit b k) := by
  rw [bit, UInt8.toNat_xor, Nat.testBit_xor]
  rfl

theorem bit_zero (k : Nat) : bit 0 k = false :=
  Nat.zero_testBit _

theorem testBit_of_byte (bits : UInt8) {i : Nat} (large : 8 ≤ i) : bits.toNat.testBit i = false :=
  Nat.testBit_lt_two_pow
    (Nat.lt_of_lt_of_le (UInt8.toNat_lt bits) (Nat.pow_le_pow_right (by decide) large))

theorem and_ne_zero_iff : (a &&& b != 0) = true ↔ ∃ k < 8, bit a k = true ∧ bit b k = true := by
  have both : ∀ i, (a &&& b).toNat.testBit i = (a.toNat.testBit i && b.toNat.testBit i) := by
    intro i
    rw [UInt8.toNat_and, Nat.testBit_and]
  rw [bne_iff_ne]
  constructor
  · intro nonzero
    have number : (a &&& b).toNat ≠ 0 := fun zero => nonzero (UInt8.toNat_inj.mp zero)
    obtain ⟨i, set⟩ := Nat.exists_testBit_of_ne_zero number
    have small : i < 8 := by
      rcases Nat.lt_or_ge i 8 with small | large
      · exact small
      · rw [testBit_of_byte _ large] at set
        contradiction
    refine ⟨7 - i, by omega, ?_⟩
    rw [both, Bool.and_eq_true] at set
    simpa only [bit, show 7 - (7 - i) = i by omega] using set
  · rintro ⟨k, -, first, second⟩ zero
    have set : (a &&& b).toNat.testBit (7 - k) = true := by
      rw [both, Bool.and_eq_true]
      exact ⟨first, second⟩
    rw [zero] at set
    simp at set

theorem pixel_of_byte (s : Screen) (c : Fin 8) (r : Fin 32) (inside : k < 8) :
    s.pixel ⟨8 * c.val + k, by omega⟩ r = bit (s.byte c r) k := by
  have column : (8 * c.val + k) / 8 = c.val := by omega
  have offset : (8 * c.val + k) % 8 = k := by omega
  simp only [pixel, column, offset]

theorem toNat_spread (bits x : UInt8) :
    (spread bits x).toNat = bits.toNat * 2 ^ (8 - x.toNat % 8) := by
  have byte : bits.toNat < 2 ^ 8 := UInt8.toNat_lt bits
  have shift : (8 - x % 8).toUInt16.toNat = 8 - x.toNat % 8 := by
    rw [UInt8.toNat_toUInt16, UInt8.toNat_sub, UInt8.toNat_mod]
    simp only [UInt8.reduceToNat]
    omega
  have fits : bits.toNat * 2 ^ (8 - x.toNat % 8) < 2 ^ 16 :=
    calc bits.toNat * 2 ^ (8 - x.toNat % 8)
        < 2 ^ 8 * 2 ^ (8 - x.toNat % 8) := (Nat.mul_lt_mul_right (Nat.two_pow_pos _)).mpr byte
      _ ≤ 2 ^ 8 * 2 ^ 8 := Nat.mul_le_mul_left _ (Nat.pow_le_pow_right (by decide) (by omega))
      _ = 2 ^ 16 := by decide
  rw [spread, UInt16.toNat_shiftLeft, shift, Nat.mod_eq_of_lt (a := 8 - x.toNat % 8) (by omega),
    UInt8.toNat_toUInt16, Nat.shiftLeft_eq, Nat.mod_eq_of_lt fits]

theorem bit_left (bits x : UInt8) (inside : k < 8) :
    bit (spread bits x >>> 8).toUInt8 k =
      (decide (x.toNat % 8 ≤ k) && bit bits (k - x.toNat % 8)) := by
  have number : (spread bits x >>> 8).toUInt8.toNat = (spread bits x).toNat >>> 8 % 2 ^ 8 := by
    rw [UInt16.toNat_toUInt8, UInt16.toNat_shiftRight]
    rfl
  rw [bit, number, Nat.testBit_mod_two_pow, Nat.testBit_shiftRight, toNat_spread,
    Nat.testBit_mul_two_pow]
  by_cases reached : x.toNat % 8 ≤ k
  · have same : 8 + (7 - k) - (8 - x.toNat % 8) = 7 - (k - x.toNat % 8) := by omega
    have place : 8 - x.toNat % 8 ≤ 8 + (7 - k) := by omega
    simp [reached, place, same, bit, show 7 - k < 8 by omega]
  · have outside : 8 ≤ 8 + (7 - k) - (8 - x.toNat % 8) := by omega
    simp [reached, testBit_of_byte bits outside]

theorem bit_right (bits x : UInt8) (inside : k < 8) :
    bit (spread bits x).toUInt8 k =
      (decide (k < x.toNat % 8) && bit bits (k + 8 - x.toNat % 8)) := by
  rw [bit, UInt16.toNat_toUInt8, Nat.testBit_mod_two_pow, toNat_spread, Nat.testBit_mul_two_pow]
  by_cases reached : k < x.toNat % 8
  · have same : 7 - k - (8 - x.toNat % 8) = 7 - (k + 8 - x.toNat % 8) := by omega
    have place : 8 - x.toNat % 8 ≤ 7 - k := by omega
    simp [reached, place, same, bit, show 7 - k < 8 by omega]
  · have outside : ¬ 8 - x.toNat % 8 ≤ 7 - k := by omega
    simp [reached, outside]

/-- The bits of a row drawn at column `x` that fall into the byte in column `c`. -/
def lane (bits x : UInt8) (c : Nat) : UInt8 :=
  if c = x.toNat / 8 % 8 then (spread bits x >>> 8).toUInt8
  else if c = (x.toNat / 8 + 1) % 8 then (spread bits x).toUInt8
  else 0

/-- Whether a row drawn at column `x` has its pixel at column `px` set. -/
def covers (bits x : UInt8) (px : Fin 64) : Bool :=
  let offset := (px.val + 64 - x.toNat % 64) % 64
  decide (offset < 8) && bit bits offset

theorem bit_lane (bits x : UInt8) (px : Fin 64) :
    bit (lane bits x (px.val / 8)) (px.val % 8) = covers bits x px := by
  have column : px.val < 64 := px.isLt
  unfold lane covers
  split
  · rename_i left
    rw [bit_left bits x (Nat.mod_lt _ (by decide))]
    by_cases reached : x.toNat % 8 ≤ px.val % 8
    · have same : (px.val + 64 - x.toNat % 64) % 64 = px.val % 8 - x.toNat % 8 := by omega
      simp [same, reached, show px.val % 8 - x.toNat % 8 < 8 by omega]
    · have outside : ¬ (px.val + 64 - x.toNat % 64) % 64 < 8 := by omega
      simp [reached, outside]
  · rename_i left
    split
    · rename_i right
      rw [bit_right bits x (Nat.mod_lt _ (by decide))]
      by_cases reached : px.val % 8 < x.toNat % 8
      · have same : (px.val + 64 - x.toNat % 64) % 64 = px.val % 8 + 8 - x.toNat % 8 := by omega
        simp [same, reached, show px.val % 8 + 8 - x.toNat % 8 < 8 by omega]
      · have outside : ¬ (px.val + 64 - x.toNat % 64) % 64 < 8 := by omega
        simp [reached, outside]
    · rename_i right
      have outside : ¬ (px.val + 64 - x.toNat % 64) % 64 < 8 := by omega
      simp [bit_zero, outside]

theorem byte_drawRow (s : Screen) (bits x : UInt8) (y : Nat) (c : Fin 8) (r : Fin 32) :
    (s.drawRow bits x y).1.byte c r =
      s.byte c r ^^^ if r.val = y % 32 then lane bits x c.val else 0 := by
  have column : c.val < 8 := c.isLt
  have here : ∀ d, (place d y).val = 8 * r.val + c.val ↔ r.val = y % 32 ∧ c.val = d % 8 := by
    intro d
    simp only [place]
    omega
  simp only [drawRow, byte, Vector.getElem_set, here, lane]
  by_cases row : r.val = y % 32
  · rw [if_pos row]
    by_cases left : c.val = x.toNat / 8 % 8
    · have right : ¬ c.val = (x.toNat / 8 + 1) % 8 := by omega
      have same := (here (x.toNat / 8)).mpr ⟨row, left⟩
      rw [if_neg (fun both => right both.2), if_pos ⟨row, left⟩, if_pos left]
      simp only [same]
    · rw [if_neg left]
      by_cases right : c.val = (x.toNat / 8 + 1) % 8
      · have same := (here (x.toNat / 8 + 1)).mpr ⟨row, right⟩
        rw [if_pos ⟨row, right⟩, if_pos right]
        simp only [same]
      · rw [if_neg (fun both => right both.2), if_neg (fun both => left both.2), if_neg right,
          UInt8.xor_zero]
  · rw [if_neg (fun both => row both.1), if_neg (fun both => row both.1), if_neg row,
      UInt8.xor_zero]

theorem pixel_drawRow (s : Screen) (bits x : UInt8) (y : Nat) (px : Fin 64) (py : Fin 32) :
    (s.drawRow bits x y).1.pixel px py =
      (s.pixel px py ^^ (decide (py.val = y % 32) && covers bits x px)) := by
  rw [pixel, byte_drawRow, bit_xor]
  by_cases row : py.val = y % 32
  · rw [if_pos row, bit_lane]
    simp [row, pixel]
  · rw [if_neg row, bit_zero]
    simp [row, pixel]

theorem drawRow_collides_iff_lane (s : Screen) (bits x : UInt8) (y : Nat) :
    (s.drawRow bits x y).2 = true ↔ ∃ (c : Fin 8) (r : Fin 32), r.val = y % 32 ∧
      (s.byte c r &&& lane bits x c.val != 0) = true := by
  have row : y % 32 < 32 := Nat.mod_lt _ (by decide)
  have apart : ¬ (x.toNat / 8 + 1) % 8 = x.toNat / 8 % 8 := by omega
  simp only [drawRow, Bool.or_eq_true]
  constructor
  · rintro (left | right)
    · refine ⟨⟨x.toNat / 8 % 8, Nat.mod_lt _ (by decide)⟩, ⟨y % 32, row⟩, rfl, ?_⟩
      rwa [lane, if_pos rfl]
    · refine ⟨⟨(x.toNat / 8 + 1) % 8, Nat.mod_lt _ (by decide)⟩, ⟨y % 32, row⟩, rfl, ?_⟩
      rwa [lane, if_neg apart, if_pos rfl]
  · rintro ⟨⟨c, column⟩, ⟨r, inside⟩, rfl, both⟩
    unfold lane at both
    split at both
    · rename_i left
      subst left
      exact .inl both
    · split at both
      · rename_i right
        subst right
        exact .inr both
      · simp at both

theorem drawRow_collides_iff (s : Screen) (bits x : UInt8) (y : Nat) :
    (s.drawRow bits x y).2 = true ↔
      ∃ px, ∃ py : Fin 32, py.val = y % 32 ∧ s.pixel px py = true ∧ covers bits x px = true := by
  rw [drawRow_collides_iff_lane]
  constructor
  · rintro ⟨c, r, row, both⟩
    obtain ⟨k, inside, lit, set⟩ := and_ne_zero_iff.mp both
    have column : (8 * c.val + k) / 8 = c.val := by omega
    have offset : (8 * c.val + k) % 8 = k := by omega
    refine ⟨⟨8 * c.val + k, by omega⟩, r, row, ?_, ?_⟩
    · rw [pixel_of_byte s c r inside]
      exact lit
    · rw [← bit_lane]
      simpa only [column, offset] using set
  · rintro ⟨px, py, row, lit, covered⟩
    rw [← bit_lane] at covered
    refine ⟨⟨px.val / 8, by omega⟩, py, row, ?_⟩
    exact and_ne_zero_iff.mpr ⟨px.val % 8, by omega, lit, covered⟩

/-- Whether drawing a sprite at column `x` and row `y` switches a pixel. -/
def flips (sprite : List UInt8) (x : UInt8) (y : Nat) (px : Fin 64) (py : Fin 32) : Bool :=
  match sprite with
  | [] => false
  | bits :: rest => (decide (py.val = y % 32) && covers bits x px) ^^ flips rest x (y + 1) px py

variable {sprite : List UInt8} {x : UInt8} {y : Nat} {px : Fin 64} {py : Fin 32}

theorem pixel_draw (s : Screen) (sprite : List UInt8) (x : UInt8) (y : Nat) (px : Fin 64)
    (py : Fin 32) :
    (s.draw sprite x y).1.pixel px py = (s.pixel px py ^^ flips sprite x y px py) := by
  induction sprite generalizing s y with
  | nil => simp [draw, flips]
  | cons bits rest ih =>
    simp only [draw, flips]
    rw [ih, pixel_drawRow, Bool.xor_assoc]

theorem row_of_flips (flipped : flips sprite x y px py = true) :
    ∃ r < sprite.length, (y + r) % 32 = py.val := by
  induction sprite generalizing y with
  | nil => contradiction
  | cons bits rest ih =>
    by_cases row : py.val = y % 32
    · exact ⟨0, Nat.succ_pos _, row.symm⟩
    · simp only [flips, row, decide_false, Bool.false_and, Bool.false_xor] at flipped
      obtain ⟨r, inside, there⟩ := ih flipped
      exact ⟨r + 1, Nat.succ_lt_succ inside, by rwa [Nat.add_assoc, Nat.add_comm 1] at there⟩

/- The rows below the first do not come round to it. -/
theorem flips_cons_of_row {bits : UInt8} (few : (bits :: sprite).length ≤ 32) (row : py.val = y % 32) :
    flips sprite x (y + 1) px py = false := by
  rw [← Bool.not_eq_true]
  intro flipped
  obtain ⟨r, inside, there⟩ := row_of_flips flipped
  rw [List.length_cons] at few
  omega

theorem draw_collides_iff_flips (s : Screen) (few : sprite.length ≤ 32) :
    (s.draw sprite x y).2 = true ↔
      ∃ px py, s.pixel px py = true ∧ flips sprite x y px py = true := by
  induction sprite generalizing s y with
  | nil => simp [draw, flips]
  | cons bits rest ih =>
    have fewer : rest.length ≤ 32 := Nat.le_of_succ_le few
    simp only [draw, Bool.or_eq_true, drawRow_collides_iff, ih _ fewer, flips, pixel_drawRow]
    constructor
    · rintro (⟨px, py, row, lit, covered⟩ | ⟨px, py, lit, flipped⟩)
      · refine ⟨px, py, lit, ?_⟩
        simp [row, covered, flips_cons_of_row few row]
      · have row : ¬ py.val = y % 32 := by
          intro row
          rw [flips_cons_of_row few row] at flipped
          contradiction
        refine ⟨px, py, ?_, ?_⟩
        · simpa [row] using lit
        · simpa [row] using flipped
    · rintro ⟨px, py, lit, flipped⟩
      by_cases row : py.val = y % 32
      · refine .inl ⟨px, py, row, lit, ?_⟩
        simpa [row, flips_cons_of_row few row] using flipped
      · refine .inr ⟨px, py, ?_, ?_⟩
        · simpa [row] using lit
        · simpa [row] using flipped

theorem draw_collides_iff (s : Screen) (few : sprite.length ≤ 32) :
    (s.draw sprite x y).2 = true ↔
      ∃ px py, s.pixel px py = true ∧ (s.draw sprite x y).1.pixel px py = false := by
  rw [draw_collides_iff_flips s few]
  simp only [pixel_draw]
  constructor
  · rintro ⟨px, py, lit, flipped⟩
    exact ⟨px, py, lit, by rw [lit, flipped]; rfl⟩
  · rintro ⟨px, py, lit, dark⟩
    rw [lit] at dark
    exact ⟨px, py, lit, by simpa using dark⟩

end Chip8.Screen
