import Mathlib.Algebra.BigOperators.Fin
import Mathlib.Data.Fintype.Prod
import Chip8.Proofs.Pixels

/-!
# Sprites, bit by bit

Where the bits of a sprite fall on the screen, and what that says of drawing: a pixel is switched
once for every set bit that falls on it, however often the rows come round to it, and a collision is
a set bit that meets a lit pixel at the time its row is drawn.
-/

namespace Chip8.Screen

variable {bits x : UInt8} {sprite : List UInt8} {y : Nat} {px : Fin 64} {py : Fin 32}

theorem covers_iff : covers bits x px = true ↔
    ∃ b : Fin 8, bit bits b = true ∧ (x.toNat + b.val) % 64 = px.val := by
  have column : px.val < 64 := px.isLt
  simp only [covers, Bool.and_eq_true, decide_eq_true_eq]
  constructor
  · rintro ⟨near, set⟩
    exact ⟨⟨(px.val + 64 - x.toNat % 64) % 64, near⟩, set, by simp only; omega⟩
  · rintro ⟨b, set, there⟩
    have place : b.val < 8 := b.isLt
    have same : (px.val + 64 - x.toNat % 64) % 64 = b.val := by omega
    rw [same]
    exact ⟨place, set⟩

theorem sum_row (bits x : UInt8) (px : Fin 64) :
    (∑ b : Fin 8, if bit bits b = true ∧ (x.toNat + b.val) % 64 = px.val then 1 else 0) =
      (covers bits x px).toNat := by
  cases covered : covers bits x px with
  | false =>
    apply Finset.sum_eq_zero
    intro b _
    rw [← Bool.not_eq_true, covers_iff] at covered
    exact if_neg fun both => covered ⟨b, both⟩
  | true =>
    obtain ⟨b, both⟩ := covers_iff.mp covered
    rw [Finset.sum_eq_single b]
    · exact if_pos both
    · intro c _ other
      have apart : ¬ (x.toNat + c.val) % 64 = px.val := by omega
      exact if_neg fun both => apart both.2
    · intro absent
      exact absurd (Finset.mem_univ b) absent

/-- The set bits of a sprite, each by its row and its place from the left, that fall on a pixel when
the sprite is drawn at column `x` and row `y`. -/
def hits (sprite : List UInt8) (x : UInt8) (y : Nat) (px : Fin 64) (py : Fin 32) :
    Finset (Fin sprite.length × Fin 8) :=
  {p | bit sprite[p.1] p.2 = true ∧ (x.toNat + p.2.val) % 64 = px.val ∧
    (y + p.1.val) % 32 = py.val}

theorem card_hits (sprite : List UInt8) (x : UInt8) (y : Nat) (px : Fin 64) (py : Fin 32) :
    (hits sprite x y px py).card = ∑ r : Fin sprite.length,
      if (y + r.val) % 32 = py.val then (covers sprite[r] x px).toNat else 0 := by
  rw [hits, Finset.card_filter, Fintype.sum_prod_type]
  apply Finset.sum_congr rfl
  intro r _
  by_cases row : (y + r.val) % 32 = py.val
  · rw [if_pos row, ← sum_row]
    simp only [row, and_true]
  · simp only [row, and_false, if_false, Finset.sum_const_zero]

theorem card_hits_cons (bits : UInt8) (sprite : List UInt8) (x : UInt8) (y : Nat) (px : Fin 64)
    (py : Fin 32) : (hits (bits :: sprite) x y px py).card =
      (decide (py.val = y % 32) && covers bits x px).toNat + (hits sprite x (y + 1) px py).card := by
  have shifted : ∀ r, y + 1 + r = y + (r + 1) := by omega
  simp only [card_hits, shifted]
  refine (Fin.sum_univ_succ _).trans (congrArg (· + _) ?_)
  by_cases row : py.val = y % 32
  · simp [row]
  · have missed : ¬ y % 32 = py.val := fun same => row same.symm
    simp [row, missed]

theorem flips_eq_parity : flips sprite x y px py = decide ((hits sprite x y px py).card % 2 = 1) := by
  induction sprite generalizing y with
  | nil => rfl
  | cons bits rest ih =>
    rw [flips, ih, card_hits_cons]
    cases decide (py.val = y % 32) && covers bits x px with
    | false => simp
    | true =>
      rw [Bool.true_xor, Bool.toNat_true, ← decide_not, decide_eq_decide]
      omega

theorem drawRow_collides_iff_bit (s : Screen) (bits x : UInt8) (y : Nat) :
    (s.drawRow bits x y).2 = true ↔ ∃ b : Fin 8, bit bits b = true ∧
      s.pixel (.ofNat 64 (x.toNat + b.val)) (.ofNat 32 y) = true := by
  rw [drawRow_collides_iff]
  constructor
  · rintro ⟨px, py, row, lit, covered⟩
    obtain ⟨b, set, there⟩ := covers_iff.mp covered
    have column : Fin.ofNat 64 (x.toNat + b.val) = px := Fin.ext there
    have line : Fin.ofNat 32 y = py := Fin.ext row.symm
    exact ⟨b, set, by rwa [column, line]⟩
  · rintro ⟨b, set, lit⟩
    exact ⟨_, _, rfl, lit, covers_iff.mpr ⟨b, set, rfl⟩⟩

theorem draw_collides_iff_bit (s : Screen) (sprite : List UInt8) (x : UInt8) (y : Nat) :
    (s.draw sprite x y).2 = true ↔ ∃ (r : Fin sprite.length) (b : Fin 8), bit sprite[r] b = true ∧
      (s.draw (sprite.take r) x y).1.pixel (.ofNat 64 (x.toNat + b.val)) (.ofNat 32 (y + r.val)) =
        true := by
  induction sprite generalizing s y with
  | nil => simp [draw]
  | cons bits rest ih =>
    have shifted : ∀ r, y + 1 + r = y + (r + 1) := by omega
    simp only [draw, Bool.or_eq_true, drawRow_collides_iff_bit, ih, shifted]
    constructor
    · rintro (⟨b, met⟩ | ⟨r, b, met⟩)
      · exact ⟨⟨0, Nat.succ_pos _⟩, b, met⟩
      · exact ⟨r.succ, b, met⟩
    · rintro ⟨⟨r, inside⟩, b, met⟩
      cases r with
      | zero => exact .inl ⟨b, met⟩
      | succ r => exact .inr ⟨⟨r, Nat.lt_of_succ_lt_succ inside⟩, b, met⟩

/-- The pixel law of drawing. A pixel is switched as often as a set bit of the sprite falls on it,
and a sprite collides when a set bit meets a pixel that is lit after the rows above it. A sprite of
at most 32 rows collides exactly if some pixel that was lit is dark afterwards. -/
theorem draw_pixel_by_pixel (s : Screen) (sprite : List UInt8) (x : UInt8) (y : Nat) :
    (∀ px py, (s.draw sprite x y).1.pixel px py =
      (s.pixel px py ^^ decide ((hits sprite x y px py).card % 2 = 1))) ∧
    ((s.draw sprite x y).2 = true ↔
      ∃ (r : Fin sprite.length) (b : Fin 8), bit sprite[r] b = true ∧
        (s.draw (sprite.take r) x y).1.pixel (.ofNat 64 (x.toNat + b.val))
          (.ofNat 32 (y + r.val)) = true) ∧
    (sprite.length ≤ 32 → ((s.draw sprite x y).2 = true ↔
      ∃ px py, s.pixel px py = true ∧ (s.draw sprite x y).1.pixel px py = false)) := by
  refine ⟨?_, draw_collides_iff_bit s sprite x y, draw_collides_iff s⟩
  intro px py
  rw [pixel_draw, flips_eq_parity]

/- Two rows at the lower right corner: the first comes in again on the left, the second at the
top. -/
def hook : List UInt8 := [0xC0, 0x80]

theorem pixel_blank (px : Fin 64) (py : Fin 32) : blank.pixel px py = false := by
  simp only [pixel, byte, blank, Vector.getElem_replicate, bit_zero]

theorem draw_pixel_by_pixel_corner : hook.length ≤ 32 ∧
    (blank.draw hook 63 31).1.pixel 0 31 = true ∧ (blank.draw hook 63 31).1.pixel 63 0 = true ∧
    (blank.draw hook 63 31).1.pixel 0 0 = false ∧ (blank.draw hook 63 31).2 = false := by
  have few : hook.length ≤ 32 := by decide
  obtain ⟨pixels, -, collides⟩ := draw_pixel_by_pixel blank hook 63 31
  refine ⟨few, ?_, ?_, ?_, ?_⟩
  · rw [pixels, pixel_blank]
    decide
  · rw [pixels, pixel_blank]
    decide
  · rw [pixels, pixel_blank]
    decide
  · rw [← Bool.not_eq_true, collides few]
    rintro ⟨px, py, lit, -⟩
    rw [pixel_blank] at lit
    exact Bool.false_ne_true lit

end Chip8.Screen
