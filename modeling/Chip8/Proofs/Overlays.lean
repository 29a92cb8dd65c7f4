import Mathlib.Algebra.BigOperators.Fin
import Mathlib.Data.Finset.SymmDiff
import Mathlib.Data.Fintype.Prod
import Chip8.Proofs.Sprites

/-!
# Drawing in any order

The lit pixels of a screen as a set. Drawing takes the symmetric difference of that set and the set
of pixels that the sprite switches, so the order in which sprites are drawn does not matter for the
screen. Which of them collide does depend on the order. Whether any of them does can be counted: a
set bit that meets a lit pixel is missing from the lit pixels in the end, and the pixel with it.
-/

namespace Chip8

structure Stamp where
  sprite : List UInt8
  x : UInt8
  y : Nat

namespace Screen

open scoped symmDiff

variable {s t u : Screen} {bits x : UInt8} {y : Nat} {p : Fin 64 × Fin 32}

def lit (s : Screen) : Finset (Fin 64 × Fin 32) :=
  {p | s.pixel p.1 p.2 = true}

theorem mem_lit : p ∈ s.lit ↔ s.pixel p.1 p.2 = true :=
  Finset.mem_filter_univ p

theorem ext_bit {a b : UInt8} (same : ∀ k < 8, bit a k = bit b k) : a = b := by
  apply UInt8.toNat_inj.mp
  apply Nat.eq_of_testBit_eq
  intro i
  by_cases inside : i < 8
  · have place := same (7 - i) (by omega)
    simpa only [bit, show 7 - (7 - i) = i by omega] using place
  · rw [testBit_of_byte a (by omega), testBit_of_byte b (by omega)]

theorem ext_byte (same : ∀ c r, s.byte c r = t.byte c r) : s = t := by
  apply congrArg Screen.mk
  apply Vector.ext
  intro n inside
  have place := same ⟨n % 8, Nat.mod_lt _ (by decide)⟩ ⟨n / 8, by omega⟩
  simpa only [byte, Nat.div_add_mod] using place

theorem ext_pixel (same : ∀ px py, s.pixel px py = t.pixel px py) : s = t := by
  apply ext_byte
  intro c r
  apply ext_bit
  intro k inside
  rw [← pixel_of_byte s c r inside, ← pixel_of_byte t c r inside]
  exact same _ r

theorem ext_lit (same : s.lit = t.lit) : s = t := by
  apply ext_pixel
  intro px py
  have member := Finset.ext_iff.mp same (px, py)
  rwa [mem_lit, mem_lit, ← Bool.eq_iff_iff] at member

/- A sum over eight times as many places, taken eight places at a time. -/
theorem sum_octets {n : Nat} (f : Fin n → Fin 8 → Nat) :
    ∑ i : Fin (n * 8), f i.divNat i.modNat = ∑ c, ∑ k, f c k := by
  rw [← Fintype.sum_prod_type']
  exact finProdFinEquiv.symm.sum_comp fun p => f p.1 p.2

theorem countP_range (q : Nat → Bool) (n : Nat) :
    (List.range n).countP q = ∑ k : Fin n, if q k.val = true then 1 else 0 := by
  induction n with
  | zero => rfl
  | succ n ih =>
    rw [List.range_succ, List.countP_append, ih, List.countP_singleton, Fin.sum_univ_castSucc]
    rfl

theorem litCount_eq_sum (s : Screen) :
    s.litCount = ∑ r : Fin 32, ∑ c : Fin 8, bitCount (s.byte c r) := by
  have listed : s.bytes.toList = List.ofFn fun i : Fin 256 => s.bytes[i.val] := by
    rw [← Vector.toList_ofFn, Vector.ofFn_getElem]
  have total : s.litCount = ∑ i : Fin 256, bitCount s.bytes[i.val] := by
    rw [← List.sum_ofFn, List.sum_eq_foldr, litCount, listed, ← List.foldr_map, List.map_ofFn]
    rfl
  rw [total, ← sum_octets]
  apply Finset.sum_congr rfl
  intro i _
  simp only [byte, Fin.coe_divNat, Fin.coe_modNat, Nat.div_add_mod]

theorem card_lit (s : Screen) : s.lit.card = s.litCount := by
  rw [lit, Finset.card_filter, Fintype.sum_prod_type_right, litCount_eq_sum]
  apply Finset.sum_congr rfl
  intro r _
  simp only [bitCount, countP_range]
  exact sum_octets fun c k => if bit (s.byte c r) k = true then 1 else 0

def rowPixels (bits x : UInt8) (y : Nat) : Finset (Fin 64 × Fin 32) :=
  ({b | bit bits b = true} : Finset (Fin 8)).image fun b : Fin 8 =>
    (.ofNat 64 (x.toNat + b.val), .ofNat 32 y)

theorem mem_rowPixels :
    p ∈ rowPixels bits x y ↔ p.2.val = y % 32 ∧ covers bits x p.1 = true := by
  simp only [rowPixels, Finset.mem_image, Finset.mem_filter_univ, covers_iff]
  constructor
  · rintro ⟨b, set, rfl⟩
    exact ⟨rfl, b, set, rfl⟩
  · rintro ⟨row, b, set, there⟩
    exact ⟨b, set, Prod.ext (Fin.ext there) (Fin.ext row.symm)⟩

theorem card_rowPixels (bits x : UInt8) (y : Nat) : (rowPixels bits x y).card = bitCount bits := by
  rw [rowPixels, Finset.card_image_of_injective, Finset.card_filter, bitCount, countP_range]
  intro a b same
  have column : (x.toNat + a.val) % 64 = (x.toNat + b.val) % 64 :=
    congrArg Fin.val (Prod.mk.inj same).1
  apply Fin.ext
  omega

theorem lit_drawRow (s : Screen) (bits x : UInt8) (y : Nat) :
    (s.drawRow bits x y).1.lit = s.lit ∆ rowPixels bits x y := by
  ext p
  simp only [mem_lit, Finset.mem_symmDiff, mem_rowPixels, pixel_drawRow]
  by_cases row : p.2.val = y % 32
  · cases s.pixel p.1 p.2 <;> simp [row]
  · simp [row]

theorem card_symmDiff_add (a b : Finset (Fin 64 × Fin 32)) :
    (a ∆ b).card + 2 * (a ∩ b).card = a.card + b.card := by
  have apart : (a ∆ b).card = (a \ b).card + (b \ a).card :=
    Finset.card_union_of_disjoint disjoint_sdiff_sdiff
  have left := Finset.card_sdiff_add_card_inter a b
  have right := Finset.card_sdiff_add_card_inter b a
  rw [Finset.inter_comm] at right
  omega

/-- So many set bits were drawn between two screens. Each bit that met a lit pixel is missing twice
from the lit pixels: it is not lit itself, and it put one out. -/
def Tally (s t : Screen) (bits : Nat) (collided : Prop) : Prop :=
  ∃ met, t.litCount + 2 * met = s.litCount + bits ∧ (collided ↔ 0 < met)

theorem Tally.refl (s : Screen) {collided : Prop} (none : ¬ collided) : Tally s s 0 collided :=
  ⟨0, rfl, iff_of_false none (Nat.lt_irrefl 0)⟩

theorem Tally.trans {a b : Nat} {here there : Prop} (first : Tally s t a here)
    (second : Tally t u b there) : Tally s u (a + b) (here ∨ there) := by
  obtain ⟨m, before, one⟩ := first
  obtain ⟨n, after, other⟩ := second
  refine ⟨m + n, by omega, ?_⟩
  rw [one, other]
  omega

theorem Tally.clear_iff {n : Nat} {collided : Prop} (tally : Tally s t n collided) :
    ¬ collided ↔ t.litCount = s.litCount + n := by
  obtain ⟨met, balance, some⟩ := tally
  rw [some]
  omega

theorem drawRow_tally (s : Screen) (bits x : UInt8) (y : Nat) :
    Tally s (s.drawRow bits x y).1 (bitCount bits) ((s.drawRow bits x y).2 = true) := by
  refine ⟨(s.lit ∩ rowPixels bits x y).card, ?_, ?_⟩
  · rw [← card_lit, ← card_lit, lit_drawRow, card_symmDiff_add, card_rowPixels]
  · simp only [drawRow_collides_iff, Finset.card_pos, Finset.Nonempty, Finset.mem_inter, mem_lit,
      mem_rowPixels, Prod.exists, and_left_comm]

def weight (sprite : List UInt8) : Nat :=
  (sprite.map bitCount).sum

theorem draw_tally (s : Screen) (sprite : List UInt8) (x : UInt8) (y : Nat) :
    Tally s (s.draw sprite x y).1 (weight sprite) ((s.draw sprite x y).2 = true) := by
  induction sprite generalizing s y with
  | nil => exact Tally.refl s Bool.false_ne_true
  | cons bits rest ih =>
    simp only [draw, weight, List.map_cons, List.sum_cons, Bool.or_eq_true]
    exact (s.drawRow_tally bits x y).trans (ih (s.drawRow bits x y).1 (y + 1))

/-- The screen after some sprites were drawn one after the other, and which of them collided. -/
def drawAll (s : Screen) : List Stamp → Screen × List Bool
  | [] => (s, [])
  | d :: rest =>
    let (next, collision) := s.draw d.sprite d.x d.y
    let (last, collisions) := next.drawAll rest
    (last, collision :: collisions)

theorem drawAll_tally (s : Screen) (ds : List Stamp) :
    Tally s (s.drawAll ds).1 (ds.map fun d => weight d.sprite).sum (true ∈ (s.drawAll ds).2) := by
  induction ds generalizing s with
  | nil => exact Tally.refl s List.not_mem_nil
  | cons d rest ih =>
    simp only [drawAll, List.map_cons, List.sum_cons, List.mem_cons, eq_comm (a := true)]
    exact (s.draw_tally d.sprite d.x d.y).trans (ih (s.draw d.sprite d.x d.y).1)

def switched (sprite : List UInt8) (x : UInt8) (y : Nat) : Finset (Fin 64 × Fin 32) :=
  {p | flips sprite x y p.1 p.2 = true}

theorem lit_draw (s : Screen) (sprite : List UInt8) (x : UInt8) (y : Nat) :
    (s.draw sprite x y).1.lit = s.lit ∆ switched sprite x y := by
  ext p
  simp only [mem_lit, switched, Finset.mem_symmDiff, Finset.mem_filter_univ, pixel_draw]
  cases s.pixel p.1 p.2 <;> simp

/-- The pixels that several sprites switch between them. -/
def overlay : List Stamp → Finset (Fin 64 × Fin 32)
  | [] => ∅
  | d :: rest => switched d.sprite d.x d.y ∆ overlay rest

theorem lit_drawAll (s : Screen) (ds : List Stamp) :
    (s.drawAll ds).1.lit = s.lit ∆ overlay ds := by
  induction ds generalizing s with
  | nil => exact (symmDiff_bot s.lit).symm
  | cons d rest ih =>
    simp only [drawAll, overlay]
    rw [ih, lit_draw, symmDiff_assoc]

theorem overlay_perm {ds es : List Stamp} (same : ds.Perm es) : overlay ds = overlay es := by
  induction same with
  | nil => rfl
  | cons d _ ih => rw [overlay, overlay, ih]
  | swap d e rest => exact symmDiff_left_comm _ _ _
  | trans _ _ first second => exact first.trans second

/-- Sprites leave the same screen in whatever order they are drawn, and in every order or in none
some of them collide: none do exactly if each set bit has become one more lit pixel. Drawn once
more, in any order, they are gone. -/
theorem drawing_order_is_immaterial (s : Screen) {ds es : List Stamp} (same : ds.Perm es) :
    (s.drawAll ds).1 = (s.drawAll es).1 ∧
    (true ∈ (s.drawAll ds).2 ↔ true ∈ (s.drawAll es).2) ∧
    (true ∉ (s.drawAll ds).2 ↔
      (s.drawAll ds).1.litCount = s.litCount + (ds.map fun d => weight d.sprite).sum) ∧
    ((s.drawAll ds).1.drawAll es).1 = s := by
  have screen : (s.drawAll ds).1 = (s.drawAll es).1 := by
    apply ext_lit
    rw [lit_drawAll, lit_drawAll, overlay_perm same]
  have bits := (same.map fun d => weight d.sprite).sum_eq
  have one := (s.drawAll_tally ds).clear_iff
  have other := (s.drawAll_tally es).clear_iff
  refine ⟨screen, ?_, one, ?_⟩
  · rw [← not_iff_not, one, other, screen, bits]
  · apply ext_lit
    rw [lit_drawAll, lit_drawAll, overlay_perm same, symmDiff_symmDiff_cancel_right]

/- A lit pixel, and two sprites over it of which the first to be drawn collides. -/
def dotted : Screen := (blank.draw [0x80] 0 0).1

def dot : Stamp := ⟨[0x80], 0, 0⟩

def dash : Stamp := ⟨[0xC0], 0, 0⟩

theorem drawing_order_is_immaterial_dash : [dot, dash].Perm [dash, dot] ∧
    (dotted.drawAll [dot, dash]).2 = [true, false] ∧ true ∈ (dotted.drawAll [dash, dot]).2 ∧
    (dotted.drawAll [dot, dash]).1 = (dotted.drawAll [dash, dot]).1 ∧
    ((dotted.drawAll [dot, dash]).1.drawAll [dash, dot]).1 = dotted := by
  have swapped : [dot, dash].Perm [dash, dot] := .swap dash dot []
  have collisions : (dotted.drawAll [dot, dash]).2 = [true, false] := by decide
  obtain ⟨screen, collides, -, gone⟩ := drawing_order_is_immaterial dotted swapped
  rw [collisions] at collides
  exact ⟨swapped, collisions, collides.mp List.mem_cons_self, screen, gone⟩

end Screen

end Chip8
