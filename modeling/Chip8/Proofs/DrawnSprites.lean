import Chip8.Proofs.Blocks
import Chip8.Proofs.Events
import Chip8.Proofs.Overlays

namespace Chip8

namespace Screen

variable {sprite : List UInt8} {x : UInt8} {y : Nat} {px : Fin 64} {py : Fin 32}

theorem covers_zero (x : UInt8) (px : Fin 64) : covers 0 x px = false := by
  simp only [covers, bit_zero, Bool.and_false]

theorem flips_of_few (few : sprite.length ≤ 32) :
    flips sprite x y px py = covers (sprite[(py.val + 32 - y % 32) % 32]?.getD 0) x px := by
  induction sprite generalizing y with
  | nil => exact (covers_zero x px).symm
  | cons bits rest ih =>
    have fewer : rest.length ≤ 32 := Nat.le_of_succ_le few
    have line : py.val < 32 := py.isLt
    unfold flips
    by_cases row : py.val = y % 32
    · have first : (py.val + 32 - y % 32) % 32 = 0 := by omega
      rw [flips_cons_of_row few row, first, decide_eq_true row, Bool.true_and, Bool.xor_false]
      rfl
    · have later : (py.val + 32 - y % 32) % 32 = (py.val + 32 - (y + 1) % 32) % 32 + 1 := by omega
      rw [ih fewer, later, decide_eq_false row, Bool.false_and, Bool.false_xor,
        List.getElem?_cons_succ]

end Screen

namespace Machine

open Memory (ahead)

variable {m next other : Machine} {x y n : UInt8} {px : Fin 64} {py : Fin 32}

/-- Whether the sprite at the index register has a set bit on a pixel, when it is drawn with `n`
rows where registers `x` and `y` say. The row and the column of the sprite are counted around the
screen, the byte around memory. -/
def stamps (m : Machine) (x y n : UInt8) (px : Fin 64) (py : Fin 32) : Bool :=
  let r := (py.val + 32 - (m.registers.get y).toNat % 32) % 32
  let b := (px.val + 64 - (m.registers.get x).toNat % 64) % 64
  decide (r < n.toNat) && decide (b < 8) &&
    Screen.bit (m.memory.byteAt (ahead m.registers.index r)) b

/-- What a second machine shares with a first one if it draws the same sprite at the same place. -/
structure SameSprite (m other : Machine) (x y n : UInt8) : Prop where
  column : other.registers.get x = m.registers.get x
  row : other.registers.get y = m.registers.get y
  index : other.registers.index = m.registers.index
  bytes : ∀ r < n.toNat, other.memory.byteAt (ahead m.registers.index r) =
    m.memory.byteAt (ahead m.registers.index r)

theorem flips_read (few : n.toNat ≤ 32) :
    Screen.flips (m.memory.read m.registers.index n.toNat) (m.registers.get x)
      (m.registers.get y).toNat px py = m.stamps x y n px py := by
  have rows : (m.memory.read m.registers.index n.toNat).length ≤ 32 := by
    simpa [Memory.read] using few
  simp only [stamps, Screen.flips_of_few rows, Memory.getD_read]
  by_cases inside : (py.val + 32 - (m.registers.get y).toNat % 32) % 32 < n.toNat
  · rw [if_pos inside, decide_eq_true inside, Bool.true_and]
    rfl
  · rw [if_neg inside, Screen.covers_zero, decide_eq_false inside, Bool.false_and, Bool.false_and]

theorem pixel_of_draw (few : n.toNat ≤ 32) (done : m.execute (.draw x y n) = .ok next) :
    next.screen.pixel px py = (m.screen.pixel px py ^^ m.stamps x y n px py) := by
  cases Except.ok.inj done
  rw [← flips_read few]
  exact Screen.pixel_draw ..

theorem kept_of_draw (done : m.execute (.draw x y n) = .ok next) :
    next.memory = m.memory ∧ next.waiting = m.waiting := by
  cases Except.ok.inj done
  exact ⟨rfl, rfl⟩

theorem register_of_draw (few : n.toNat ≤ 32) (done : m.execute (.draw x y n) = .ok next) :
    next.registers.get Registers.flag = if m.screen.darkens next.screen then 1 else 0 := by
  rw [← flag_of_draw few done]
  cases Except.ok.inj done
  rw [Registers.flag_setFlag]
  exact (Registers.get_setFlag _ _ (by decide)).trans (if_pos rfl)

theorem exists_stamps_iff (few : n.toNat ≤ 32) {P : Fin 64 → Fin 32 → Prop} :
    (∃ px py, m.stamps x y n px py = true ∧ P px py) ↔
      ∃ r b, r < n.toNat ∧ b < 8 ∧
        Screen.bit (m.memory.byteAt (ahead m.registers.index r)) b = true ∧
        P (.ofNat 64 ((m.registers.get x).toNat + b))
          (.ofNat 32 ((m.registers.get y).toNat + r)) := by
  generalize column : (m.registers.get x).toNat = left
  generalize line : (m.registers.get y).toNat = top
  simp only [stamps, column, line, Bool.and_eq_true, decide_eq_true_eq, and_assoc]
  constructor
  · rintro ⟨px, py, row, inside, set, holds⟩
    have width : px.val < 64 := px.isLt
    have height : py.val < 32 := py.isLt
    -- as far from the corner of the sprite as the pixel is, there is the pixel
    have there : Fin.ofNat 64 (left + (px.val + 64 - left % 64) % 64) = px := by
      apply Fin.ext
      rw [Fin.val_ofNat]
      omega
    have here : Fin.ofNat 32 (top + (py.val + 32 - top % 32) % 32) = py := by
      apply Fin.ext
      rw [Fin.val_ofNat]
      omega
    exact ⟨_, _, row, inside, set, by rwa [there, here]⟩
  · rintro ⟨r, b, row, inside, set, holds⟩
    have offset : ((left + b) % 64 + 64 - left % 64) % 64 = b := by omega
    have depth : ((top + r) % 32 + 32 - top % 32) % 32 = r := by omega
    refine ⟨_, _, ?_, ?_, ?_, holds⟩
    · rwa [Fin.val_ofNat, depth]
    · rwa [Fin.val_ofNat, offset]
    · rwa [Fin.val_ofNat, Fin.val_ofNat, depth, offset]

theorem stamps_congr (same : SameSprite m other x y n) :
    other.stamps x y n px py = m.stamps x y n px py := by
  obtain ⟨column, row, index, bytes⟩ := same
  simp only [stamps, column, row, index]
  by_cases inside : (py.val + 32 - (m.registers.get y).toNat % 32) % 32 < n.toNat
  · rw [bytes _ inside]
  · simp only [decide_eq_false inside, Bool.false_and]

theorem taken_off_of_drawn (few : n.toNat ≤ 32) (done : m.execute (.draw x y n) = .ok next)
    (screen : other.screen = next.screen) (same : SameSprite m other x y n) :
    ∃ last, other.execute (.draw x y n) = .ok last ∧ last.screen = m.screen ∧
      (last.registers.get Registers.flag = 1 ↔
        ∃ px py, m.stamps x y n px py = true ∧ m.screen.pixel px py = false) := by
  obtain ⟨last, again, -, -⟩ := other.execute_straight (i := .draw x y n) rfl
  have restored : last.screen = m.screen := by
    apply Screen.ext_pixel
    intro px py
    rw [pixel_of_draw few again, screen, pixel_of_draw few done, stamps_congr same,
      Bool.xor_assoc, Bool.xor_self, Bool.xor_false]
  have flag : last.registers.get Registers.flag = 1 ↔ other.screen.darkens last.screen = true := by
    rw [register_of_draw few again]
    cases other.screen.darkens last.screen <;> decide
  refine ⟨last, again, restored, flag.trans ?_⟩
  rw [Screen.darkens, decide_eq_true_iff, restored, screen]
  -- a pixel that was dark is lit by the first drawing if and only if the sprite has a bit on it
  have lights : ∀ px py, next.screen.pixel px py = true ∧ m.screen.pixel px py = false ↔
      m.stamps x y n px py = true ∧ m.screen.pixel px py = false := by
    intro px py
    rw [pixel_of_draw few done]
    cases m.screen.pixel px py <;> simp
  simp only [lights]

/-- A cycle that draws a sprite switches the pixels under its set bits, counted around the screen,
and sets the flag register to whether a pixel went dark. A second drawing of the same sprite at the
same place restores the screen, and its flag tells whether the first one found a dark pixel under a
set bit. -/
theorem cycle_draws_the_sprite_in_memory (drawn : m.cycle = (.executed (.draw x y n), next)) :
    (∀ px py, next.screen.pixel px py = (m.screen.pixel px py ^^ m.stamps x y n px py)) ∧
    next.registers.get Registers.flag = (if m.screen.darkens next.screen then 1 else 0) ∧
    ∀ other : Machine, other.waiting = none →
      Instruction.decode? other.fetch = some (.draw x y n) →
      other.screen = next.screen → SameSprite m other x y n →
      ∃ last, other.cycle = (.executed (.draw x y n), last) ∧ last.screen = m.screen ∧
        (last.registers.get Registers.flag = 1 ↔ ∃ r b, r < n.toNat ∧ b < 8 ∧
          Screen.bit (m.memory.byteAt (ahead m.registers.index r)) b = true ∧
          m.screen.pixel (.ofNat 64 ((m.registers.get x).toNat + b))
            (.ofNat 32 ((m.registers.get y).toNat + r)) = false) := by
  obtain ⟨-, decoded, done⟩ := of_cycle_executed drawn
  obtain ⟨-, -, digit⟩ := (Instruction.of_decode? decoded).2
  have few : n.toNat ≤ 32 := Nat.le_trans digit (by decide)
  refine ⟨fun px py => pixel_of_draw few done, register_of_draw few done, ?_⟩
  intro other awake same screen sprite
  obtain ⟨last, again, restored, flag⟩ := taken_off_of_drawn few done screen sprite
  exact ⟨last, cycle_of_ok awake same again, restored, flag.trans (exists_stamps_iff few)⟩

/- A program that draws over the lower right corner of the screen, at the place that the flag
register says, two rows of which one is the last byte of memory and one the first of the font. -/
def drawOverCorner : Rom where
  bytes := #[0xDF, 0xF2]

def beforeDraw : Machine :=
  { boot drawOverCorner {} with
    registers := ({ Registers.zero with index := 0xFFF }).set Registers.flag 63 }

def putBackAfterDraw : Machine :=
  { beforeDraw.cycle.2 with pc := beforeDraw.pc, registers := beforeDraw.registers }

theorem cycle_draws_the_sprite_in_memory_over_corner :
    beforeDraw.cycle.1 = .executed (.draw 15 15 2) ∧
    beforeDraw.cycle.2.screen.pixel 0 0 = true ∧
    beforeDraw.cycle.2.registers.get Registers.flag = 0 ∧
    ∃ last, putBackAfterDraw.cycle = (.executed (.draw 15 15 2), last) ∧ last.screen = .blank ∧
      last.registers.get Registers.flag = 1 := by
  have decoded : Instruction.decode? beforeDraw.fetch = some (.draw 15 15 2) := by
    rw [fetch_of_loaded (m := beforeDraw) drawOverCorner rfl]
    decide
  obtain ⟨next, done, -, -⟩ := beforeDraw.execute_straight (i := .draw 15 15 2) rfl
  have cycled := cycle_of_ok (m := beforeDraw) rfl decoded done
  obtain ⟨pixels, flag, again⟩ := cycle_draws_the_sprite_in_memory cycled
  obtain ⟨kept, waiting⟩ := kept_of_draw done
  have putBack : putBackAfterDraw =
      { next with pc := beforeDraw.pc, registers := beforeDraw.registers } := by
    rw [putBackAfterDraw, cycled]
  have awake : putBackAfterDraw.waiting = none := by
    rw [putBack]
    exact waiting
  have fetched : putBackAfterDraw.fetch = beforeDraw.fetch := by
    rw [putBack, fetch, kept, fetch]
  have same : SameSprite beforeDraw putBackAfterDraw 15 15 2 := by
    rw [putBack]
    exact ⟨rfl, rfl, rfl, fun r _ => by simp only [kept]⟩
  obtain ⟨last, drawn, restored, collided⟩ := again putBackAfterDraw awake
    ((congrArg Instruction.decode? fetched).trans decoded) (by rw [putBack]) same
  have glyph : beforeDraw.memory.byteAt (ahead beforeDraw.registers.index 1) = 0xF0 := by
    rw [beforeDraw, boot, Memory.byteAt_ofRom]
    decide
  have corner : beforeDraw.registers.get 15 = 63 := by decide
  have stamped : beforeDraw.stamps 15 15 2 0 0 = true := by
    have row : ((0 : Fin 32).val + 32 - (63 : UInt8).toNat % 32) % 32 = 1 := by decide
    have column : ((0 : Fin 64).val + 64 - (63 : UInt8).toNat % 64) % 64 = 1 := by decide
    simp only [stamps, corner, row, column, glyph]
    decide
  rw [cycled]
  refine ⟨rfl, ?_, ?_, last, drawn, restored, ?_⟩
  · rw [pixels, stamped]
    exact congrArg (· ^^ true) (Screen.pixel_blank 0 0)
  · rw [flag, if_neg]
    simp only [Screen.darkens, decide_eq_true_iff]
    rintro ⟨px, py, lit, -⟩
    exact Bool.false_ne_true ((Screen.pixel_blank px py).symm.trans lit)
  · exact collided.mpr ⟨1, 1, by decide, by decide, congrArg (Screen.bit · 1) glyph,
      Screen.pixel_blank _ _⟩

end Machine

end Chip8
