import Chip8.Proofs.Address
import Chip8.Proofs.Digits
import Chip8.Proofs.Pixels

/-!
# Checked parts

The parts of a machine once more, with their arithmetic done in natural numbers. Here a number that
leaves its range gives nothing, where the parts themselves would wrap around, and so does a lookup
outside of a vector. All of them turn out to give what the parts give, in every state except for a
pop, which depends on the depth of the call stack.
-/

namespace Chip8

namespace Checked

def between (low high n : Nat) : Option Nat :=
  if low ≤ n ∧ n ≤ high then some n else none

def word (n : Nat) : Option UInt16 :=
  if n < 2 ^ 16 then some (.ofNat n) else none

def apart (m n : Nat) : Option Unit :=
  if m = n then none else some ()

variable {α : Type} {size : Nat}

def put (values : Vector α size) (p : Nat) (value : α) : Option (Vector α size) :=
  if inside : p < size then some (values.set p value) else none

/-- The values with a row of others in place of those from `p` on. -/
def copy (values : Vector α size) (p : Nat) : List α → Option (Vector α size)
  | [] => some values
  | value :: rest => do
    let next ← put values p value
    copy next (p + 1) rest

theorem between_of_le {low high n : Nat} (above : low ≤ n) (below : n ≤ high) :
    between low high n = some n :=
  if_pos ⟨above, below⟩

theorem word_of_lt {n : Nat} (fits : n < 2 ^ 16) : word n = some (.ofNat n) :=
  if_pos fits

theorem apart_of_ne {m n : Nat} (differ : m ≠ n) : apart m n = some () :=
  if_neg differ

theorem put_of_lt (values : Vector α size) {p : Nat} (inside : p < size) (value : α) :
    put values p value = some (values.set p value) :=
  dif_pos inside

theorem copy_of_le (values : Vector α size) (p : Nat) (row : List α)
    (inside : p + row.length ≤ size) : ∃ copied, copy values p row = some copied ∧
      ∀ q (bound : q < size), copied[q] =
        if p ≤ q then row[q - p]?.getD values[q] else values[q] := by
  induction row generalizing values p with
  | nil => exact ⟨values, rfl, fun q bound => (ite_self _).symm⟩
  | cons value rest ih =>
    rw [List.length_cons] at inside
    have first : put values p value = some (values.set p value) := put_of_lt values (by omega) value
    obtain ⟨copied, rested, places⟩ := ih (values.set p value) (p + 1) (by omega)
    refine ⟨copied, by simp [copy, first, rested], ?_⟩
    intro q bound
    rw [places q bound, Vector.getElem_set]
    rcases Nat.lt_trichotomy q p with before | rfl | behind
    · rw [if_neg (by omega), if_neg (by omega), if_neg (by omega)]
    · rw [if_neg (by omega), if_pos rfl, if_pos (Nat.le_refl q), Nat.sub_self]
      rfl
    · have further : q - p = q - (p + 1) + 1 := by omega
      rw [if_pos (by omega), if_neg (by omega), if_pos (by omega), further,
        List.getElem?_cons_succ]

end Checked

namespace PerDigit

variable {α : Type}

def lookChecked (values : PerDigit α) (b : UInt8) : Option α :=
  values[(b &&& 0xF).toNat]?

def putChecked (values : PerDigit α) (b : UInt8) (value : α) : Option (PerDigit α) :=
  Checked.put values (b &&& 0xF).toNat value

theorem toNat_and_digit (b : UInt8) : (b &&& 0xF).toNat = (lastDigit b).val := by
  rw [UInt8.toNat_and]
  exact Nat.and_two_pow_sub_one_eq_mod b.toNat 4

@[simp] theorem lookChecked_eq (values : PerDigit α) (b : UInt8) :
    values.lookChecked b = some (values.look b) := by
  rw [lookChecked, toNat_and_digit]
  exact Vector.getElem?_eq_getElem (lastDigit b).isLt

@[simp] theorem putChecked_eq (values : PerDigit α) (b : UInt8) (value : α) :
    values.putChecked b value = some (values.put b value) := by
  rw [putChecked, toNat_and_digit]
  exact Checked.put_of_lt values (lastDigit b).isLt value

end PerDigit

namespace Registers

def getChecked (r : Registers) (x : UInt8) : Option UInt8 :=
  r.v.lookChecked x

def setChecked (r : Registers) (x value : UInt8) : Option Registers := do
  let v ← r.v.putChecked x value
  some { r with v }

def setFlagChecked (r : Registers) (b : Bool) : Option Registers :=
  r.setChecked flag (if b then 1 else 0)

def upToChecked (r : Registers) (x : UInt8) : Option (List UInt8) :=
  (List.range (x.toNat + 1)).mapM fun k => r.getChecked (UInt8.ofNat k)

def setFromChecked (r : Registers) (x : UInt8) : List UInt8 → Option Registers
  | [] => some r
  | value :: rest => do
    let next ← r.setChecked x value
    next.setFromChecked (x + 1) rest

variable (r : Registers) (x value : UInt8)

@[simp] theorem getChecked_eq : r.getChecked x = some (r.get x) :=
  PerDigit.lookChecked_eq r.v x

@[simp] theorem setChecked_eq : r.setChecked x value = some (r.set x value) := by
  simp [setChecked, set]

@[simp] theorem setFlagChecked_eq (b : Bool) : r.setFlagChecked b = some (r.setFlag b) :=
  r.setChecked_eq flag _

@[simp] theorem upToChecked_eq : r.upToChecked x = some (r.upTo x) := by
  simp only [upToChecked, getChecked_eq]
  exact List.mapM_pure

@[simp] theorem setFromChecked_eq (row : List UInt8) :
    r.setFromChecked x row = some (r.setFrom x row) := by
  induction row generalizing r x with
  | nil => rfl
  | cons value rest ih => simp [setFromChecked, setFrom, ih]

end Registers

def Keypad.isHeldChecked (k : Keypad) (key : UInt8) : Option Bool :=
  k.held.lookChecked key

@[simp] theorem Keypad.isHeldChecked_eq (k : Keypad) (key : UInt8) :
    k.isHeldChecked key = some (k.isHeld key) :=
  PerDigit.lookChecked_eq k.held key

namespace Memory

def getChecked (m : Memory) (a : UInt16) : Option UInt8 :=
  m.bytes[(Layout.wrap a).toNat]?

def setChecked (m : Memory) (a : UInt16) (value : UInt8) : Option Memory := do
  let bytes ← Checked.put m.bytes (Layout.wrap a).toNat value
  some { bytes }

def wordChecked (m : Memory) (a : UInt16) : Option UInt16 := do
  let upper ← m.getChecked a
  let lower ← m.getChecked (a + 1)
  some (upper.toUInt16 <<< 8 ||| lower.toUInt16)

def readChecked (m : Memory) (a : UInt16) (n : Nat) : Option (List UInt8) :=
  (List.range n).mapM fun k => m.getChecked (a + UInt16.ofNat k)

def writeChecked (m : Memory) (a : UInt16) : List UInt8 → Option Memory
  | [] => some m
  | value :: rest => do
    let next ← m.setChecked a value
    next.writeChecked (a + 1) rest

def ofRomChecked (rom : Rom) : Option Memory := do
  let fonts ← Checked.copy (.replicate 4096 0) Layout.fontOrigin.toNat Layout.font.toList
  let bytes ← Checked.copy fonts Layout.programOrigin.toNat rom.bytes.toList
  some { bytes }

variable (m : Memory) (a : UInt16)

@[simp] theorem getChecked_eq : m.getChecked a = some (m.get a) := by
  rw [getChecked, Layout.toNat_wrap]
  exact Vector.getElem?_eq_getElem (cell a).isLt

@[simp] theorem setChecked_eq (value : UInt8) : m.setChecked a value = some (m.set a value) := by
  have inside := Checked.put_of_lt m.bytes (cell a).isLt value
  simp only [setChecked, Layout.toNat_wrap]
  exact congrArg (·.bind fun bytes => some (mk bytes)) inside

@[simp] theorem wordChecked_eq : m.wordChecked a = some (m.word a) := by
  simp [wordChecked, word]

@[simp] theorem readChecked_eq (n : Nat) : m.readChecked a n = some (m.read a n) := by
  simp only [readChecked, getChecked_eq]
  exact List.mapM_pure

@[simp] theorem writeChecked_eq (row : List UInt8) :
    m.writeChecked a row = some (m.write a row) := by
  induction row generalizing m a with
  | nil => rfl
  | cons value rest ih => simp [writeChecked, write, ih]

@[simp] theorem ofRomChecked_eq (rom : Rom) : ofRomChecked rom = some (ofRom rom) := by
  have size : rom.bytes.size ≤ 3584 := rom.size_le
  have font : Layout.fontOrigin.toNat = 0 := rfl
  have origin : Layout.programOrigin.toNat = 512 := rfl
  obtain ⟨fonts, lettered, glyphs⟩ := Checked.copy_of_le (.replicate 4096 (0 : UInt8))
    Layout.fontOrigin.toNat Layout.font.toList (by decide)
  obtain ⟨bytes, loaded, places⟩ := Checked.copy_of_le fonts
    Layout.programOrigin.toNat rom.bytes.toList (by rw [origin, Array.length_toList]; omega)
  have same : bytes = (ofRom rom).bytes := by
    apply Vector.ext
    intro q bound
    rw [places q bound, glyphs q bound]
    simp only [ofRom, Vector.getElem_ofFn, initial, font, origin, Nat.zero_le, if_true, Nat.sub_zero,
      Vector.getElem_replicate, Vector.getElem?_toList, Array.getElem?_toList]
    by_cases low : q < 512
    · rw [if_neg (by omega), if_pos low]
    · rw [if_pos (by omega), if_neg low, Vector.getElem?_eq_none (by omega)]
      rfl
  simp [ofRomChecked, lettered, loaded, same]

end Memory

namespace CallStack

def pushChecked (s : CallStack) (a : UInt16) : Option (Option CallStack) :=
  if s.depth < 16 then do
    let slots ← Checked.put s.slots s.depth a
    let depth ← Checked.between 1 16 (s.depth + 1)
    some (some { slots, depth })
  else some none

def popChecked (s : CallStack) : Option (Option (UInt16 × CallStack)) :=
  match s.depth with
  | 0 => some none
  | d + 1 => do
    let a ← s.slots[d]?
    some (some (a, { s with depth := d }))

variable {s : CallStack}

theorem pushChecked_eq (s : CallStack) (a : UInt16) : s.pushChecked a = some (s.push? a) := by
  unfold pushChecked push?
  split
  · rename_i room
    simp [Checked.put_of_lt s.slots room a, Checked.between_of_le (Nat.succ_pos s.depth) room]
  · rfl

/- A depth that is out of bounds would have a pop look for a slot that is not there. -/
theorem popChecked_eq (inside : ∀ a t, s.pop? = some (a, t) → t.depth < 16) :
    s.popChecked = some s.pop? := by
  cases depth : s.depth with
  | zero => simp [popChecked, pop?, depth]
  | succ d =>
    have popped : s.pop? = some (s.slots[d]?.getD 0, { s with depth := d }) := by
      simp only [pop?, depth]
    have slot : d < 16 := inside _ _ popped
    rw [popped]
    simp [popChecked, depth, Vector.getElem?_eq_getElem slot]

end CallStack

namespace Screen

/-- Draws eight pixels over two neighbouring bytes, moved to the right by fewer than eight pixels in
the one and to the left by at most eight in the other. -/
def drawRowChecked (s : Screen) (bits x : UInt8) (y : Nat) : Option (Screen × Bool) := do
  let column := x.toNat / 8 % 8
  let left := 8 * (y % 32) + column
  let right := 8 * (y % 32) + (column + 1) % 8
  Checked.apart left right
  let shift ← Checked.between 0 7 (x.toNat % 8)
  let back ← Checked.between 1 8 (8 - shift)
  let leftBits := bits >>> UInt8.ofNat shift
  let rightBits := if back = 8 then 0 else bits <<< UInt8.ofNat back
  let leftByte ← s.bytes[left]?
  let rightByte ← s.bytes[right]?
  let bytes ← Checked.put s.bytes left (leftByte ^^^ leftBits)
  let spilled ← bytes[right]?
  let bytes ← Checked.put bytes right (spilled ^^^ rightBits)
  some ({ bytes }, leftByte &&& leftBits != 0 || rightByte &&& rightBits != 0)

def drawChecked (s : Screen) (sprite : List UInt8) (x : UInt8) (y : Nat) :
    Option (Screen × Bool) :=
  match sprite with
  | [] => some (s, false)
  | bits :: rest => do
    let first ← s.drawRowChecked bits x y
    let others ← first.1.drawChecked rest x (y + 1)
    some (others.1, first.2 || others.2)

theorem spread_left (bits x : UInt8) :
    (spread bits x >>> 8).toUInt8 = bits >>> UInt8.ofNat (x.toNat % 8) := by
  have byte : bits.toNat < 256 := bits.toNat_lt
  have split : 2 ^ 8 = 2 ^ (x.toNat % 8) * 2 ^ (8 - x.toNat % 8) := by
    rw [← Nat.pow_add, Nat.add_sub_cancel' (by omega)]
  have quotient : bits.toNat / 2 ^ (x.toNat % 8) < 256 :=
    Nat.lt_of_le_of_lt (Nat.div_le_self _ _) byte
  apply UInt8.toNat_inj.mp
  calc (spread bits x >>> 8).toUInt8.toNat
      = bits.toNat * 2 ^ (8 - x.toNat % 8) / 2 ^ 8 % 256 := by
        rw [UInt16.toNat_toUInt8, UInt16.toNat_shiftRight, toNat_spread, Nat.shiftRight_eq_div_pow]
        rfl
    _ = bits.toNat / 2 ^ (x.toNat % 8) := by
        rw [split, Nat.mul_div_mul_right _ _ (Nat.two_pow_pos _), Nat.mod_eq_of_lt quotient]
    _ = (bits >>> UInt8.ofNat (x.toNat % 8)).toNat := by
        rw [UInt8.toNat_shiftRight, Nat.shiftRight_eq_div_pow, UInt8.toNat_ofNat']
        congr 2
        omega

theorem spread_right (bits x : UInt8) : (spread bits x).toUInt8 =
    if 8 - x.toNat % 8 = 8 then 0 else bits <<< UInt8.ofNat (8 - x.toNat % 8) := by
  apply UInt8.toNat_inj.mp
  rw [UInt16.toNat_toUInt8, toNat_spread]
  split
  · rename_i whole
    rw [whole]
    exact Nat.mul_mod_left _ _
  · rename_i part
    have moved : (UInt8.ofNat (8 - x.toNat % 8)).toNat % 8 = 8 - x.toNat % 8 := by
      rw [UInt8.toNat_ofNat']
      omega
    rw [UInt8.toNat_shiftLeft, moved, Nat.shiftLeft_eq]

theorem drawRowChecked_eq (s : Screen) (bits x : UInt8) (y : Nat) :
    s.drawRowChecked bits x y = some (s.drawRow bits x y) := by
  have next : (x.toNat / 8 % 8 + 1) % 8 = (x.toNat / 8 + 1) % 8 := by omega
  have differ : 8 * (y % 32) + x.toNat / 8 % 8 ≠ 8 * (y % 32) + (x.toNat / 8 + 1) % 8 := by omega
  have left : 8 * (y % 32) + x.toNat / 8 % 8 < 256 := by omega
  have right : 8 * (y % 32) + (x.toNat / 8 + 1) % 8 < 256 := by omega
  have shift : Checked.between 0 7 (x.toNat % 8) = some (x.toNat % 8) :=
    Checked.between_of_le (Nat.zero_le _) (by omega)
  have back : Checked.between 1 8 (8 - x.toNat % 8) = some (8 - x.toNat % 8) :=
    Checked.between_of_le (by omega) (Nat.sub_le 8 _)
  simp [drawRowChecked, drawRow, place, next, Checked.apart_of_ne differ, shift, back,
    Vector.getElem?_eq_getElem left, Vector.getElem?_eq_getElem right, Checked.put_of_lt _ left,
    Checked.put_of_lt _ right, Vector.getElem_set_ne _ _ differ, spread_left, spread_right]

theorem drawChecked_eq (s : Screen) (sprite : List UInt8) (x : UInt8) (y : Nat) :
    s.drawChecked sprite x y = some (s.draw sprite x y) := by
  induction sprite generalizing s y with
  | nil => rfl
  | cons bits rest ih => simp [drawChecked, draw, drawRowChecked_eq, ih]

end Screen

end Chip8
