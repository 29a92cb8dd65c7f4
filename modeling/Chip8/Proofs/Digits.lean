import Chip8.Keypad
import Chip8.Registers

namespace Chip8

variable {a b x y : UInt8}

namespace PerDigit

theorem lastDigit_inj (first : a.toNat ≤ 15) (second : b.toNat ≤ 15) :
    lastDigit a = lastDigit b ↔ a = b := by
  rw [Fin.ext_iff, ← UInt8.toNat_inj]
  simp only [lastDigit]
  omega

theorem look_put {α : Type} (values : PerDigit α) (value : α) (first : a.toNat ≤ 15)
    (second : b.toNat ≤ 15) :
    (values.put a value).look b = if b = a then value else values.look b := by
  have same : (lastDigit a).val = (lastDigit b).val ↔ b = a := by
    rw [← Fin.ext_iff, lastDigit_inj first second, eq_comm]
  simp only [look, put, Vector.getElem_set, same]

end PerDigit

theorem Registers.get_set (r : Registers) (value : UInt8) (first : x.toNat ≤ 15)
    (second : y.toNat ≤ 15) : (r.set x value).get y = if y = x then value else r.get y :=
  PerDigit.look_put r.v value first second

theorem Registers.get_setFlag (r : Registers) (b : Bool) (digit : y.toNat ≤ 15) :
    (r.setFlag b).get y = if y = flag then (if b then 1 else 0) else r.get y :=
  r.get_set _ (by decide) digit

namespace Keypad

theorem hasKey_iff : hasKey a = true ↔ a.toNat ≤ 15 := by
  rw [hasKey, decide_eq_true_eq, UInt8.lt_iff_toNat_lt]
  exact Nat.lt_succ_iff

theorem isHeld_set (k : Keypad) (pressed : Bool) (first : a.toNat ≤ 15) (second : b.toNat ≤ 15) :
    (k.set a pressed).isHeld b = if b = a then pressed else k.isHeld b := by
  rw [set, if_pos (hasKey_iff.mpr first)]
  exact PerDigit.look_put k.held pressed first second

theorem set_of_no_key (k : Keypad) (pressed : Bool) (off : 16 ≤ a.toNat) : k.set a pressed = k := by
  have none : ¬ hasKey a = true := by
    rw [hasKey_iff]
    omega
  rw [set, if_neg none]

@[simp] theorem isHeld_released (key : UInt8) : released.isHeld key = false := by
  simp only [isHeld, PerDigit.look, released, Vector.getElem_replicate]

theorem isHeld_mod (k : Keypad) (key : UInt8) : k.isHeld (key % 16) = k.isHeld key := by
  have digit : PerDigit.lastDigit (key % 16) = PerDigit.lastDigit key :=
    Fin.ext (Nat.mod_mod key.toNat 16)
  simp only [isHeld, PerDigit.look, digit]

/- Sixteen keys say all of a keypad. -/
theorem ext_isHeld {k l : Keypad} (same : ∀ key, key.toNat ≤ 15 → k.isHeld key = l.isHeld key) :
    k = l := by
  apply congrArg Keypad.mk
  apply Vector.ext
  intro n inside
  have number : (UInt8.ofNat n).toNat = n := by
    rw [UInt8.toNat_ofNat']
    omega
  have digit : (PerDigit.lastDigit (UInt8.ofNat n)).val = n := by
    simp only [PerDigit.lastDigit, number]
    omega
  have key := same (UInt8.ofNat n) (by omega)
  simpa only [isHeld, PerDigit.look, digit] using key

end Keypad

end Chip8
