import Mathlib.Data.Nat.Bitwise
import Chip8.Machine.Execute

namespace Chip8

namespace Layout

theorem toNat_wrap (a : UInt16) : (wrap a).toNat = a.toNat % 4096 := by
  rw [wrap, addressMask, UInt16.toNat_and]
  exact Nat.and_two_pow_sub_one_eq_mod a.toNat 12

theorem wrap_lt (a : UInt16) : (wrap a).toNat < 4096 := by
  rw [toNat_wrap]
  exact Nat.mod_lt _ (by decide)

theorem wrap_of_lt {a : UInt16} (small : a.toNat < 4096) : wrap a = a := by
  apply UInt16.toNat_inj.mp
  rw [toNat_wrap, Nat.mod_eq_of_lt small]

end Layout

namespace Memory

theorem cell_wrap (a : UInt16) : cell (Layout.wrap a) = cell a := by
  apply Fin.ext
  simp only [cell, Layout.toNat_wrap, Nat.mod_mod]

theorem get_congr (m : Memory) {a b : UInt16} (same : cell a = cell b) : m.get a = m.get b := by
  simp only [get, same]

theorem cell_wrap_succ (a : UInt16) : cell (Layout.wrap a + 1) = cell (a + 1) := by
  apply Fin.ext
  simp only [cell, UInt16.toNat_add, Layout.toNat_wrap, UInt16.toNat_one]
  omega

theorem word_wrap (m : Memory) (a : UInt16) : m.word (Layout.wrap a) = m.word a := by
  rw [word, m.get_congr (cell_wrap a), m.get_congr (cell_wrap_succ a), word]

theorem toNat_word (m : Memory) (a : UInt16) :
    (m.word a).toNat = 256 * (m.get a).toNat + (m.get (a + 1)).toNat := by
  have upper : (m.get a).toNat < 256 := UInt8.toNat_lt _
  have lower : (m.get (a + 1)).toNat < 2 ^ 8 := UInt8.toNat_lt _
  have shifted : ((m.get a).toUInt16 <<< 8).toNat = (m.get a).toNat <<< 8 := by
    rw [UInt16.toNat_shiftLeft, UInt8.toNat_toUInt16]
    exact Nat.mod_eq_of_lt (by rw [Nat.shiftLeft_eq]; simp; omega)
  rw [word, UInt16.toNat_or, shifted, UInt8.toNat_toUInt16,
    ← Nat.shiftLeft_add_eq_or_of_lt lower, Nat.shiftLeft_eq]
  omega

theorem get_ofRom (rom : Rom) (a : UInt16) : (ofRom rom).get a = initial rom (a.toNat % 4096) := by
  simp only [get, ofRom, cell, Vector.getElem_ofFn]

/- The word at an address of a machine that was just loaded, without the rest of its memory. -/
theorem word_ofRom (rom : Rom) (a : UInt16) : (ofRom rom).word a =
    (initial rom (a.toNat % 4096)).toUInt16 <<< 8 |||
      (initial rom ((a + 1).toNat % 4096)).toUInt16 := by
  rw [word, get_ofRom, get_ofRom]

end Memory

namespace Machine

theorem toNat_after (a : UInt16) : (after a).toNat = (a.toNat + 2) % 4096 := by
  rw [after, Layout.toNat_wrap, UInt16.toNat_add]
  simp only [UInt16.reduceToNat]
  omega

theorem after_even {a : UInt16} (even : a.toNat % 2 = 0) : (after a).toNat % 2 = 0 := by
  rw [toNat_after]
  omega

theorem after_lt (a : UInt16) : (after a).toNat < 4096 :=
  Layout.wrap_lt _

theorem wrap_after_sub_two (a : UInt16) : Layout.wrap (after a - 2) = Layout.wrap a := by
  apply UInt16.toNat_inj.mp
  rw [Layout.toNat_wrap, Layout.toNat_wrap, UInt16.toNat_sub, toNat_after]
  simp only [UInt16.reduceToNat]
  omega

theorem toNat_offsetTarget (m : Machine) (x : UInt8) (nnn : UInt16) :
    (m.offsetTarget x nnn).toNat =
      (nnn.toNat + (m.registers.get (if m.dialect.offsetReadsX then x else 0)).toNat) % 4096 := by
  rw [offsetTarget, Layout.toNat_wrap, UInt16.toNat_add, UInt8.toNat_toUInt16]
  omega

theorem uint16_mod_two (a : UInt16) : a % 2 = 0 ↔ a.toNat % 2 = 0 := by
  rw [← UInt16.toNat_inj, UInt16.toNat_mod]
  rfl

end Machine

end Chip8
