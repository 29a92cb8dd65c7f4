import Mathlib.Data.Nat.Bitwise
import Chip8.Instruction.Encoding

namespace Chip8

namespace Word

theorem toNat_digit (w k : UInt16) (place : k.toNat < 4) :
    (digit w k).toNat = w.toNat / 16 ^ k.toNat % 16 := by
  have shift : (4 * k).toNat % 16 = 4 * k.toNat := by
    rw [UInt16.toNat_mul]
    simp only [UInt16.reduceToNat]
    omega
  have low : (w >>> (4 * k) &&& 0xF).toNat = w.toNat / 16 ^ k.toNat % 16 := by
    rw [UInt16.toNat_and, UInt16.toNat_shiftRight, shift, Nat.shiftRight_eq_div_pow, Nat.pow_mul]
    exact Nat.and_two_pow_sub_one_eq_mod _ 4
  rw [digit, UInt16.toNat_toUInt8, low]
  omega

theorem digit_le (w k : UInt16) (place : k.toNat < 4) : (digit w k).toNat ≤ 15 := by
  rw [toNat_digit w k place]
  omega

theorem toNat_lastThree (w : UInt16) : (w &&& 0xFFF).toNat = w.toNat % 4096 := by
  rw [UInt16.toNat_and]
  exact Nat.and_two_pow_sub_one_eq_mod w.toNat 12

theorem lastThree_of_operand {w nnn : UInt16} (operand : nnn.toNat = w.toNat % 4096) :
    w &&& 0xFFF = nnn := by
  apply UInt16.toNat_inj.mp
  rw [toNat_lastThree, operand]

theorem toNat_shiftLeft_or (a b k : UInt16) (narrow : k.toNat < 16)
    (fits : a.toNat * 2 ^ k.toNat < 2 ^ 16) (below : b.toNat < 2 ^ k.toNat) :
    (a <<< k ||| b).toNat = a.toNat * 2 ^ k.toNat + b.toNat := by
  rw [UInt16.toNat_or, UInt16.toNat_shiftLeft, Nat.mod_eq_of_lt narrow,
    Nat.mod_eq_of_lt (by rw [Nat.shiftLeft_eq]; exact fits),
    ← Nat.shiftLeft_add_eq_or_of_lt below, Nat.shiftLeft_eq]

theorem toNat_ofAddress (family nnn : UInt16) (digit : family.toNat ≤ 15) (fits : nnn.toNat < 4096) :
    (ofAddress family nnn).toNat = 4096 * family.toNat + nnn.toNat := by
  have sum := toNat_shiftLeft_or family nnn 12 (by decide) (by simp; omega) (by simpa using fits)
  rw [ofAddress, sum, Nat.mul_comm]
  rfl

theorem toNat_ofByte (family : UInt16) (x kk : UInt8) (digit : family.toNat ≤ 15)
    (register : x.toNat ≤ 15) :
    (ofByte family x kk).toNat = 4096 * family.toNat + 256 * x.toNat + kk.toNat := by
  have byte : kk.toNat < 256 := UInt8.toNat_lt kk
  have lower : (x.toUInt16 <<< 8 ||| kk.toUInt16).toNat = 256 * x.toNat + kk.toNat := by
    rw [toNat_shiftLeft_or _ _ 8 (by decide) (by simp; omega) (by simpa using byte)]
    simp [Nat.mul_comm]
  rw [ofByte, UInt16.or_assoc, toNat_shiftLeft_or _ _ 12 (by decide) (by simp; omega)
    (by rw [lower]; simp; omega), lower]
  simp
  omega

theorem toNat_ofDigits (family : UInt16) (x y n : UInt8) (digit : family.toNat ≤ 15)
    (first : x.toNat ≤ 15) (second : y.toNat ≤ 15) (last : n.toNat ≤ 15) :
    (ofDigits family x y n).toNat =
      4096 * family.toNat + 256 * x.toNat + 16 * y.toNat + n.toNat := by
  have lowest : (y.toUInt16 <<< 4 ||| n.toUInt16).toNat = 16 * y.toNat + n.toNat := by
    rw [toNat_shiftLeft_or _ _ 4 (by decide) (by simp; omega) (by simp; omega)]
    simp [Nat.mul_comm]
  have lower : (x.toUInt16 <<< 8 ||| (y.toUInt16 <<< 4 ||| n.toUInt16)).toNat =
      256 * x.toNat + 16 * y.toNat + n.toNat := by
    rw [toNat_shiftLeft_or _ _ 8 (by decide) (by simp; omega) (by rw [lowest]; simp; omega),
      lowest]
    simp
    omega
  rw [ofDigits, UInt16.or_assoc, UInt16.or_assoc,
    toNat_shiftLeft_or _ _ 12 (by decide) (by simp; omega) (by rw [lower]; simp; omega), lower]
  simp
  omega

theorem ofAddress_parts (family nnn : UInt16) (digit : family.toNat ≤ 15)
    (fits : nnn.toNat ≤ 0xFFF) :
    (ofAddress family nnn).toNat / 4096 = family.toNat ∧
      nnn.toNat = (ofAddress family nnn).toNat % 4096 := by
  rw [toNat_ofAddress family nnn digit (by omega)]
  omega

variable {w family : UInt16}

theorem ofAddress_of_digit (leading : (digit w 3).toNat = family.toNat) :
    ofAddress family (w &&& 0xFFF) = w := by
  have word : w.toNat < 65536 := UInt16.toNat_lt w
  rw [toNat_digit w 3 (by decide)] at leading
  apply UInt16.toNat_inj.mp
  rw [toNat_ofAddress _ _ (by omega) (by rw [toNat_lastThree]; omega), toNat_lastThree]
  simp only [UInt16.reduceToNat, Nat.reducePow] at leading
  omega

theorem ofByte_of_digit (leading : (digit w 3).toNat = family.toNat) :
    ofByte family (digit w 2) w.toUInt8 = w := by
  have word : w.toNat < 65536 := UInt16.toNat_lt w
  rw [toNat_digit w 3 (by decide)] at leading
  apply UInt16.toNat_inj.mp
  rw [toNat_ofByte _ _ _ (by omega) (digit_le w 2 (by decide)), toNat_digit w 2 (by decide),
    UInt16.toNat_toUInt8]
  simp only [UInt16.reduceToNat, Nat.reducePow] at leading ⊢
  omega

theorem ofDigits_of_digit (leading : (digit w 3).toNat = family.toNat) :
    ofDigits family (digit w 2) (digit w 1) (digit w 0) = w := by
  have word : w.toNat < 65536 := UInt16.toNat_lt w
  rw [toNat_digit w 3 (by decide)] at leading
  apply UInt16.toNat_inj.mp
  rw [toNat_ofDigits _ _ _ _ (by omega) (digit_le w 2 (by decide)) (digit_le w 1 (by decide))
    (digit_le w 0 (by decide)), toNat_digit w 2 (by decide), toNat_digit w 1 (by decide),
    toNat_digit w 0 (by decide)]
  simp only [UInt16.reduceToNat, Nat.reducePow] at leading ⊢
  omega

end Word

theorem Operation.code_of_ofCode? {n : UInt8} {op : Operation} (found : ofCode? n = some op) :
    op.code = n := by
  unfold ofCode? at found
  split at found
  all_goals first
    | cases Option.some.inj found; rfl
    | contradiction

def Condition.Fits : Condition → Prop
  | .equalsByte x _ | .differsFromByte x _ | .pressed x | .released x => x.toNat ≤ 15
  | .equals x y | .differs x y => x.toNat ≤ 15 ∧ y.toNat ≤ 15

namespace Instruction

/-- The operands of an instruction fit their places in a word. The register of an offset jump is
the top digit of its address. -/
def Fits : Instruction → Prop
  | .clear | .ret => True
  | .jump nnn | .call nnn | .setIndex nnn => nnn.toNat ≤ 0xFFF
  | .jumpOffset x nnn => nnn.toNat ≤ 0xFFF ∧ x.toNat = nnn.toNat / 256
  | .skip condition => condition.Fits
  | .combine _ x y => x.toNat ≤ 15 ∧ y.toNat ≤ 15
  | .draw x y n => x.toNat ≤ 15 ∧ y.toNat ≤ 15 ∧ n.toNat ≤ 15
  | .load x _ | .add x _ | .random x _ | .readDelay x | .awaitKey x | .setDelay x | .setSound x
  | .addIndex x | .pointGlyph x | .storeDecimal x | .storeRegisters x | .loadRegisters x =>
    x.toNat ≤ 15

theorem of_ofLastByte? {x kk : UInt8} {i : Instruction} (found : ofLastByte? x kk = some i) :
    i.encode = Word.ofByte 0xF x kk ∧ (x.toNat ≤ 15 → i.Fits) := by
  unfold ofLastByte? at found
  split at found
  all_goals first
    | cases Option.some.inj found; exact ⟨rfl, id⟩
    | contradiction

/-- The one case analysis over the decoder. What a word decodes to has that word, and operands
that fit. -/
theorem of_decode? {w : UInt16} {i : Instruction} (decoded : decode? w = some i) :
    i.encode = w ∧ i.Fits := by
  have x : (Word.digit w 2).toNat ≤ 15 := Word.digit_le w 2 (by decide)
  have y : (Word.digit w 1).toNat ≤ 15 := Word.digit_le w 1 (by decide)
  have n : (Word.digit w 0).toNat ≤ 15 := Word.digit_le w 0 (by decide)
  have nnn : (w &&& 0xFFF).toNat ≤ 0xFFF := by rw [Word.toNat_lastThree]; omega
  simp only [decode?] at decoded
  split at decoded
  case h_1 =>
    split at decoded
    · rename_i clear; cases Option.some.inj decoded; exact ⟨clear.symm, trivial⟩
    · split at decoded
      · rename_i ret; cases Option.some.inj decoded; exact ⟨ret.symm, trivial⟩
      · contradiction
  case h_2 leading | h_3 leading | h_11 leading =>
    cases Option.some.inj decoded
    exact ⟨Word.ofAddress_of_digit (by rw [leading]; rfl), nnn⟩
  case h_4 leading | h_5 leading | h_7 leading | h_8 leading | h_13 leading =>
    cases Option.some.inj decoded
    exact ⟨Word.ofByte_of_digit (by rw [leading]; rfl), x⟩
  case h_6 leading | h_10 leading =>
    split at decoded
    · rename_i last
      cases Option.some.inj decoded
      refine ⟨?_, x, y⟩
      exact (congrArg _ last.symm).trans (Word.ofDigits_of_digit (by rw [leading]; rfl))
    · contradiction
  case h_9 leading =>
    obtain ⟨op, found, rfl⟩ := Option.map_eq_some_iff.mp decoded
    have last := Operation.code_of_ofCode? found
    exact ⟨(congrArg _ last).trans (Word.ofDigits_of_digit (by rw [leading]; rfl)), x, y⟩
  case h_12 leading =>
    cases Option.some.inj decoded
    refine ⟨Word.ofAddress_of_digit (by rw [leading]; rfl), nnn, ?_⟩
    rw [Word.toNat_digit w 2 (by decide), Word.toNat_lastThree]
    simp only [UInt16.reduceToNat, Nat.reducePow]
    omega
  case h_14 leading =>
    cases Option.some.inj decoded
    exact ⟨Word.ofDigits_of_digit (by rw [leading]; rfl), x, y, n⟩
  case h_15 leading =>
    have whole : Word.ofByte 0xE (Word.digit w 2) w.toUInt8 = w :=
      Word.ofByte_of_digit (by rw [leading]; rfl)
    split at decoded
    · rename_i last
      cases Option.some.inj decoded
      exact ⟨(congrArg _ last.symm).trans whole, x⟩
    · split at decoded
      · rename_i last
        cases Option.some.inj decoded
        exact ⟨(congrArg _ last.symm).trans whole, x⟩
      · contradiction
  case h_16 =>
    have top : Word.digit w 3 ≤ 15 := UInt8.le_iff_toNat_le.mpr (Word.digit_le w 3 (by decide))
    have leading : Word.digit w 3 = 15 := by grind
    have parts := of_ofLastByte? decoded
    exact ⟨parts.1.trans (Word.ofByte_of_digit (by rw [leading]; rfl)), parts.2 x⟩

variable {w nnn : UInt16} {x : UInt8}

theorem digit_of_leading (d : UInt8) (leading : w.toNat / 4096 = d.toNat) : Word.digit w 3 = d := by
  apply UInt8.toNat_inj.mp
  have byte : d.toNat < 256 := UInt8.toNat_lt d
  have word : w.toNat < 65536 := UInt16.toNat_lt w
  rw [Word.toNat_digit w 3 (by decide)]
  simp only [UInt16.reduceToNat, Nat.reducePow]
  omega

theorem decode?_jump_iff : decode? w = some (.jump nnn) ↔
    w.toNat / 4096 = 1 ∧ nnn.toNat = w.toNat % 4096 := by
  constructor
  · intro decoded
    obtain ⟨rfl, fits⟩ := of_decode? decoded
    exact Word.ofAddress_parts 0x1 nnn (by decide) fits
  · rintro ⟨leading, operand⟩
    simp only [decode?, digit_of_leading 0x1 leading, Word.lastThree_of_operand operand]

theorem decode?_call_iff : decode? w = some (.call nnn) ↔
    w.toNat / 4096 = 2 ∧ nnn.toNat = w.toNat % 4096 := by
  constructor
  · intro decoded
    obtain ⟨rfl, fits⟩ := of_decode? decoded
    exact Word.ofAddress_parts 0x2 nnn (by decide) fits
  · rintro ⟨leading, operand⟩
    simp only [decode?, digit_of_leading 0x2 leading, Word.lastThree_of_operand operand]

theorem decode?_jumpOffset_iff : decode? w = some (.jumpOffset x nnn) ↔
    w.toNat / 4096 = 0xB ∧ nnn.toNat = w.toNat % 4096 ∧ x.toNat = w.toNat / 256 % 16 := by
  constructor
  · intro decoded
    obtain ⟨rfl, fits, register⟩ := of_decode? decoded
    obtain ⟨leading, operand⟩ := Word.ofAddress_parts 0xB nnn (by decide) fits
    refine ⟨leading, operand, ?_⟩
    rw [register, operand, encode]
    omega
  · rintro ⟨leading, operand, register⟩
    have second : Word.digit w 2 = x := by
      apply UInt8.toNat_inj.mp
      rw [Word.toNat_digit w 2 (by decide), register]
      rfl
    simp only [decode?, digit_of_leading 0xB leading, Word.lastThree_of_operand operand, second]

theorem decode?_ret_iff : decode? w = some .ret ↔ w = 0x00EE := by
  constructor
  · exact fun decoded => (of_decode? decoded).1.symm
  · rintro rfl
    decide

theorem of_decode?_awaitKey (decoded : decode? w = some (.awaitKey x)) :
    x.toNat ≤ 15 ∧ w.toNat = 0xF00A + 256 * x.toNat := by
  obtain ⟨rfl, register⟩ := of_decode? decoded
  refine ⟨register, ?_⟩
  rw [encode, Word.toNat_ofByte _ _ _ (by decide) register]
  simp only [UInt16.reduceToNat, UInt8.reduceToNat]
  omega

end Instruction

end Chip8
