import Mathlib.Data.List.Nodup
import Chip8.Instruction.Format
import Chip8.Proofs.Decoding

/-!
# The decoder and the table of formats

The decoder takes a word apart digit by digit; the table has a format for each instruction. A format
fits a word exactly if the word decodes to its instruction, so no two formats fit one word. Where
the operands of an instruction fit their places, its word has the bits that its format fixes, and
the operands can be read off it again.
-/

namespace Chip8

namespace Word

theorem and_outer {n k : Nat} (word : n < 2 ^ 16) (narrow : k ≤ 12) :
    n &&& (15 <<< 12 ||| (2 ^ k - 1)) = 4096 * (n / 4096) + n % 2 ^ k := by
  have leading : n &&& 15 <<< 12 = (n / 4096) <<< 12 := by
    apply Nat.eq_of_testBit_eq
    intro b
    rw [Nat.testBit_and, Nat.testBit_shiftLeft, Nat.testBit_shiftLeft,
      Nat.testBit_two_pow_sub_one 4, Nat.testBit_div_two_pow n (n := 12)]
    by_cases high : 16 ≤ b
    · have none : n.testBit b = false :=
        Nat.testBit_lt_two_pow (Nat.lt_of_lt_of_le word (Nat.pow_le_pow_right (by decide) high))
      have same : 12 + (b - 12) = b := by omega
      simp [none, same, Nat.add_comm]
    · by_cases low : 12 ≤ b
      · have digit : b - 12 < 4 := by omega
        simp [low, digit]
      · simp [low]
  have low : n % 2 ^ k < 2 ^ 12 :=
    Nat.lt_of_lt_of_le (Nat.mod_lt n (Nat.two_pow_pos k)) (Nat.pow_le_pow_right (by decide) narrow)
  rw [Nat.and_or_distrib_left, Nat.and_two_pow_sub_one_eq_mod, leading,
    ← Nat.shiftLeft_add_eq_or_of_lt low, Nat.shiftLeft_eq, Nat.mul_comm]

theorem and_eq_iff {w mask fixed : UInt16} (k : Nat) (narrow : k ≤ 12)
    (outer : mask.toNat = 15 <<< 12 ||| (2 ^ k - 1)) : w &&& mask = fixed ↔
      w.toNat / 4096 = fixed.toNat / 4096 ∧ w.toNat % 2 ^ k = fixed.toNat % 4096 := by
  have low : w.toNat % 2 ^ k < 2 ^ 12 :=
    Nat.lt_of_lt_of_le (Nat.mod_lt _ (Nat.two_pow_pos k)) (Nat.pow_le_pow_right (by decide) narrow)
  rw [← UInt16.toNat_inj, UInt16.toNat_and, outer, and_outer (UInt16.toNat_lt w) narrow]
  constructor <;> omega

/- What a word and the fixed bits of a format that fits it have in common, for each of the four
masks. -/

variable {w fixed : UInt16}

theorem digit_of_and {mask : UInt16} (k : Nat) (narrow : k ≤ 12)
    (outer : mask.toNat = 15 <<< 12 ||| (2 ^ k - 1)) (same : w &&& mask = fixed) :
    digit w 3 = digit fixed 3 ∧ w.toNat % 2 ^ k = fixed.toNat % 4096 := by
  obtain ⟨leading, low⟩ := (and_eq_iff k narrow outer).mp same
  refine ⟨?_, low⟩
  apply UInt8.toNat_inj.mp
  rw [toNat_digit w 3 (by decide), toNat_digit fixed 3 (by decide)]
  simp only [UInt16.reduceToNat, Nat.reducePow]
  rw [leading]

theorem of_and_family (same : w &&& 0xF000 = fixed) : digit w 3 = digit fixed 3 :=
  (digit_of_and 0 (by decide) (by decide) same).1

theorem of_and_lastDigit (same : w &&& 0xF00F = fixed) :
    digit w 3 = digit fixed 3 ∧ digit w 0 = digit fixed 0 := by
  obtain ⟨leading, low⟩ := digit_of_and 4 (by decide) (by decide) same
  refine ⟨leading, ?_⟩
  apply UInt8.toNat_inj.mp
  rw [toNat_digit w 0 (by decide), toNat_digit fixed 0 (by decide)]
  simp only [UInt16.reduceToNat, Nat.reducePow, Nat.pow_zero, Nat.div_one] at low ⊢
  omega

theorem of_and_lastByte (same : w &&& 0xF0FF = fixed) :
    digit w 3 = digit fixed 3 ∧ w.toUInt8 = fixed.toUInt8 := by
  obtain ⟨leading, low⟩ := digit_of_and 8 (by decide) (by decide) same
  refine ⟨leading, ?_⟩
  apply UInt8.toNat_inj.mp
  rw [UInt16.toNat_toUInt8, UInt16.toNat_toUInt8]
  simp only [Nat.reducePow] at low ⊢
  omega

theorem of_and_whole (same : w &&& 0xFFFF = fixed) : w = fixed := by
  rwa [show (0xFFFF : UInt16) = -1 from rfl, UInt16.and_neg_one] at same

end Word

namespace Format

variable {w : UInt16} {i : Instruction} {f : Format}

theorem x_of_number {r : UInt8} (number : r.toNat = w.toNat / 256 % 16) : x w = r := by
  apply UInt8.toNat_inj.mp
  simp only [x, UInt8.toNat_ofNat', number]
  omega

theorem y_of_number {r : UInt8} (number : r.toNat = w.toNat / 16 % 16) : y w = r := by
  apply UInt8.toNat_inj.mp
  simp only [y, UInt8.toNat_ofNat', number]
  omega

theorem n_of_number {d : UInt8} (number : d.toNat = w.toNat % 16) : n w = d := by
  apply UInt8.toNat_inj.mp
  simp only [n, UInt8.toNat_ofNat', number]
  omega

theorem kk_of_number {b : UInt8} (number : b.toNat = w.toNat % 256) : kk w = b := by
  apply UInt8.toNat_inj.mp
  simp only [kk, UInt8.toNat_ofNat', number]
  omega

theorem nnn_of_number {a : UInt16} (number : a.toNat = w.toNat % 4096) : nnn w = a := by
  apply UInt16.toNat_inj.mp
  simp only [nnn, UInt16.toNat_ofNat', number]
  omega

theorem x_eq (w : UInt16) : x w = Word.digit w 2 :=
  x_of_number (Word.toNat_digit w 2 (by decide))

theorem y_eq (w : UInt16) : y w = Word.digit w 1 :=
  y_of_number (Word.toNat_digit w 1 (by decide))

theorem n_eq (w : UInt16) : n w = Word.digit w 0 := by
  apply n_of_number
  rw [Word.toNat_digit w 0 (by decide)]
  simp only [UInt16.reduceToNat, Nat.pow_zero, Nat.div_one]

theorem kk_eq (w : UInt16) : kk w = w.toUInt8 :=
  kk_of_number (UInt16.toNat_toUInt8 w)

theorem nnn_eq (w : UInt16) : nnn w = w &&& 0xFFF :=
  nnn_of_number (Word.toNat_lastThree w)

theorem decode?_of_fits (member : f ∈ table) (fits : f.fits w = true) :
    Instruction.decode? w = some (f.instruction w) := by
  simp only [table, List.mem_cons, List.not_mem_nil, or_false] at member
  rcases member with rfl | rfl | rfl | rfl | rfl | rfl | rfl | rfl | rfl | rfl | rfl | rfl | rfl |
    rfl | rfl | rfl | rfl | rfl | rfl | rfl | rfl | rfl | rfl | rfl | rfl | rfl | rfl | rfl | rfl |
    rfl | rfl | rfl | rfl | rfl
  -- One way for each mask; the first that applies is the one.
  all_goals
    simp only [Format.fits, decide_eq_true_eq] at fits
    simp only [x_eq, y_eq, n_eq, kk_eq, nnn_eq]
    first
    | rw [Word.of_and_whole fits]
      rfl
    | simp only [Instruction.decode?, Word.of_and_family fits]
      rfl
    | obtain ⟨leading, last⟩ := Word.of_and_lastDigit fits
      simp only [Instruction.decode?, leading, last]
      rfl
    | obtain ⟨leading, last⟩ := Word.of_and_lastByte fits
      simp only [Instruction.decode?, leading, last]
      rfl

end Format

def Condition.place : Condition → Nat
  | .equalsByte _ _ => 4
  | .differsFromByte _ _ => 5
  | .equals _ _ => 6
  | .differs _ _ => 18
  | .pressed _ => 23
  | .released _ => 24

def Operation.place : Operation → Nat
  | .copy => 9
  | .or => 10
  | .and => 11
  | .xor => 12
  | .add => 13
  | .sub => 14
  | .shiftRight => 15
  | .subFrom => 16
  | .shiftLeft => 17

/-- The place in the table of the format of an instruction. -/
def Instruction.place : Instruction → Nat
  | .clear => 0
  | .ret => 1
  | .jump _ => 2
  | .call _ => 3
  | .skip condition => condition.place
  | .load _ _ => 7
  | .add _ _ => 8
  | .combine op _ _ => op.place
  | .setIndex _ => 19
  | .jumpOffset _ _ => 20
  | .random _ _ => 21
  | .draw _ _ _ => 22
  | .readDelay _ => 25
  | .awaitKey _ => 26
  | .setDelay _ => 27
  | .setSound _ => 28
  | .addIndex _ => 29
  | .pointGlyph _ => 30
  | .storeDecimal _ => 31
  | .storeRegisters _ => 32
  | .loadRegisters _ => 33

namespace Format

variable {w : UInt16} {i : Instruction} {f : Format}

theorem map_place_table (w : UInt16) :
    table.map (fun f => (f.instruction w).place) = List.range 34 := rfl

/- The operands that a word was put together from can be read off it, if each fits its place. -/

section Operands

variable {family nnn : UInt16} {x y n : UInt8}

theorem nnn_ofAddress (digit : family.toNat ≤ 15) (fits : nnn.toNat ≤ 0xFFF) :
    Format.nnn (Word.ofAddress family nnn) = nnn := by
  have number := Word.toNat_ofAddress family nnn digit (by omega)
  exact nnn_of_number (by omega)

theorem x_ofAddress (digit : family.toNat ≤ 15) (fits : nnn.toNat ≤ 0xFFF)
    (top : x.toNat = nnn.toNat / 256) : Format.x (Word.ofAddress family nnn) = x := by
  have number := Word.toNat_ofAddress family nnn digit (by omega)
  exact x_of_number (by omega)

theorem x_ofByte (kk : UInt8) (digit : family.toNat ≤ 15) (register : x.toNat ≤ 15) :
    Format.x (Word.ofByte family x kk) = x := by
  have number := Word.toNat_ofByte family x kk digit register
  have byte : kk.toNat < 256 := UInt8.toNat_lt kk
  exact x_of_number (by omega)

theorem kk_ofByte (kk : UInt8) (digit : family.toNat ≤ 15) (register : x.toNat ≤ 15) :
    Format.kk (Word.ofByte family x kk) = kk := by
  have number := Word.toNat_ofByte family x kk digit register
  have byte : kk.toNat < 256 := UInt8.toNat_lt kk
  exact kk_of_number (by omega)

theorem x_ofDigits (digit : family.toNat ≤ 15) (first : x.toNat ≤ 15) (second : y.toNat ≤ 15)
    (last : n.toNat ≤ 15) : Format.x (Word.ofDigits family x y n) = x := by
  have number := Word.toNat_ofDigits family x y n digit first second last
  exact x_of_number (by omega)

theorem y_ofDigits (digit : family.toNat ≤ 15) (first : x.toNat ≤ 15) (second : y.toNat ≤ 15)
    (last : n.toNat ≤ 15) : Format.y (Word.ofDigits family x y n) = y := by
  have number := Word.toNat_ofDigits family x y n digit first second last
  exact y_of_number (by omega)

theorem n_ofDigits (digit : family.toNat ≤ 15) (first : x.toNat ≤ 15) (second : y.toNat ≤ 15)
    (last : n.toNat ≤ 15) : Format.n (Word.ofDigits family x y n) = n := by
  have number := Word.toNat_ofDigits family x y n digit first second last
  exact n_of_number (by omega)

variable {fixed : UInt16}

theorem ofAddress_fits (digit : family.toNat ≤ 15) (fits : nnn.toNat ≤ 0xFFF)
    (leading : fixed.toNat = 4096 * family.toNat) :
    decide (Word.ofAddress family nnn &&& (0xF000 : UInt16) = fixed) = true := by
  have number := Word.toNat_ofAddress family nnn digit (by omega)
  apply decide_eq_true
  apply (Word.and_eq_iff 0 (by decide) (by decide)).mpr
  omega

theorem ofByte_fits_family (kk : UInt8) (digit : family.toNat ≤ 15) (register : x.toNat ≤ 15)
    (leading : fixed.toNat = 4096 * family.toNat) :
    decide (Word.ofByte family x kk &&& (0xF000 : UInt16) = fixed) = true := by
  have number := Word.toNat_ofByte family x kk digit register
  have byte : kk.toNat < 256 := UInt8.toNat_lt kk
  apply decide_eq_true
  apply (Word.and_eq_iff 0 (by decide) (by decide)).mpr
  omega

theorem ofByte_fits (kk : UInt8) (digit : family.toNat ≤ 15) (register : x.toNat ≤ 15)
    (outer : fixed.toNat = 4096 * family.toNat + kk.toNat) :
    decide (Word.ofByte family x kk &&& (0xF0FF : UInt16) = fixed) = true := by
  have number := Word.toNat_ofByte family x kk digit register
  have byte : kk.toNat < 256 := UInt8.toNat_lt kk
  apply decide_eq_true
  apply (Word.and_eq_iff 8 (by decide) (by decide)).mpr
  omega

theorem ofDigits_fits_family (digit : family.toNat ≤ 15) (first : x.toNat ≤ 15)
    (second : y.toNat ≤ 15) (last : n.toNat ≤ 15) (leading : fixed.toNat = 4096 * family.toNat) :
    decide (Word.ofDigits family x y n &&& (0xF000 : UInt16) = fixed) = true := by
  have number := Word.toNat_ofDigits family x y n digit first second last
  apply decide_eq_true
  apply (Word.and_eq_iff 0 (by decide) (by decide)).mpr
  omega

theorem ofDigits_fits (digit : family.toNat ≤ 15) (first : x.toNat ≤ 15)
    (second : y.toNat ≤ 15) (last : n.toNat ≤ 15)
    (outer : fixed.toNat = 4096 * family.toNat + n.toNat) :
    decide (Word.ofDigits family x y n &&& (0xF00F : UInt16) = fixed) = true := by
  have number := Word.toNat_ofDigits family x y n digit first second last
  apply decide_eq_true
  apply (Word.and_eq_iff 4 (by decide) (by decide)).mpr
  omega

end Operands

theorem condition_fits {condition : Condition} (fits : condition.Fits) :
    ∃ f, table[condition.place]? = some f ∧ f.fits condition.encode = true ∧
      f.instruction condition.encode = .skip condition := by
  cases condition with
  | equalsByte x kk | differsFromByte x kk =>
    exact ⟨_, rfl, ofByte_fits_family kk (by decide) fits rfl, congrArg Instruction.skip
      (congrArg₂ _ (x_ofByte kk (by decide) fits) (kk_ofByte kk (by decide) fits))⟩
  | equals x y | differs x y =>
    obtain ⟨first, second⟩ := fits
    exact ⟨_, rfl, ofDigits_fits (by decide) first second (by decide) rfl, congrArg Instruction.skip
      (congrArg₂ _ (x_ofDigits (by decide) first second (by decide))
        (y_ofDigits (by decide) first second (by decide)))⟩
  | pressed x | released x =>
    exact ⟨_, rfl, ofByte_fits _ (by decide) fits rfl, congrArg Instruction.skip
      (congrArg _ (x_ofByte _ (by decide) fits))⟩

theorem fits_of_operands (fits : i.Fits) : ∃ f, table[i.place]? = some f ∧
    f.fits i.encode = true ∧ f.instruction i.encode = i := by
  cases i with
  | clear | ret => exact ⟨_, rfl, rfl, rfl⟩
  | jump nnn | call nnn | setIndex nnn =>
    exact ⟨_, rfl, ofAddress_fits (by decide) fits rfl, congrArg _ (nnn_ofAddress (by decide) fits)⟩
  | jumpOffset x nnn =>
    obtain ⟨address, top⟩ := fits
    exact ⟨_, rfl, ofAddress_fits (by decide) address rfl, congrArg₂ _
      (x_ofAddress (by decide) address top) (nnn_ofAddress (by decide) address)⟩
  | skip condition => exact condition_fits fits
  | load x kk | add x kk | random x kk =>
    exact ⟨_, rfl, ofByte_fits_family kk (by decide) fits rfl,
      congrArg₂ _ (x_ofByte kk (by decide) fits) (kk_ofByte kk (by decide) fits)⟩
  | combine op x y =>
    obtain ⟨first, second⟩ := fits
    have last : op.code.toNat ≤ 15 := by cases op <;> decide
    cases op <;> exact ⟨_, rfl, ofDigits_fits (by decide) first second last rfl,
      congrArg₂ _ (x_ofDigits (by decide) first second last)
        (y_ofDigits (by decide) first second last)⟩
  | draw x y n =>
    obtain ⟨first, second, last⟩ := fits
    have digit : (0xD : UInt16).toNat ≤ 15 := by decide
    refine ⟨_, rfl, ofDigits_fits_family digit first second last rfl, ?_⟩
    simp only [Instruction.encode, x_ofDigits digit first second last,
      y_ofDigits digit first second last, n_ofDigits digit first second last]
  | _ => exact ⟨_, rfl, ofByte_fits _ (by decide) fits rfl, congrArg _ (x_ofByte _ (by decide) fits)⟩

theorem getElem?_place (member : f ∈ table) (w : UInt16) :
    table[(f.instruction w).place]? = some f := by
  obtain ⟨k, inside, rfl⟩ := List.mem_iff_getElem.mp member
  have place : (table[k].instruction w).place = k := by
    have same := congrArg (fun places => places[k]?) (map_place_table w)
    simp only [List.getElem?_map, List.getElem?_eq_getElem inside, Option.map_some] at same
    rw [List.getElem?_range (show k < 34 from inside)] at same
    exact Option.some.inj same
  rw [place, List.getElem?_eq_getElem inside]

theorem exists_fits_of_decode? (decoded : Instruction.decode? w = some i) :
    ∃ f ∈ table, f.fits w = true ∧ f.instruction w = i := by
  obtain ⟨rfl, operands⟩ := Instruction.of_decode? decoded
  obtain ⟨f, place, fits, instruction⟩ := fits_of_operands operands
  exact ⟨f, List.mem_of_getElem? place, fits, instruction⟩

/- The formats of the table have different instructions, so no word fits two of them. -/
theorem countP_fits (member : f ∈ table) (fits : f.fits w = true) :
    table.countP (·.fits w) = 1 := by
  have decoded := decode?_of_fits member fits
  have same : ∀ g ∈ table, g.fits w = true ↔ (g.instruction w).place = (f.instruction w).place := by
    intro g other
    constructor
    · intro fits'
      have decoded' := decode?_of_fits other fits'
      rw [Option.some.inj (decoded'.symm.trans decoded)]
    · intro place
      have there := getElem?_place other w
      rw [place, getElem?_place member w] at there
      cases Option.some.inj there
      exact fits
  have inside : (f.instruction w).place ∈ List.range 34 := by
    rw [← map_place_table w]
    exact List.mem_map_of_mem member
  calc table.countP (·.fits w)
      = table.countP ((· == (f.instruction w).place) ∘ fun g => (g.instruction w).place) := by
        apply List.countP_congr
        intro g other
        simpa using same g other
    _ = (List.range 34).count (f.instruction w).place := by
        rw [← List.countP_map, map_place_table, List.count]
    _ = 1 := List.count_eq_one_of_mem List.nodup_range inside

end Format

namespace Instruction

variable {w : UInt16} {i : Instruction}

theorem decode_eq_ok_iff : decode w = .ok i ↔ decode? w = some i := by
  unfold decode
  split <;> simp_all

theorem decode?_encode_iff : decode? i.encode = some i ↔ i.Fits := by
  constructor
  · intro decoded
    exact (of_decode? decoded).2
  · intro operands
    obtain ⟨f, place, fits, instruction⟩ := Format.fits_of_operands operands
    rw [Format.decode?_of_fits (List.mem_of_getElem? place) fits, instruction]

/-- Decoding and encoding undo each other. A word decodes exactly if it fits a format of the
instruction set; it then fits no other, its instruction is that of the format, with operands that
fit their places, and has the word for its own. An instruction comes back from its word exactly if
its operands fit. -/
theorem decode_inverts_encode :
    Format.table.length = 34 ∧
    (∀ w, ((∃ i, decode w = .ok i) ↔ ∃ f ∈ Format.table, f.fits w = true) ∧
      (∀ f ∈ Format.table, f.fits w = true → Format.table.countP (·.fits w) = 1 ∧
        decode w = .ok (f.instruction w) ∧ (f.instruction w).Fits ∧
        (f.instruction w).encode = w) ∧
      ((∀ f ∈ Format.table, f.fits w = false) → decode w = .error ⟨w⟩)) ∧
    ∀ i : Instruction, decode i.encode = .ok i ↔ i.Fits := by
  refine ⟨rfl, ?_, ?_⟩
  · intro w
    refine ⟨?_, ?_, ?_⟩
    · constructor
      · rintro ⟨i, decoded⟩
        obtain ⟨f, member, fits, -⟩ := Format.exists_fits_of_decode? (decode_eq_ok_iff.mp decoded)
        exact ⟨f, member, fits⟩
      · rintro ⟨f, member, fits⟩
        exact ⟨f.instruction w, decode_eq_ok_iff.mpr (Format.decode?_of_fits member fits)⟩
    · intro f member fits
      have decoded := Format.decode?_of_fits member fits
      obtain ⟨word, operands⟩ := of_decode? decoded
      exact ⟨Format.countP_fits member fits, decode_eq_ok_iff.mpr decoded, operands, word⟩
    · intro none
      cases decoded : decode? w with
      | none => simp only [decode, decoded]
      | some i =>
        obtain ⟨f, member, fits, -⟩ := Format.exists_fits_of_decode? decoded
        rw [none f member] at fits
        contradiction
  · intro i
    exact decode_eq_ok_iff.trans decode?_encode_iff

end Instruction

end Chip8
