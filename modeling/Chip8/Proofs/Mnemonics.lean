import Chip8.Instruction.Mnemonic
import Chip8.Proofs.Decoding
import Chip8.Proofs.Fields
import Chip8.Proofs.Numerals

/-!
# Reading mnemonics back

A line of assembler is read back as the instruction that it was written for: the name up to the
first space, the operands between commas, each operand by its first characters and its length. Only
the register of an offset jump is not in the line. So lines tell instructions apart but for that
register, and words as well, since the register can be read off the address.
-/

namespace Chip8

/-- The operand that a text stands for. Digits alone are a count; a number after `0x` is a byte if
it has two digits, and an address if it has more. -/
def Operand.read? (text : List Char) : Option Operand :=
  if text.all Char.isDigit then some (.count (.ofNat (Nat.ofDigitChars 10 text 0)))
  else
    match text with
    | 'V' :: digits => (Numeral.extend? 16 0 digits).map fun n => .register (.ofNat n)
    | '0' :: 'x' :: digits => (Numeral.extend? 16 0 digits).map fun n =>
        if digits.length ≤ 2 then .byte (.ofNat n) else .address (.ofNat n)
    | ['I'] => some .index
    | ['[', 'I', ']'] => some .atIndex
    | ['D', 'T'] => some .delay
    | ['S', 'T'] => some .sound
    | ['K'] => some .key
    | ['F'] => some .glyph
    | ['B'] => some .decimal
    | _ => none

def Mnemonic.read? (line : List Char) : Option Mnemonic :=
  match Fields.cut? ' ' line with
  | none => some ⟨String.ofList line, []⟩
  | some (name, rest) =>
    ((Fields.split ',' rest).mapM fun field => Operand.read? (field.dropWhile (· = ' '))).map
      (⟨String.ofList name, ·⟩)

def Operation.named? (name : String) : Option Operation :=
  [copy, or, and, xor, add, sub, shiftRight, subFrom, shiftLeft].find? (·.name = name)

def Mnemonic.instruction? (m : Mnemonic) : Option Instruction :=
  match m.name, m.operands with
  | "CLS", [] => some .clear
  | "RET", [] => some .ret
  | "JP", [.address nnn] => some (.jump nnn)
  | "CALL", [.address nnn] => some (.call nnn)
  | "SE", [.register x, .byte kk] => some (.skip (.equalsByte x kk))
  | "SNE", [.register x, .byte kk] => some (.skip (.differsFromByte x kk))
  | "SE", [.register x, .register y] => some (.skip (.equals x y))
  | "SNE", [.register x, .register y] => some (.skip (.differs x y))
  | "SKP", [.register x] => some (.skip (.pressed x))
  | "SKNP", [.register x] => some (.skip (.released x))
  | "LD", [.register x, .byte kk] => some (.load x kk)
  | "ADD", [.register x, .byte kk] => some (.add x kk)
  | "LD", [.index, .address nnn] => some (.setIndex nnn)
  | "JP", [.register x, .address nnn] => some (.jumpOffset x nnn)
  | "RND", [.register x, .byte kk] => some (.random x kk)
  | "DRW", [.register x, .register y, .count n] => some (.draw x y n)
  | "LD", [.register x, .delay] => some (.readDelay x)
  | "LD", [.register x, .key] => some (.awaitKey x)
  | "LD", [.delay, .register x] => some (.setDelay x)
  | "LD", [.sound, .register x] => some (.setSound x)
  | "ADD", [.index, .register x] => some (.addIndex x)
  | "LD", [.glyph, .register x] => some (.pointGlyph x)
  | "LD", [.decimal, .register x] => some (.storeDecimal x)
  | "LD", [.atIndex, .register x] => some (.storeRegisters x)
  | "LD", [.register x, .atIndex] => some (.loadRegisters x)
  | name, [.register x, .register y] => (Operation.named? name).map (.combine · x y)
  | _, _ => none

namespace Instruction

def read? (line : String) : Option Instruction :=
  (Mnemonic.read? line.toList).bind Mnemonic.instruction?

/-- The instruction as its line tells it, which is silent about the register of an offset jump. -/
def told : Instruction → Instruction
  | .jumpOffset _ nnn => .jumpOffset 0 nnn
  | i => i

end Instruction

namespace Operand

theorem toList_register (x : UInt8) :
    (register x).text.toList = 'V' :: (Numeral.hex 1 x.toNat).toList := by
  rw [text, String.toList_append]
  rfl

theorem toList_marked (width n : Nat) :
    (Numeral.marked width n).toList = '0' :: 'x' :: (Numeral.hex width n).toList := by
  rw [Numeral.marked, String.toList_append]
  rfl

theorem toList_count (n : UInt8) : (count n).text.toList = Nat.toDigits 10 n.toNat := by
  rw [text, Nat.toString_eq_ofList_toDigits, String.toList_ofList]

theorem read?_register (x : UInt8) : read? (register x).text.toList = some (.register x) := by
  have letter : ¬ ('V' :: (Numeral.hex 1 x.toNat).toList).all Char.isDigit := by simp
  rw [toList_register, read?, if_neg letter]
  simp only [Numeral.extend?_hex, Option.map_some, UInt8.ofNat_toNat]

theorem read?_marked (width n : Nat) : read? (Numeral.marked width n).toList =
    some (if max width (Nat.toDigits 16 n).length ≤ 2 then .byte (.ofNat n)
      else .address (.ofNat n)) := by
  have letter : ¬ ('0' :: 'x' :: (Numeral.hex width n).toList).all Char.isDigit := by simp
  rw [toList_marked, read?, if_neg letter]
  simp only [Numeral.extend?_hex, Option.map_some, Numeral.length_hex]

theorem read?_byte (kk : UInt8) : read? (byte kk).text.toList = some (.byte kk) := by
  have short : (Nat.toDigits 16 kk.toNat).length ≤ 2 :=
    (Nat.length_toDigits_le_iff (by decide) (by decide)).mpr kk.toNat_lt
  rw [text, read?_marked, if_pos (Nat.max_le.mpr ⟨Nat.le_refl 2, short⟩), UInt8.ofNat_toNat]

theorem read?_address (nnn : UInt16) : read? (address nnn).text.toList = some (.address nnn) := by
  have long : ¬ max 3 (Nat.toDigits 16 nnn.toNat).length ≤ 2 := by omega
  rw [text, read?_marked, if_neg long, UInt16.ofNat_toNat]

theorem read?_count (n : UInt8) : read? (count n).text.toList = some (.count n) := by
  have digits : (Nat.toDigits 10 n.toNat).all Char.isDigit := by
    rw [List.all_eq_true]
    exact fun c member => Nat.isDigit_of_mem_toDigits (by decide) (by decide) member
  rw [toList_count]
  unfold read?
  rw [if_pos digits, Nat.ofDigitChars_ten_toDigits, UInt8.ofNat_toNat]

theorem read?_text (o : Operand) : read? o.text.toList = some o := by
  cases o with
  | register x => exact read?_register x
  | byte kk => exact read?_byte kk
  | address nnn => exact read?_address nnn
  | count n => exact read?_count n
  | _ => decide

theorem plain_text (o : Operand) : ∀ c ∈ o.text.toList, c ≠ ' ' ∧ c ≠ ',' := by
  have hex : ∀ width n, ∀ c ∈ (Numeral.hex width n).toList, c ≠ ' ' ∧ c ≠ ',' := by
    intro width n c member
    obtain ⟨d, digit⟩ := Numeral.digit_of_extend? (Numeral.extend?_hex width n) c member
    constructor <;> rintro rfl <;> simp [Numeral.digit?] at digit
  have marked : ∀ width n, ∀ c ∈ (Numeral.marked width n).toList, c ≠ ' ' ∧ c ≠ ',' := by
    intro width n
    rw [toList_marked, List.forall_mem_cons, List.forall_mem_cons]
    exact ⟨by decide, by decide, hex width n⟩
  cases o with
  | register x =>
    rw [toList_register, List.forall_mem_cons]
    exact ⟨by decide, hex 1 x.toNat⟩
  | byte kk => exact marked 2 kk.toNat
  | address nnn => exact marked 3 nnn.toNat
  | count n =>
    rw [toList_count]
    intro c member
    have digit := Nat.isDigit_of_mem_toDigits (by decide) (by decide) member
    constructor <;> rintro rfl <;> simp at digit
  | _ => simp [text]

theorem read?_spaces {spaces : List Char} (white : ∀ c ∈ spaces, c = ' ') (o : Operand) :
    read? ((spaces ++ o.text.toList).dropWhile (· = ' ')) = some o := by
  have stays : o.text.toList.dropWhile (· = ' ') = o.text.toList := by
    cases first : o.text.toList with
    | nil => rfl
    | cons c rest =>
      have plain := (o.plain_text c (first ▸ List.mem_cons_self)).1
      exact List.dropWhile_cons_of_neg (by simpa using plain)
  rw [List.dropWhile_append_of_pos fun c member => decide_eq_true (white c member), stays]
  exact o.read?_text

theorem comma_notMem_text {spaces : List Char} (white : ∀ c ∈ spaces, c = ' ') (o : Operand) :
    ',' ∉ spaces ++ o.text.toList := by
  intro member
  rcases List.mem_append.mp member with member | member
  · exact absurd (white _ member) (by decide)
  · exact (o.plain_text _ member).2 rfl

/- The operands of a line are read one after the other. All but the first have a space in front of
them, so spaces are allowed in front of the first as well. -/
theorem mapM_read?_split (o : Operand) (operands : List Operand) (spaces : List Char)
    (white : ∀ c ∈ spaces, c = ' ') :
    (Fields.split ',' (spaces ++ (", ".intercalate ((o :: operands).map text)).toList)).mapM
      (fun field => read? (field.dropWhile (· = ' '))) = some (o :: operands) := by
  induction operands generalizing o spaces with
  | nil =>
    rw [List.map_singleton, String.intercalate_singleton,
      Fields.split_of_notMem (comma_notMem_text white o), List.mapM_cons, read?_spaces white o]
    rfl
  | cons next rest ih =>
    have joined : spaces ++ (", ".intercalate ((o :: next :: rest).map text)).toList =
        (spaces ++ o.text.toList) ++
          ',' :: ([' '] ++ (", ".intercalate ((next :: rest).map text)).toList) := by
      simp only [List.map_cons, String.intercalate_cons_cons, String.toList_append,
        List.append_assoc]
      rfl
    rw [joined, Fields.split_append (comma_notMem_text white o), List.mapM_cons,
      read?_spaces white o, ih next [' '] (by simp)]
    rfl

end Operand

namespace Mnemonic

/- A line is cut behind its name, since there is no space in a name. -/
theorem read?_text {m : Mnemonic} (plain : ' ' ∉ m.name.toList) :
    read? m.text.toList = some m := by
  obtain ⟨name, operands⟩ := m
  cases operands with
  | nil =>
    have uncut : Fields.cut? ' ' name.toList = none := Fields.cut?_eq_none_iff.mpr plain
    simp only [text, read?, uncut, String.ofList_toList]
  | cons o operands =>
    have line : (Mnemonic.mk name (o :: operands)).text.toList =
        name.toList ++ ' ' :: (", ".intercalate ((o :: operands).map Operand.text)).toList := by
      simp only [text, String.toList_append, List.append_assoc]
      rfl
    have cut := Fields.cut?_eq_some_iff.mpr ⟨line, plain⟩
    have operands := Operand.mapM_read?_split o operands [] (by simp)
    rw [List.nil_append] at operands
    simp only [read?, cut, operands, Option.map_some, String.ofList_toList]

theorem plain_name (i : Instruction) : ' ' ∉ i.mnemonic.name.toList := by
  cases i with
  | skip condition => cases condition <;> simp [Instruction.mnemonic, Condition.mnemonic]
  | combine op x y => cases op <;> simp [Instruction.mnemonic, Operation.name]
  | _ => simp [Instruction.mnemonic]

theorem instruction?_mnemonic (i : Instruction) : i.mnemonic.instruction? = some i.told := by
  cases i with
  | skip condition => cases condition <;> rfl
  | combine op x y => cases op <;> rfl
  | _ => rfl

end Mnemonic

namespace Instruction

variable {i j : Instruction} {v w : UInt16}

theorem read?_text (i : Instruction) : read? i.text = some i.told := by
  rw [read?, text, Mnemonic.read?_text (Mnemonic.plain_name i), Option.bind_some,
    Mnemonic.instruction?_mnemonic]

theorem mnemonic_told (i : Instruction) : i.told.mnemonic = i.mnemonic := by
  cases i <;> rfl

theorem encode_told (i : Instruction) : i.told.encode = i.encode := by
  cases i <;> rfl

theorem text_eq_text_iff : i.text = j.text ↔ i.told = j.told := by
  constructor
  · intro same
    have read := i.read?_text
    rw [same, j.read?_text] at read
    exact (Option.some.inj read).symm
  · intro same
    rw [text, text, ← mnemonic_told, same, mnemonic_told]

theorem told_cases (i : Instruction) :
    (∃ x nnn, i = .jumpOffset x nnn ∧ i.told = .jumpOffset 0 nnn) ∨
    ((∀ x nnn, i ≠ .jumpOffset x nnn) ∧ i.told = i) := by
  cases i with
  | jumpOffset x nnn => exact .inl ⟨x, nnn, rfl, rfl⟩
  | _ => exact .inr ⟨nofun, rfl⟩

theorem told_eq_told_iff : i.told = j.told ↔
    i = j ∨ ∃ x y nnn, i = .jumpOffset x nnn ∧ j = .jumpOffset y nnn := by
  constructor
  · intro same
    rcases i.told_cases with ⟨x, nnn, rfl, told⟩ | ⟨other, told⟩
    · rcases j.told_cases with ⟨y, nnn', rfl, told'⟩ | ⟨other', told'⟩
      · rw [told, told'] at same
        cases same
        exact .inr ⟨x, y, nnn, rfl, rfl⟩
      · rw [told, told'] at same
        exact absurd same.symm (other' 0 nnn)
    · rcases j.told_cases with ⟨y, nnn', rfl, told'⟩ | ⟨other', told'⟩
      · rw [told, told'] at same
        exact absurd same (other 0 nnn')
      · rw [told, told'] at same
        exact .inl same
  · rintro (rfl | ⟨x, y, nnn, rfl, rfl⟩) <;> rfl

/-- Two instructions have the same line exactly if they are the same, or offset jumps to the same
address by whatever register. Two words of the instruction set with the same line are the same. -/
theorem lines_tell_instructions_apart :
    (∀ i j : Instruction, i.text = j.text ↔
      i = j ∨ ∃ x y nnn, i = .jumpOffset x nnn ∧ j = .jumpOffset y nnn) ∧
    ∀ v w i j, decode? v = some i → decode? w = some j → (i.text = j.text ↔ v = w) := by
  refine ⟨fun i j => text_eq_text_iff.trans told_eq_told_iff, ?_⟩
  intro v w i j first second
  constructor
  · intro same
    rw [← (of_decode? first).1, ← (of_decode? second).1, ← encode_told, text_eq_text_iff.mp same,
      encode_told]
  · rintro rfl
    rw [first] at second
    rw [Option.some.inj second]

/- Two jumps with one address that differ in the word and in the line, and a third, of no word, that
is written as the first. -/
theorem lines_tell_instructions_apart_jumps :
    decode? 0xB2F0 = some (.jumpOffset 2 0x2F0) ∧ decode? 0x12F0 = some (.jump 0x2F0) ∧
    (jumpOffset 2 0x2F0).text ≠ (jump 0x2F0).text ∧
    (jumpOffset 2 0x2F0).text = (jumpOffset 7 0x2F0).text := by
  have offset : decode? 0xB2F0 = some (.jumpOffset 2 0x2F0) := by decide
  have plain : decode? 0x12F0 = some (.jump 0x2F0) := by decide
  obtain ⟨all, words⟩ := lines_tell_instructions_apart
  refine ⟨offset, plain, ?_, (all _ _).mpr (.inr ⟨2, 7, 0x2F0, rfl, rfl⟩)⟩
  rw [Ne, words _ _ _ _ offset plain]
  decide

end Instruction

end Chip8
