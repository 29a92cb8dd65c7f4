import Mathlib.Data.Nat.Bitwise
import Chip8.Proofs.Decoding
import Chip8.Proofs.Digits
import Chip8.Proofs.Execution
import Chip8.Proofs.Histories

/-!
# Arithmetic in whole numbers

What the operations between registers compute, said of whole numbers and not of bytes. Result and
flag together are exact: the flag is the part of a sum that does not fit, tells that a difference
was not borrowed for, or is the bit that a shift loses. The flag register is written last, so where
it is the destination only the flag remains.
-/

namespace Chip8

namespace Operation

variable (a b s : UInt8)

theorem and_ne_zero_of_single {mask : UInt8} {i : Nat} (single : mask.toNat = 2 ^ i) :
    (s &&& mask != 0) = decide (s.toNat / 2 ^ i % 2 = 1) := by
  rw [← Nat.testBit_eq_decide_div_mod_eq, Bool.eq_iff_iff, bne_iff_ne, ne_eq, ← UInt8.toNat_inj,
    UInt8.toNat_and, single, Nat.and_two_pow]
  cases s.toNat.testBit i <;> simp

theorem toNat_decide_eq_one {n : Nat} (bit : n < 2) : (decide (n = 1)).toNat = n := by
  rcases Nat.lt_or_ge n 1 with small | large
  · obtain rfl : n = 0 := by omega
    rfl
  · obtain rfl : n = 1 := by omega
    rfl

theorem add_exact :
    (decide (a + b < a)).toNat = (if 256 ≤ a.toNat + b.toNat then 1 else 0) ∧
    ((a + b).toNat : Int) + 256 * (if 256 ≤ a.toNat + b.toNat then 1 else 0 : Nat) =
      a.toNat + b.toNat := by
  have first := a.toNat_lt
  have second := b.toNat_lt
  have overflows : a + b < a ↔ 256 ≤ a.toNat + b.toNat := by
    rw [UInt8.lt_iff_toNat_lt, UInt8.toNat_add]
    omega
  rw [UInt8.toNat_add]
  by_cases large : 256 ≤ a.toNat + b.toNat
  · rw [if_pos large]
    exact ⟨congrArg Bool.toNat (decide_eq_true (overflows.mpr large)), by omega⟩
  · rw [if_neg large]
    exact ⟨congrArg Bool.toNat (decide_eq_false (mt overflows.mp large)), by omega⟩

theorem sub_exact :
    (decide (b ≤ a)).toNat = (if b.toNat ≤ a.toNat then 1 else 0) ∧
    ((a - b).toNat : Int) =
      a.toNat - b.toNat + 256 * (1 - (if b.toNat ≤ a.toNat then 1 else 0 : Nat)) := by
  have first := a.toNat_lt
  have second := b.toNat_lt
  rw [UInt8.toNat_sub]
  by_cases small : b.toNat ≤ a.toNat
  · rw [if_pos small]
    exact ⟨congrArg Bool.toNat (decide_eq_true (UInt8.le_iff_toNat_le.mpr small)), by omega⟩
  · rw [if_neg small]
    exact ⟨congrArg Bool.toNat (decide_eq_false (mt UInt8.le_iff_toNat_le.mp small)), by omega⟩

theorem shiftRight_exact :
    (s &&& 0x01 != 0).toNat = s.toNat % 2 ∧
    2 * ((s >>> 1).toNat : Int) + (s.toNat % 2 : Nat) = s.toNat := by
  have half : (s >>> 1).toNat = s.toNat / 2 := by
    rw [UInt8.toNat_shiftRight, Nat.shiftRight_eq_div_pow]
    rfl
  refine ⟨?_, by omega⟩
  rw [and_ne_zero_of_single s (i := 0) rfl, Nat.pow_zero, Nat.div_one]
  exact toNat_decide_eq_one (Nat.mod_lt _ (by decide))

theorem shiftLeft_exact :
    (s &&& 0x80 != 0).toNat = s.toNat / 128 ∧
    ((s <<< 1).toNat : Int) + 256 * (s.toNat / 128 : Nat) = 2 * s.toNat := by
  have byte := s.toNat_lt
  have double : (s <<< 1).toNat = s.toNat * 2 % 256 := by
    rw [UInt8.toNat_shiftLeft, Nat.shiftLeft_eq]
    rfl
  have top : s.toNat / 2 ^ 7 % 2 = s.toNat / 128 := by omega
  refine ⟨?_, by omega⟩
  rw [and_ne_zero_of_single s (i := 7) rfl, top]
  exact toNat_decide_eq_one (by omega)

end Operation

namespace Machine

/-- What an operation with a flag does to the registers: the flag register holds the flag, also when
it is register `x` itself, and otherwise register `x` holds a result that is lawful beside the
flag. -/
structure Flagged (m next : Machine) (x : UInt8) (flag : Nat) (law : Int → Int → Prop) : Prop where
  last : (next.registers.get Registers.flag).toNat = flag
  result : x ≠ Registers.flag → law (next.registers.get x).toNat flag
  others : ∀ k, k.toNat ≤ 15 → k ≠ x → k ≠ Registers.flag →
    next.registers.get k = m.registers.get k
  index : next.registers.index = m.registers.index

/-- What a bitwise operation does to the registers. Where the dialect clears the flag register, it
is cleared last; otherwise it is a register like the others. -/
structure Bitwise (m next : Machine) (x : UInt8) (result : Nat) : Prop where
  cleared : m.dialect.logicClearsFlag = true → next.registers.get Registers.flag = 0
  result : x ≠ Registers.flag ∨ m.dialect.logicClearsFlag = false →
    (next.registers.get x).toNat = result
  others : ∀ k, k.toNat ≤ 15 → k ≠ x → k ≠ Registers.flag ∨ m.dialect.logicClearsFlag = false →
    next.registers.get k = m.registers.get k
  index : next.registers.index = m.registers.index

variable {m next : Machine} {op : Operation} {x y r : UInt8} {i : Instruction}

theorem registers_of_combine (cycled : m.cycle = (.executed (.combine op x y), next)) :
    x.toNat ≤ 15 ∧ next.registers = m.combine op x y := by
  obtain ⟨-, decoded, done⟩ := of_cycle_executed cycled
  cases Except.ok.inj done
  exact ⟨(Instruction.of_decode? decoded).2.1, rfl⟩

theorem flagged_of_apply {f : Bool} {flag : Nat} {law : Int → Int → Prop}
    (cycled : m.cycle = (.executed (.combine op x y), next))
    (applied : op.apply m.dialect (m.registers.get x) (m.registers.get y) = (r, some f))
    (computed : f.toNat = flag ∧ law r.toNat flag) : Flagged m next x flag law := by
  obtain ⟨digit, registers⟩ := registers_of_combine cycled
  obtain ⟨rfl, lawful⟩ := computed
  have stored : ∀ k, k.toNat ≤ 15 → next.registers.get k =
      if k = Registers.flag then (if f then 1 else 0)
      else if k = x then r else m.registers.get k := by
    intro k place
    simp only [registers, combine, applied, Registers.get_setFlag _ _ place,
      Registers.get_set _ _ digit place]
  refine ⟨?_, ?_, ?_, ?_⟩
  · rw [stored _ (by decide), if_pos rfl]
    cases f <;> rfl
  · intro apart
    rw [stored x digit, if_neg apart, if_pos rfl]
    exact lawful
  · intro k place other unflagged
    rw [stored k place, if_neg unflagged, if_neg other]
  · rw [registers, combine_index]

theorem bitwise_of_apply (cycled : m.cycle = (.executed (.combine op x y), next))
    (applied : op.apply m.dialect (m.registers.get x) (m.registers.get y) =
      (r, if m.dialect.logicClearsFlag then some false else none)) :
    Bitwise m next x r.toNat := by
  cases clears : m.dialect.logicClearsFlag with
  | true =>
    rw [clears, if_pos rfl] at applied
    have flagged : Flagged m next x 0 fun result _ => result = r.toNat :=
      flagged_of_apply cycled applied ⟨rfl, rfl⟩
    obtain ⟨last, result, others, index⟩ := flagged
    refine ⟨fun _ => UInt8.toNat_inj.mp last, ?_, ?_, index⟩
    · intro apart
      rw [clears, Bool.true_eq_false, or_false] at apart
      exact Int.ofNat.inj (result apart)
    · intro k place other apart
      rw [clears, Bool.true_eq_false, or_false] at apart
      exact others k place other apart
  | false =>
    obtain ⟨digit, registers⟩ := registers_of_combine cycled
    rw [clears, if_neg Bool.false_ne_true] at applied
    have stored : ∀ k, k.toNat ≤ 15 →
        next.registers.get k = if k = x then r else m.registers.get k := by
      intro k place
      simp only [registers, combine, applied, Registers.get_set _ _ digit place]
    refine ⟨?_, ?_, ?_, ?_⟩
    · intro clear
      rw [clears] at clear
      contradiction
    · intro _
      rw [stored x digit, if_pos rfl]
    · intro k place other _
      rw [stored k place, if_neg other]
    · rw [registers, combine_index]

/-- Sums, differences and shifts of registers are exact when the flag is taken into account, and the
flag is stored last. The bitwise operations leave a flag only where the dialect clears it, and the
addition of a constant leaves none. -/
theorem arithmetic_in_whole_numbers (cycled : m.cycle = (.executed i, next)) {a b s : Nat}
    (first : (m.registers.get x).toNat = a) (second : (m.registers.get y).toNat = b)
    (shifted : (if m.dialect.shiftReadsY then b else a) = s) :
    (i = .combine .add x y →
      Flagged m next x (if 256 ≤ a + b then 1 else 0) fun r f => r + 256 * f = a + b) ∧
    (i = .combine .sub x y →
      Flagged m next x (if b ≤ a then 1 else 0) fun r f => r = a - b + 256 * (1 - f)) ∧
    (i = .combine .subFrom x y →
      Flagged m next x (if a ≤ b then 1 else 0) fun r f => r = b - a + 256 * (1 - f)) ∧
    (i = .combine .shiftRight x y → Flagged m next x (s % 2) fun r f => 2 * r + f = s) ∧
    (i = .combine .shiftLeft x y → Flagged m next x (s / 128) fun r f => r + 256 * f = 2 * s) ∧
    (i = .combine .or x y → Bitwise m next x (a ||| b)) ∧
    (i = .combine .and x y → Bitwise m next x (a &&& b)) ∧
    (i = .combine .xor x y → Bitwise m next x (a ^^^ b)) ∧
    ∀ kk, i = .add x kk → (next.registers.get x).toNat = (a + kk.toNat) % 256 ∧
      (∀ k, k.toNat ≤ 15 → k ≠ x → next.registers.get k = m.registers.get k) ∧
      next.registers.index = m.registers.index := by
  subst first second
  have source :
      (if m.dialect.shiftReadsY then m.registers.get y else m.registers.get x).toNat = s := by
    rw [← shifted]
    split <;> rfl
  subst source
  refine ⟨?_, ?_, ?_, ?_, ?_, ?_, ?_, ?_, ?_⟩
  · rintro rfl
    exact flagged_of_apply cycled rfl (Operation.add_exact _ _)
  · rintro rfl
    exact flagged_of_apply cycled rfl (Operation.sub_exact _ _)
  · rintro rfl
    exact flagged_of_apply cycled rfl (Operation.sub_exact _ _)
  · rintro rfl
    exact flagged_of_apply cycled rfl (Operation.shiftRight_exact _)
  · rintro rfl
    exact flagged_of_apply cycled rfl (Operation.shiftLeft_exact _)
  · rintro rfl
    rw [← UInt8.toNat_or]
    exact bitwise_of_apply cycled rfl
  · rintro rfl
    rw [← UInt8.toNat_and]
    exact bitwise_of_apply cycled rfl
  · rintro rfl
    rw [← UInt8.toNat_xor]
    exact bitwise_of_apply cycled rfl
  · rintro kk rfl
    obtain ⟨-, decoded, done⟩ := of_cycle_executed cycled
    have digit : x.toNat ≤ 15 := (Instruction.of_decode? decoded).2
    cases Except.ok.inj done
    refine ⟨?_, ?_, rfl⟩
    · rw [Registers.get_set _ _ digit digit, if_pos rfl, UInt8.toNat_add]
    · intro k place other
      rw [Registers.get_set _ _ digit place, if_neg other]

/- A program that adds 200, in the flag register, to 100. -/
def addFlagRegister : Rom where
  bytes := #[0x6F, 0xC8, 0x63, 0x64, 0x83, 0xF4]

def beforeSum : Machine :=
  { boot addFlagRegister {} with
    pc := 0x204, registers := (Registers.zero.set 0xF 200).set 3 100 }

theorem arithmetic_in_whole_numbers_flag_operand :
    beforeSum.cycle.1 = .executed (.combine .add 3 0xF) ∧
    beforeSum.registers.get 3 = 100 ∧ beforeSum.registers.get 0xF = 200 ∧
    beforeSum.cycle.2.registers.get 3 = 44 ∧ beforeSum.cycle.2.registers.get 0xF = 1 := by
  have decoded : Instruction.decode? beforeSum.fetch = some (.combine .add 3 0xF) := by
    rw [fetch_of_loaded (m := beforeSum) addFlagRegister rfl]
    decide
  have cycled := cycle_of_ok (m := beforeSum) rfl decoded rfl
  have first : beforeSum.registers.get 3 = 100 := by decide
  have second : beforeSum.registers.get 0xF = 200 := by decide
  have sum := (arithmetic_in_whole_numbers cycled (congrArg UInt8.toNat first)
    (congrArg UInt8.toNat second) rfl).1 rfl
  have three := sum.result (by decide)
  rw [cycled]
  refine ⟨rfl, first, second, ?_, UInt8.toNat_inj.mp sum.last⟩
  apply UInt8.toNat_inj.mp
  exact Int.ofNat.inj (add_right_cancel three)

end Machine

end Chip8
