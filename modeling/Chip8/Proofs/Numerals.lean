import Mathlib.Data.Nat.Digits.Defs
import Chip8.Text.Numeral

/-!
# Numerals and their values

What is read as a numeral, and which number it denotes: a plus sign or none and at least one digit,
valued by their places. Hexadecimal that was written is read back as the number, whatever it was
filled up to.
-/

namespace Chip8.Numeral

variable {base bound m n d : Nat} {c : Char} {cs digits text : List Char}

/-- The character is the digit of the base with the value `d`, in either case. -/
def IsDigit (base : Nat) (c : Char) (d : Nat) : Prop :=
  d < base ∧ (c = d.digitChar ∨ c = d.digitChar.toUpper)

/-- The text is a numeral of the base with the value `n`: one plus sign or none, and then digits, at
least one, the most significant first. -/
def IsNumeral (base : Nat) (text : List Char) (n : Nat) : Prop :=
  ∃ digits values, digits ≠ [] ∧ (text = digits ∨ text = '+' :: digits) ∧
    List.Forall₂ (IsDigit base) digits values ∧ n = Nat.ofDigits base values.reverse

theorem digit?_digitChar : ∀ d < 16,
    digit? d.digitChar = some d ∧ digit? d.digitChar.toUpper = some d := by decide

theorem toNat_digitChar : ∀ d < 16, d.digitChar.toNat = (if d < 10 then 48 else 87) + d ∧
    d.digitChar.toUpper.toNat = (if d < 10 then 48 else 55) + d := by decide

theorem isDigit_of_toNat (small : d < 16)
    (code : c.toNat = d.digitChar.toNat ∨ c.toNat = d.digitChar.toUpper.toNat) : IsDigit 16 c d :=
  ⟨small, code.imp Char.toNat_inj.mp Char.toNat_inj.mp⟩

theorem digit?_eq_some_iff : digit? c = some d ↔ IsDigit 16 c d := by
  constructor
  · intro read
    unfold digit? at read
    split_ifs at read with decimal lower upper
    · have range : 48 ≤ c.toNat ∧ c.toNat ≤ 57 := decimal
      have value : c.toNat - 48 = d := Option.some.inj read
      apply isDigit_of_toNat (by omega) (.inl _)
      rw [(toNat_digitChar d (by omega)).1, if_pos (by omega)]
      omega
    · have range : 97 ≤ c.toNat ∧ c.toNat ≤ 102 := lower
      have value : c.toNat - 97 + 10 = d := Option.some.inj read
      apply isDigit_of_toNat (by omega) (.inl _)
      rw [(toNat_digitChar d (by omega)).1, if_neg (by omega)]
      omega
    · have range : 65 ≤ c.toNat ∧ c.toNat ≤ 70 := upper
      have value : c.toNat - 65 + 10 = d := Option.some.inj read
      apply isDigit_of_toNat (by omega) (.inr _)
      rw [(toNat_digitChar d (by omega)).2, if_neg (by omega)]
      omega
  · rintro ⟨small, rfl | rfl⟩
    · exact (digit?_digitChar d small).1
    · exact (digit?_digitChar d small).2

theorem isDigit_iff (small : base ≤ 16) : IsDigit base c d ↔ digit? c = some d ∧ d < base := by
  rw [digit?_eq_some_iff]
  constructor
  · rintro ⟨inside, written⟩
    exact ⟨⟨by omega, written⟩, inside⟩
  · rintro ⟨⟨-, written⟩, inside⟩
    exact ⟨inside, written⟩

/- What stands in front of the digits is their leading digit, as it were, however large it is. -/
theorem extend?_eq_some_iff (small : base ≤ 16) : extend? base n cs = some m ↔
    ∃ values, List.Forall₂ (IsDigit base) cs values ∧
      m = Nat.ofDigits base (n :: values).reverse := by
  induction cs generalizing n with
  | nil =>
    simp only [extend?, Option.some.injEq]
    constructor
    · rintro rfl
      exact ⟨[], .nil, by simp⟩
    · rintro ⟨_, digits, rfl⟩
      cases digits
      simp
  | cons c cs ih =>
    have pushed : ∀ d values, Nat.ofDigits base (n :: d :: values).reverse =
        Nat.ofDigits base ((base * n + d) :: values).reverse := by
      intro d values
      simp only [Nat.ofDigits_reverse_cons, List.length_cons, pow_succ]
      ring
    constructor
    · intro read
      simp only [extend?] at read
      split at read
      · rename_i d digit
        split at read
        · rename_i inside
          obtain ⟨values, rest, rfl⟩ := ih.mp read
          exact ⟨d :: values, .cons ((isDigit_iff small).mpr ⟨digit, inside⟩) rest,
            (pushed d values).symm⟩
        · contradiction
      · contradiction
    · rintro ⟨_, digits, rfl⟩
      cases digits with
      | @cons _ d _ values first rest =>
        obtain ⟨digit, inside⟩ := (isDigit_iff small).mp first
        simp only [extend?, digit, if_pos inside]
        exact ih.mpr ⟨values, rest, pushed d values⟩

theorem not_isDigit_plus : ¬ IsDigit base '+' d := by
  rintro ⟨-, lower | upper⟩
  · exact Nat.digitChar_ne '+' (by decide) lower.symm
  · by_cases small : d < 16
    · have digit := (digit?_digitChar d small).2
      rw [← upper] at digit
      exact absurd digit (by simp [digit?])
    · rw [Nat.digitChar_eq_star.mpr (by omega)] at upper
      exact absurd upper (by decide)

theorem read?_eq_some_iff (small : base ≤ 16) :
    read? base bound text = some n ↔ IsNumeral base text n ∧ n < bound := by
  have unsigned : ∀ digits : List Char,
      (if digits.isEmpty then none else (extend? base 0 digits).filter (· < bound)) = some n ↔
        (∃ values, digits ≠ [] ∧ List.Forall₂ (IsDigit base) digits values ∧
          n = Nat.ofDigits base values.reverse) ∧ n < bound := by
    intro digits
    by_cases none : digits = []
    · simp [none]
    · rw [if_neg (by simpa using none), Option.filter_eq_some_iff, extend?_eq_some_iff small]
      simp [none]
  constructor
  · intro read
    unfold read? at read
    split at read
    · rename_i rest
      obtain ⟨⟨values, some, digits, value⟩, inside⟩ := (unsigned rest).mp read
      exact ⟨⟨rest, values, some, .inr rfl, digits, value⟩, inside⟩
    · obtain ⟨⟨values, some, digits, value⟩, inside⟩ := (unsigned text).mp read
      exact ⟨⟨text, values, some, .inl rfl, digits, value⟩, inside⟩
  · rintro ⟨⟨digits, values, some, rfl | rfl, each, value⟩, inside⟩
    · unfold read?
      split
      · cases each with
        | cons first _ => exact absurd first not_isDigit_plus
      · exact (unsigned text).mpr ⟨⟨values, some, each, value⟩, inside⟩
    · exact (unsigned digits).mpr ⟨⟨values, some, each, value⟩, inside⟩

theorem extend?_append (base n : Nat) (front back : List Char) :
    extend? base n (front ++ back) = (extend? base n front).bind (extend? base · back) := by
  induction front generalizing n with
  | nil => rfl
  | cons c front ih =>
    simp only [List.cons_append, extend?]
    split
    · split
      · exact ih _
      · rfl
    · rfl

theorem extend?_digit (inside : d < 16) :
    extend? 16 n [d.digitChar.toUpper] = some (16 * n + d) := by
  simp only [extend?, (digit?_digitChar d inside).2, if_pos inside]

theorem extend?_hexDigits (n : Nat) : extend? 16 0 (hexDigits n) = some n := by
  induction n using Nat.strongRecOn with
  | ind n ih =>
    rw [hexDigits, Nat.toDigits_eq_if (by decide)]
    split
    · rename_i inside
      rw [List.map_singleton, extend?_digit inside, Nat.mul_zero, Nat.zero_add]
    · have before := ih (n / 16) (by omega)
      rw [hexDigits] at before
      rw [List.map_append, List.map_singleton, extend?_append, before, Option.bind_some,
        extend?_digit (Nat.mod_lt _ (by decide)), Nat.div_add_mod]

theorem extend?_zeros (count : Nat) (cs : List Char) :
    extend? 16 0 (List.replicate count '0' ++ cs) = extend? 16 0 cs := by
  induction count with
  | zero => rfl
  | succ count ih => exact ih

/-- Hexadecimal is read back as the number that was written, whatever the width. -/
theorem extend?_hex (width n : Nat) : extend? 16 0 (hex width n).toList = some n := by
  rw [hex, String.toList_ofList, List.leftpad, extend?_zeros, extend?_hexDigits]

theorem digit_of_extend? (read : extend? base n cs = some m) :
    ∀ c ∈ cs, ∃ d, digit? c = some d := by
  induction cs generalizing n with
  | nil => exact fun _ member => nomatch member
  | cons c cs ih =>
    simp only [extend?] at read
    split at read
    · rename_i d digit
      split at read
      · intro other member
        rcases List.mem_cons.mp member with rfl | member
        · exact ⟨d, digit⟩
        · exact ih read other member
      · contradiction
    · contradiction

theorem length_hex (width n : Nat) :
    (hex width n).toList.length = max width (Nat.toDigits 16 n).length := by
  rw [hex, String.toList_ofList, List.length_leftpad, hexDigits, List.length_map]

end Chip8.Numeral
