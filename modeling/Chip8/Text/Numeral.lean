namespace Chip8.Numeral

def hexDigits (n : Nat) : List Char :=
  (Nat.toDigits 16 n).map Char.toUpper

/-- The hexadecimal digits of `n`, filled up on the left with zeros to at least `width` digits. -/
def hex (width n : Nat) : String :=
  String.ofList ((hexDigits n).leftpad width '0')

def marked (width n : Nat) : String :=
  "0x" ++ hex width n

def digit? (c : Char) : Option Nat :=
  if '0' ≤ c ∧ c ≤ '9' then some (c.toNat - '0'.toNat)
  else if 'a' ≤ c ∧ c ≤ 'f' then some (c.toNat - 'a'.toNat + 10)
  else if 'A' ≤ c ∧ c ≤ 'F' then some (c.toNat - 'A'.toNat + 10)
  else none

/-- The number that a row of digits denotes after `n`; `none` if one of them is no digit of the
base. The base is at most 16. -/
def extend? (base : Nat) : Nat → List Char → Option Nat
  | n, [] => some n
  | n, c :: rest =>
    match digit? c with
    | some d => if d < base then extend? base (base * n + d) rest else none
    | none => none

/-- Reads an unsigned numeral below `bound`: one plus sign or none, then at least one digit.
Leading zeros are allowed. -/
def read? (base bound : Nat) (text : List Char) : Option Nat :=
  let digits := match text with
    | '+' :: rest => rest
    | _ => text
  if digits.isEmpty then none else (extend? base 0 digits).filter (· < bound)

end Chip8.Numeral
