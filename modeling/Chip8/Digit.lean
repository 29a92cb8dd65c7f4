namespace Chip8

/-- Sixteen values, one for each hexadecimal digit. -/
abbrev PerDigit (α : Type) := Vector α 16

namespace PerDigit

def lastDigit (b : UInt8) : Fin 16 :=
  ⟨b.toNat % 16, Nat.mod_lt _ (by decide)⟩

def look {α : Type} (values : PerDigit α) (b : UInt8) : α :=
  values[(lastDigit b).val]

def put {α : Type} (values : PerDigit α) (b : UInt8) (value : α) : PerDigit α :=
  values.set (lastDigit b).val value

end PerDigit

end Chip8
