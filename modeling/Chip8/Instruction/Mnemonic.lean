import Chip8.Instruction.Basic
import Chip8.Text.Numeral

namespace Chip8

inductive Operand where
  | register (x : UInt8)
  | byte (kk : UInt8)
  | address (nnn : UInt16)
  | count (n : UInt8)
  | index
  | atIndex
  | delay
  | sound
  | key
  | glyph
  | decimal
deriving DecidableEq, Repr

def Operand.text : Operand → String
  | .register x => "V" ++ Numeral.hex 1 x.toNat
  | .byte kk => Numeral.marked 2 kk.toNat
  | .address nnn => Numeral.marked 3 nnn.toNat
  | .count n => toString n.toNat
  | .index => "I"
  | .atIndex => "[I]"
  | .delay => "DT"
  | .sound => "ST"
  | .key => "K"
  | .glyph => "F"
  | .decimal => "B"

structure Mnemonic where
  name : String
  /-- To what it is done, the place that changes first. -/
  operands : List Operand := []
deriving DecidableEq, Repr

def Mnemonic.text (m : Mnemonic) : String :=
  match m.operands with
  | [] => m.name
  | operands => m.name ++ " " ++ ", ".intercalate (operands.map Operand.text)

def Operation.name : Operation → String
  | .copy => "LD"
  | .or => "OR"
  | .and => "AND"
  | .xor => "XOR"
  | .add => "ADD"
  | .sub => "SUB"
  | .shiftRight => "SHR"
  | .subFrom => "SUBN"
  | .shiftLeft => "SHL"

def Condition.mnemonic : Condition → Mnemonic
  | .equalsByte x kk => ⟨"SE", [.register x, .byte kk]⟩
  | .differsFromByte x kk => ⟨"SNE", [.register x, .byte kk]⟩
  | .equals x y => ⟨"SE", [.register x, .register y]⟩
  | .differs x y => ⟨"SNE", [.register x, .register y]⟩
  | .pressed x => ⟨"SKP", [.register x]⟩
  | .released x => ⟨"SKNP", [.register x]⟩

/-- The line of an instruction. An offset jump always names register 0. -/
def Instruction.mnemonic : Instruction → Mnemonic
  | .clear => ⟨"CLS", []⟩
  | .ret => ⟨"RET", []⟩
  | .jump nnn => ⟨"JP", [.address nnn]⟩
  | .call nnn => ⟨"CALL", [.address nnn]⟩
  | .skip condition => condition.mnemonic
  | .load x kk => ⟨"LD", [.register x, .byte kk]⟩
  | .add x kk => ⟨"ADD", [.register x, .byte kk]⟩
  | .combine op x y => ⟨op.name, [.register x, .register y]⟩
  | .setIndex nnn => ⟨"LD", [.index, .address nnn]⟩
  | .jumpOffset _ nnn => ⟨"JP", [.register 0, .address nnn]⟩
  | .random x kk => ⟨"RND", [.register x, .byte kk]⟩
  | .draw x y n => ⟨"DRW", [.register x, .register y, .count n]⟩
  | .readDelay x => ⟨"LD", [.register x, .delay]⟩
  | .awaitKey x => ⟨"LD", [.register x, .key]⟩
  | .setDelay x => ⟨"LD", [.delay, .register x]⟩
  | .setSound x => ⟨"LD", [.sound, .register x]⟩
  | .addIndex x => ⟨"ADD", [.index, .register x]⟩
  | .pointGlyph x => ⟨"LD", [.glyph, .register x]⟩
  | .storeDecimal x => ⟨"LD", [.decimal, .register x]⟩
  | .storeRegisters x => ⟨"LD", [.atIndex, .register x]⟩
  | .loadRegisters x => ⟨"LD", [.register x, .atIndex]⟩

def Instruction.text (i : Instruction) : String :=
  i.mnemonic.text

end Chip8
