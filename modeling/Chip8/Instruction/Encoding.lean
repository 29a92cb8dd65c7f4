import Chip8.Instruction.Basic
import Chip8.Text.Numeral

/-!
# Instruction words

Between instructions and the 16-bit words that stand for them. Encoding puts each operand in its
place without cutting it to size; decoding takes the four hexadecimal digits of a word apart, and
answers only for the words of the instruction set.
-/

namespace Chip8

structure IllegalOpcode where
  word : UInt16
deriving DecidableEq, Repr

def IllegalOpcode.message (e : IllegalOpcode) : String :=
  "no instruction decodes from " ++ Numeral.marked 4 e.word.toNat

namespace Word

/-- The hexadecimal digit `k` places from the right. -/
def digit (w k : UInt16) : UInt8 :=
  (w >>> (4 * k) &&& 0xF).toUInt8

def ofAddress (family nnn : UInt16) : UInt16 :=
  family <<< 12 ||| nnn

def ofByte (family : UInt16) (x kk : UInt8) : UInt16 :=
  family <<< 12 ||| x.toUInt16 <<< 8 ||| kk.toUInt16

def ofDigits (family : UInt16) (x y n : UInt8) : UInt16 :=
  family <<< 12 ||| x.toUInt16 <<< 8 ||| y.toUInt16 <<< 4 ||| n.toUInt16

end Word

def Operation.code : Operation → UInt8
  | .copy => 0x0
  | .or => 0x1
  | .and => 0x2
  | .xor => 0x3
  | .add => 0x4
  | .sub => 0x5
  | .shiftRight => 0x6
  | .subFrom => 0x7
  | .shiftLeft => 0xE

def Operation.ofCode? (n : UInt8) : Option Operation :=
  match n with
  | 0x0 => some .copy
  | 0x1 => some .or
  | 0x2 => some .and
  | 0x3 => some .xor
  | 0x4 => some .add
  | 0x5 => some .sub
  | 0x6 => some .shiftRight
  | 0x7 => some .subFrom
  | 0xE => some .shiftLeft
  | _ => none

def Condition.encode : Condition → UInt16
  | .equalsByte x kk => Word.ofByte 0x3 x kk
  | .differsFromByte x kk => Word.ofByte 0x4 x kk
  | .equals x y => Word.ofDigits 0x5 x y 0x0
  | .differs x y => Word.ofDigits 0x9 x y 0x0
  | .pressed x => Word.ofByte 0xE x 0x9E
  | .released x => Word.ofByte 0xE x 0xA1

namespace Instruction

/-- The word of an instruction. A wide operand covers its neighbours, and what reaches past the
sixteenth bit is lost. -/
def encode : Instruction → UInt16
  | .clear => 0x00E0
  | .ret => 0x00EE
  | .jump nnn => Word.ofAddress 0x1 nnn
  | .call nnn => Word.ofAddress 0x2 nnn
  | .skip condition => condition.encode
  | .load x kk => Word.ofByte 0x6 x kk
  | .add x kk => Word.ofByte 0x7 x kk
  | .combine op x y => Word.ofDigits 0x8 x y op.code
  | .setIndex nnn => Word.ofAddress 0xA nnn
  | .jumpOffset _ nnn => Word.ofAddress 0xB nnn
  | .random x kk => Word.ofByte 0xC x kk
  | .draw x y n => Word.ofDigits 0xD x y n
  | .readDelay x => Word.ofByte 0xF x 0x07
  | .awaitKey x => Word.ofByte 0xF x 0x0A
  | .setDelay x => Word.ofByte 0xF x 0x15
  | .setSound x => Word.ofByte 0xF x 0x18
  | .addIndex x => Word.ofByte 0xF x 0x1E
  | .pointGlyph x => Word.ofByte 0xF x 0x29
  | .storeDecimal x => Word.ofByte 0xF x 0x33
  | .storeRegisters x => Word.ofByte 0xF x 0x55
  | .loadRegisters x => Word.ofByte 0xF x 0x65

def ofLastByte? (x kk : UInt8) : Option Instruction :=
  match kk with
  | 0x07 => some (.readDelay x)
  | 0x0A => some (.awaitKey x)
  | 0x15 => some (.setDelay x)
  | 0x18 => some (.setSound x)
  | 0x1E => some (.addIndex x)
  | 0x29 => some (.pointGlyph x)
  | 0x33 => some (.storeDecimal x)
  | 0x55 => some (.storeRegisters x)
  | 0x65 => some (.loadRegisters x)
  | _ => none

def decode? (w : UInt16) : Option Instruction :=
  let x := Word.digit w 2
  let y := Word.digit w 1
  let n := Word.digit w 0
  let kk := w.toUInt8
  let nnn := w &&& 0xFFF
  match Word.digit w 3 with
  | 0x0 => if w = 0x00E0 then some .clear else if w = 0x00EE then some .ret else none
  | 0x1 => some (.jump nnn)
  | 0x2 => some (.call nnn)
  | 0x3 => some (.skip (.equalsByte x kk))
  | 0x4 => some (.skip (.differsFromByte x kk))
  | 0x5 => if n = 0 then some (.skip (.equals x y)) else none
  | 0x6 => some (.load x kk)
  | 0x7 => some (.add x kk)
  | 0x8 => (Operation.ofCode? n).map (.combine · x y)
  | 0x9 => if n = 0 then some (.skip (.differs x y)) else none
  | 0xA => some (.setIndex nnn)
  | 0xB => some (.jumpOffset x nnn)
  | 0xC => some (.random x kk)
  | 0xD => some (.draw x y n)
  | 0xE =>
    if kk = 0x9E then some (.skip (.pressed x))
    else if kk = 0xA1 then some (.skip (.released x))
    else none
  | _ => ofLastByte? x kk

def decode (w : UInt16) : Except IllegalOpcode Instruction :=
  match decode? w with
  | some i => .ok i
  | none => .error ⟨w⟩

end Instruction

end Chip8
