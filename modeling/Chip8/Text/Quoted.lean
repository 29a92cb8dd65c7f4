import Chip8.Text.ExtendingMark
import Chip8.Text.Unprintable

/-!
# Quoted text

Text between double quotes, so written that every character of it can be seen: quotes and
backslashes get a backslash, tab, line feed, carriage return and NUL their letter, and other
characters that cannot be seen on their own their code point in hexadecimal.
-/

namespace Chip8.Quoted

def isVisible (c : Char) : Bool :=
  !Unprintable.characters.contains c && !ExtendingMark.characters.contains c

def codePoint (c : Char) : List Char :=
  ['\\', 'u', '\x7b'] ++ Nat.toDigits 16 c.toNat ++ ['\x7d']

def escape (c : Char) : List Char :=
  if c = '"' ∨ c = '\\' then ['\\', c]
  else if c = '\t' then ['\\', 't']
  else if c = '\n' then ['\\', 'n']
  else if c = '\r' then ['\\', 'r']
  else if c = '\x00' then ['\\', '0']
  else if isVisible c then [c]
  else codePoint c

def quote (text : List Char) : String :=
  String.ofList (['"'] ++ text.flatMap escape ++ ['"'])

end Chip8.Quoted
