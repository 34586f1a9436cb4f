import Chip8Asm.Text.Hex
import Chip8Asm.Text.Upper

/-! Kinds of tokens. The kind of a token is read off its first characters in upper case, whether or
not the digits behind them are right. -/

namespace Chip8Asm

/-- The kinds of literals, by their spelling (`0x2A`, `0b101`, `$2A`, `017`, `12`), registers, and
all else. -/
inductive Kind where
  | hex
  | binary
  | legacy
  | octal
  | decimal
  | register
  | invalid
deriving DecidableEq, Repr

namespace Kind

def name : Kind → String
  | .hex => "hex"
  | .binary => "binary"
  | .legacy => "legacy"
  | .octal => "octal"
  | .decimal => "decimal"
  | .register => "register"
  | .invalid => "invalid"

def isNumeric : Kind → Bool
  | .register | .invalid => false
  | _ => true

/-- The kind of a text without a marking at its front. A zero at the front asks for octal digits. -/
def ofDigits (cs : List Char) : Kind :=
  if Text.hasDigitsOf 10 cs then
    if cs.head? = some '0' then if Text.hasDigitsOf 8 cs then .octal else .invalid
    else .decimal
  else .invalid

def ofUpper : List Char → Kind
  | '0' :: 'X' :: _ => .hex
  | '0' :: 'B' :: _ => .binary
  | '$' :: _ => .legacy
  | 'V' :: _ => .register
  | cs => ofDigits cs

def ofToken (token : String) : Kind := ofUpper (Text.upperChars token.toList)

end Kind

end Chip8Asm
