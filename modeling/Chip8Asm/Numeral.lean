import Chip8Asm.Fault
import Chip8Asm.Text.Hex
import Chip8Asm.Token

/-! Numerals: tokens of a numeric kind with digits of its radix behind the marking. -/

namespace Chip8Asm

/-- The number of characters in the marking of a kind, and the radix. -/
def Kind.radix? : Kind → Option (Nat × Nat)
  | .hex => some (2, 16)
  | .binary => some (2, 2)
  | .legacy => some (1, 16)
  | .octal => some (0, 8)
  | .decimal => some (0, 10)
  | .register | .invalid => none

namespace Numeral

/-- Only decimal numerals have a digit limit. -/
def parse (token : String) : Except Fault Nat :=
  match (Kind.ofToken token).radix? with
  | none => .error (.ofCause (.invalidNumber token))
  | some (skip, radix) =>
    let digits := token.toList.drop skip
    if !Text.hasDigitsOf radix digits then .error (.ofCause (.invalidNumber token))
    else if radix = 10 ∧ maxDecimalDigits < digits.length then .error (.digitLimit digits.length)
    else .ok (Text.valueOf radix digits)

/-- The low `width` hexadecimal digits of the value. There is always one digit. -/
def normalize (width : Nat) (token : String) : Except Fault String :=
  (parse token).map fun value => Text.hexPadded width (value % Nat.pow 16 width)

end Numeral

end Chip8Asm
