import Chip8Asm.Diagnostic
import Chip8Asm.Token

/-! The sixteen registers V0 to VF. -/

namespace Chip8Asm

abbrev Register := Fin 16

namespace Register

/-- A `V` and hexadecimal digits of a value below sixteen. -/
def parse (token : String) : Except Diagnostic Register :=
  let digits := token.toList.drop 1
  if Kind.ofToken token ≠ .register ∨ !Text.hasDigitsOf 16 digits then
    .error (.ofCause (.invalidRegister token))
  else
    let n := Text.valueOf 16 digits
    if h : n < 16 then .ok ⟨n, h⟩
    else .error { Diagnostic.ofCause (.invalidRegister token) with
      hint := some "registers are V0 to VF" }

/-- The digit that names the register in a word. -/
def digit (register : Register) : Char := Text.hexDigit register.val

end Register

end Chip8Asm
