import Chip8Asm.Diagnostic

/-! Faults: the ways in which assembling stops. All but the diagnostics stand outside of the
language of the source: a decimal numeral beyond the digit limit, a number beyond it that was to be
written, a label that has not been placed, a line without tokens. -/

namespace Chip8Asm

inductive Fault where
  | diagnostic (d : Diagnostic)
  | digitLimit (digits : Nat)
  | unwritable
  | unplaced (label : String)
  | noTokens
deriving DecidableEq, Repr

/-- Decimal numerals have at most this many digits, those that are read and those that are
written. -/
def maxDecimalDigits : Nat := 4300

def hasDecimalText (n : Int) : Bool :=
  decide ((Nat.toDigits 10 n.natAbs).length ≤ maxDecimalDigits)

namespace Fault

def message : Fault → String
  | .diagnostic d => d.render
  | .digitLimit digits =>
    "Exceeds the limit (" ++ toString maxDecimalDigits ++
      " digits) for integer string conversion: value has " ++ toString digits ++
      " digits; use sys.set_int_max_str_digits() to increase the limit"
  | .unwritable =>
    "Exceeds the limit (" ++ toString maxDecimalDigits ++
      " digits) for integer string conversion; use sys.set_int_max_str_digits() to increase the " ++
      "limit"
  | .unplaced label => "label " ++ label ++ " has no address yet"
  | .noTokens => "list index out of range"

def ofCause (cause : Cause) : Fault := .diagnostic (.ofCause cause)

/-- A diagnostic is put into words when it is raised, and cannot be with a number that has too many
digits. -/
def raise (d : Diagnostic) : Fault :=
  if d.decimals.all hasDecimalText then .diagnostic d else .unwritable

end Fault

end Chip8Asm
