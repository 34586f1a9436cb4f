/-! Hexadecimal digits: written in upper case, read in either case. -/

namespace Chip8Asm
namespace Text

def hexDigit (n : Nat) : Char := (Nat.digitChar n).toUpper

/-- The digits of a number, without leading zeros. -/
def hexDigits (n : Nat) : List Char := (Nat.toDigits 16 n).map Char.toUpper

/-- A number with zeros in front up to the width. A number that needs more digits keeps them. -/
def hexPadded (width : Nat) (n : Nat) : String :=
  String.ofList ((hexDigits n).leftpad width '0')

/-- As `hexPadded`, with the sign counted into the width. -/
def hexSigned (width : Nat) : Int → String
  | .ofNat n => hexPadded width n
  | .negSucc n => "-" ++ hexPadded (width - 1) (n + 1)

/-- The value of a digit, at most fifteen. -/
def hexValue? (c : Char) : Option Nat :=
  if '0' ≤ c ∧ c ≤ '9' then some (c.toNat - 48)
  else if 'A' ≤ c ∧ c ≤ 'F' then some (c.toNat - 55)
  else if 'a' ≤ c ∧ c ≤ 'f' then some (c.toNat - 87)
  else none

def isDigitOf (radix : Nat) (c : Char) : Bool :=
  match hexValue? c with
  | some d => decide (d < radix)
  | none => false

/-- At least one digit, and digits of the radix only. -/
def hasDigitsOf (radix : Nat) (cs : List Char) : Bool :=
  !cs.isEmpty && cs.all (isDigitOf radix)

/-- The positional value of a text of digits. -/
def valueOf (radix : Nat) (cs : List Char) : Nat :=
  cs.foldl (fun n c => n * radix + (hexValue? c).getD 0) 0

end Text
end Chip8Asm
