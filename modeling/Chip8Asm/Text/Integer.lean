import Chip8Asm.Text.Blank

/-! Integers as they may be typed: blanks around, a sign, decimal digits of any script, and single
underscores between digits. Each script has its ten digits in a row, so its zero places the other
nine. -/

namespace Chip8Asm
namespace Text

def zeros : List Nat := [
  0x30, 0x660, 0x6F0, 0x7C0, 0x966, 0x9E6, 0xA66, 0xAE6, 0xB66, 0xBE6, 0xC66, 0xCE6, 0xD66, 0xDE6,
  0xE50, 0xED0, 0xF20, 0x1040, 0x1090, 0x17E0, 0x1810, 0x1946, 0x19D0, 0x1A80, 0x1A90, 0x1B50,
  0x1BB0, 0x1C40, 0x1C50, 0xA620, 0xA8D0, 0xA900, 0xA9D0, 0xA9F0, 0xAA50, 0xABF0, 0xFF10, 0x104A0,
  0x10D30, 0x11066, 0x110F0, 0x11136, 0x111D0, 0x112F0, 0x11450, 0x114D0, 0x11650, 0x116C0,
  0x11730, 0x118E0, 0x11950, 0x11C50, 0x11D50, 0x11DA0, 0x16A60, 0x16AC0, 0x16B50, 0x1D7CE,
  0x1D7D8, 0x1D7E2, 0x1D7EC, 0x1D7F6, 0x1E140, 0x1E2F0, 0x1E950, 0x1FBF0]

/-- The value of a decimal digit of any script. -/
def decimalValue? (c : Char) : Option Nat :=
  (zeros.find? fun start => decide (start ≤ c.toNat) && decide (c.toNat < start + 10)).map
    fun start => c.toNat - start

/-- The blanks that may stand around an integer. The four separators below U+0020 may not. -/
def isMargin (c : Char) : Bool :=
  isBlank c && !(decide (0x1C ≤ c.toNat) && decide (c.toNat ≤ 0x1F))

def trimMargins (cs : List Char) : List Char :=
  (((cs.dropWhile isMargin).reverse).dropWhile isMargin).reverse

/-- The digits of a text, each but the first perhaps with an underscore before it. -/
def decimalValues? : List Char → Option (List Nat)
  | [] => none
  | [c] => (decimalValue? c).map ([·])
  | c :: '_' :: rest =>
    match decimalValue? c, decimalValues? rest with
    | some d, some ds => some (d :: ds)
    | _, _ => none
  | c :: rest =>
    match decimalValue? c, decimalValues? rest with
    | some d, some ds => some (d :: ds)
    | _, _ => none

def natural? (maxDigits : Nat) (cs : List Char) : Option Nat :=
  match decimalValues? cs with
  | some ds => if ds.length ≤ maxDigits then some (ds.foldl (fun n d => n * 10 + d) 0) else none
  | none => none

/-- Reads an integer of at most `maxDigits` digits, leading zeros counted. -/
def integer? (maxDigits : Nat) (s : String) : Option Int :=
  match trimMargins s.toList with
  | '-' :: cs => (natural? maxDigits cs).map fun n => -(n : Int)
  | '+' :: cs => (natural? maxDigits cs).map Int.ofNat
  | cs => (natural? maxDigits cs).map Int.ofNat

end Text
end Chip8Asm
