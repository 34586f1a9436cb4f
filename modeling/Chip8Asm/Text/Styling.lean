/-! Styling sequences of terminals: an escape character, an opening bracket, parameters and a
closing letter. Output that does not go to a terminal leaves them out. -/

namespace Chip8Asm
namespace Text

def isStyleParameter (c : Char) : Bool := c == ';' || c == '?' || c.isDigit

/-- The length of what follows the escape character in a styling sequence, if the text goes on as
one. -/
def styleLength? : List Char → Option Nat
  | '[' :: cs =>
    match cs.dropWhile isStyleParameter with
    | c :: _ => if c.isAlpha then some ((cs.takeWhile isStyleParameter).length + 2) else none
    | [] => none
  | _ => none

/-- Leaves out `skip` characters and then every styling sequence. -/
def unstyleFrom : Nat → List Char → List Char
  | _, [] => []
  | skip + 1, _ :: cs => unstyleFrom skip cs
  | 0, c :: cs =>
    if c = '\x1b' then
      match styleLength? cs with
      | some length => unstyleFrom length cs
      | none => c :: unstyleFrom 0 cs
    else c :: unstyleFrom 0 cs

def unstyle (s : String) : String := String.ofList (unstyleFrom 0 s.toList)

end Text
end Chip8Asm
