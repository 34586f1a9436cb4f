import Chip8Asm.Instruction
import Chip8Asm.Text.Blank

/-! Source lines in their normal form: without comment, in upper case, the tokens divided by single
spaces. Commas divide tokens as blanks do. An alias is a token that stands for another one on the
lines below its declaration. -/

namespace Chip8Asm

/-- The line of the declaration comes before every line of a source unless it is given. -/
structure Alias where
  source : String
  target : String
  index : Int := -1
deriving DecidableEq, Repr

/-- The target of the latest alias of the token, or the token itself. A target is not looked up
again. -/
def Alias.resolve (aliases : List Alias) (token : String) : String :=
  match aliases.reverse.find? (·.source == token) with
  | some a => a.target
  | none => token

structure SourceLine where
  index : Int
  text : String
deriving DecidableEq, Repr

namespace SourceLine

/-- What stands before the comment. -/
def uncommented (cs : List Char) : List Char := cs.takeWhile (· != ';')

def spaceCommas (cs : List Char) : List Char := cs.map fun c => if c = ',' then ' ' else c

def normalizeChars (cs : List Char) : List Char :=
  Text.upperChars ([' '].intercalate (Text.wordsOf (spaceCommas (uncommented cs))))

def normalize (raw : String) : String := String.ofList (normalizeChars raw.toList)

def tokens (line : SourceLine) : List String := Text.words line.text

def isDirective (line : SourceLine) : Bool := line.text.toList.head? == some ':'

/-- The bytes the line takes: the size of an instruction if its first token, through the aliases,
is a mnemonic, and otherwise one for each token. There is no size without a token. -/
def size? (line : SourceLine) (aliases : List Alias) : Option Nat :=
  line.tokens.head?.map fun head =>
    if Instruction.isMnemonic (Alias.resolve aliases head) then Instruction.size
    else line.tokens.length

/-- The lines from number `index` on whose normal form is not empty. -/
def numbered (index : Nat) : List String → List SourceLine
  | [] => []
  | raw :: rest =>
    let text := normalize raw
    if text = "" then numbered (index + 1) rest
    else ⟨index, text⟩ :: numbered (index + 1) rest

def ofSource (source : String) : List SourceLine := numbered 0 (Text.lines source)

end SourceLine

end Chip8Asm
