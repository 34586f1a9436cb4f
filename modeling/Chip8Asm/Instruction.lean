import Chip8Asm.Register
import Chip8Asm.Text.Quoted

/-! The instruction set. Each form of an instruction has a mnemonic, the shapes of its operands
and a template for its word. A template has four nibbles: fixed ones, one for each register
operand, and as many for the immediate operand as its width. -/

namespace Chip8Asm

/-- Names that stand for themselves among the operands. -/
inductive Reserved where
  | index
  | decimal
  | font
  | soundTimer
  | delayTimer
  | key
deriving DecidableEq, Repr

def Reserved.name : Reserved → String
  | .index => "I"
  | .decimal => "B"
  | .font => "F"
  | .soundTimer => "ST"
  | .delayTimer => "DT"
  | .key => "K"

def Reserved.all : List Reserved := [.index, .decimal, .font, .soundTimer, .delayTimer, .key]

def Reserved.ofToken? (token : String) : Option Reserved := Reserved.all.find? (·.name == token)

inductive Shape where
  | register
  | immediate
  | reserved (name : Reserved)
deriving DecidableEq, Repr

namespace Shape

def name : Shape → String
  | .register => "R"
  | .immediate => "N"
  | .reserved r => r.name

def ofName? (s : String) : Option Shape :=
  if s = "R" then some .register
  else if s = "N" then some .immediate
  else (Reserved.ofToken? s).map .reserved

/-- A token that is neither reserved nor a register is taken for an immediate. -/
def ofToken (token : String) : Shape :=
  match Reserved.ofToken? token with
  | some r => .reserved r
  | none => if Kind.ofToken token = .register then .register else .immediate

end Shape

/-- One nibble of a template: fixed, the first register, the second register, or the next digit of
the immediate. -/
inductive Slot where
  | fixed (digit : Fin 16)
  | x
  | y
  | n
deriving DecidableEq, Repr

def Slot.char : Slot → Char
  | .fixed digit => Text.hexDigit digit.val
  | .x => 'x'
  | .y => 'y'
  | .n => 'n'

structure Form where
  mnemonic : String
  shapes : List Shape
  template : List Slot
deriving DecidableEq, Repr

namespace Form

def arity (form : Form) : Nat := form.shapes.length

def immediateWidth (form : Form) : Nat := form.template.count .n

def templateText (form : Form) : String := String.ofList (form.template.map Slot.char)

/-- The operands as a hint writes them. The registers take the names in turn. -/
def operandTexts (width : Nat) : List Char → List Shape → List String
  | _, [] => []
  | names, .register :: rest =>
    String.ofList ('V' :: names.take 1) :: operandTexts width names.tail rest
  | names, .immediate :: rest =>
    String.ofList (List.replicate width 'n') :: operandTexts width names rest
  | names, .reserved r :: rest => r.name :: operandTexts width names rest

/-- The form as a hint writes it, such as `SE Vx, nn`. -/
def text (form : Form) : String :=
  match operandTexts form.immediateWidth ['x', 'y'] form.shapes with
  | [] => form.mnemonic
  | operands => form.mnemonic ++ " " ++ ", ".intercalate operands

/-- The form with its template, as it is shown to developers. -/
def render (form : Form) : String :=
  "OpcodeInfo(" ++ Text.quoted form.text ++ " -> " ++ form.templateText ++ ")"

end Form

namespace Instruction

section
open Shape Slot

/-- All forms. The forms of one mnemonic stand in the order in which hints list them. -/
def forms : List Form := [
  ⟨"CLS", [], [fixed 0, fixed 0, fixed 14, fixed 0]⟩,
  ⟨"RET", [], [fixed 0, fixed 0, fixed 14, fixed 14]⟩,
  ⟨"SYS", [immediate], [fixed 0, n, n, n]⟩,
  ⟨"JP", [immediate], [fixed 1, n, n, n]⟩,
  ⟨"JP", [register, immediate], [fixed 11, n, n, n]⟩,
  ⟨"CALL", [immediate], [fixed 2, n, n, n]⟩,
  ⟨"SE", [register, immediate], [fixed 3, x, n, n]⟩,
  ⟨"SE", [register, register], [fixed 5, x, y, fixed 0]⟩,
  ⟨"SNE", [register, immediate], [fixed 4, x, n, n]⟩,
  ⟨"SNE", [register, register], [fixed 9, x, y, fixed 0]⟩,
  ⟨"SKP", [register], [fixed 14, x, fixed 9, fixed 14]⟩,
  ⟨"SKNP", [register], [fixed 14, x, fixed 10, fixed 1]⟩,
  ⟨"ADD", [register, immediate], [fixed 7, x, n, n]⟩,
  ⟨"ADD", [register, register], [fixed 8, x, y, fixed 4]⟩,
  ⟨"OR", [register, register], [fixed 8, x, y, fixed 1]⟩,
  ⟨"AND", [register, register], [fixed 8, x, y, fixed 2]⟩,
  ⟨"XOR", [register, register], [fixed 8, x, y, fixed 3]⟩,
  ⟨"SUB", [register, register], [fixed 8, x, y, fixed 5]⟩,
  ⟨"SHR", [register], [fixed 8, x, fixed 0, fixed 6]⟩,
  ⟨"SUBN", [register, register], [fixed 8, x, y, fixed 7]⟩,
  ⟨"SHL", [register], [fixed 8, x, fixed 0, fixed 14]⟩,
  ⟨"RND", [register, immediate], [fixed 12, x, n, n]⟩,
  ⟨"LD", [register, immediate], [fixed 6, x, n, n]⟩,
  ⟨"LD", [register, register], [fixed 8, x, y, fixed 0]⟩,
  ⟨"LD", [reserved .index, immediate], [fixed 10, n, n, n]⟩,
  ⟨"LD", [reserved .index, register], [fixed 15, x, fixed 5, fixed 5]⟩,
  ⟨"LD", [reserved .decimal, register], [fixed 15, x, fixed 3, fixed 3]⟩,
  ⟨"LD", [reserved .font, register], [fixed 15, x, fixed 2, fixed 9]⟩,
  ⟨"LD", [reserved .soundTimer, register], [fixed 15, x, fixed 1, fixed 8]⟩,
  ⟨"LD", [reserved .delayTimer, register], [fixed 15, x, fixed 1, fixed 5]⟩,
  ⟨"LD", [register, reserved .delayTimer], [fixed 15, x, fixed 0, fixed 7]⟩,
  ⟨"LD", [register, reserved .key], [fixed 15, x, fixed 0, fixed 10]⟩,
  ⟨"LD", [register, reserved .index], [fixed 15, x, fixed 6, fixed 5]⟩,
  ⟨"DRW", [register, register, immediate], [fixed 13, x, y, n]⟩]

end

/-- The size of every instruction in bytes. -/
def size : Nat := 2

def mnemonics : List String := (forms.map Form.mnemonic).eraseDups

def isMnemonic (token : String) : Bool := mnemonics.contains (Text.upper token)

def lookup? (mnemonic : String) (shapes : List Shape) : Option Form :=
  forms.find? fun form => form.mnemonic == mnemonic && form.shapes == shapes

def formsOf (mnemonic : String) : List Form := forms.filter (·.mnemonic == mnemonic)

def formsWith (mnemonic : String) (arity : Nat) : List Form :=
  (formsOf mnemonic).filter (·.arity == arity)

end Instruction

end Chip8Asm
