import Chip8Asm.Numeral
import Chip8Asm.Program
import Chip8Asm.Text.Letter
import Chip8Asm.Text.Similarity

/-! The encoding of lines in hexadecimal digits: four for an instruction, two for each token of a
line of data. Tokens are first replaced through the aliases and then by the addresses of labels.
-/

namespace Chip8Asm
namespace Encoding

def unknownLabel (labels : List Label) (name : String) : Diagnostic :=
  .ofCause (.unknownLabel name (Text.similarNames name (labels.map Label.name)))

/-- The aliases that are declared above a line. With no line, all of them. -/
def activeAliases (aliases : List Alias) (index : Option Int) : List Alias :=
  match index with
  | some index => aliases.filter fun a => decide (a.index < index)
  | none => aliases

/-- The name of a label becomes the numeral of its address. -/
def substituteLabel (labels : List Label) (token : String) : Except Fault String :=
  match Label.find? labels token with
  | some label => label.addressHex.map ("0X" ++ ·)
  | none => .ok token

def substitute (aliases : List Alias) (labels : List Label) (index : Option Int)
    (tokens : List String) : Except Fault (List String) :=
  tokens.mapM fun token =>
    substituteLabel labels (Alias.resolve (activeAliases aliases index) token)

/-- The address of a label as a word of data. -/
def encodeAddress (labels : List Label) (name : String) : Except Fault String :=
  match Label.find? labels name with
  | some label => label.addressHex.map ("0" ++ ·)
  | none => .error (.diagnostic (unknownLabel labels name))

/-- One byte for each token. -/
def encodeData (tokens : List String) : Except Fault String :=
  (tokens.mapM (Numeral.normalize 2)).map String.join

/-- A jump with an offset goes through V0 only. -/
def checkOffset (mnemonic first : String) : Except Diagnostic Unit :=
  if Shape.ofToken first ≠ .register then .error (.ofCause (.illegalOperand mnemonic first))
  else
    match Register.parse first with
    | .ok register =>
      if register.val = 0 then .ok () else .error (.ofCause (.illegalOperand mnemonic first))
    | .error d => .error d

def checkJump (mnemonic : String) (operands : List String) : Except Diagnostic Unit :=
  match operands with
  | [first, _] => if mnemonic = "JP" then checkOffset mnemonic first else .ok ()
  | _ => .ok ()

/-- The forms that a mnemonic has, for a hint. -/
def formsHint (mnemonic : String) : Option String :=
  match Instruction.formsOf mnemonic with
  | [] => none
  | forms => some (mnemonic ++ " supports: " ++ "; ".intercalate (forms.map Form.text))

/-- The form with the shapes of the operands. Without one, a form that is alone with its number of
operands is taken, so that reading the operands tells what is wrong with them. -/
def selectForm (mnemonic : String) (operands : List String) : Except Diagnostic Form :=
  match checkJump mnemonic operands with
  | .error d => .error d
  | .ok () =>
    match Instruction.lookup? mnemonic (operands.map Shape.ofToken) with
    | some form => .ok form
    | none =>
      match Instruction.formsWith mnemonic operands.length with
      | [form] => .ok form
      | _ =>
        .error { Diagnostic.ofCause (.unknownInstruction mnemonic) with
          hint := formsHint mnemonic }

/-- The number of digits in an address. -/
def addressWidth : Nat := 3

/-- A word of letters where an address should stand is taken for a misspelt label. -/
def looksLikeLabel (width : Nat) (token : String) : Bool :=
  width == addressWidth && Kind.ofToken token == .invalid &&
    token.toList.head?.any Text.isLetter

def readImmediate (labels : List Label) (width : Nat) (token : String) : Except Fault String :=
  match Numeral.normalize width token with
  | .error (.diagnostic d) =>
    if looksLikeLabel width token then .error (.diagnostic (unknownLabel labels token))
    else .error (.diagnostic d)
  | result => result

/-- What the operands of an instruction put into its word. -/
structure Operands where
  registers : List Register := []
  immediate : List Char := []

/-- Reads the operands from left to right, each by the shape of its place. -/
def readOperands (labels : List Label) (width : Nat) :
    List String → List Shape → Except Fault Operands
  | token :: tokens, .register :: shapes =>
    match Register.parse token with
    | .ok register =>
      (readOperands labels width tokens shapes).map fun rest =>
        { rest with registers := register :: rest.registers }
    | .error d => .error (.diagnostic d)
  | token :: tokens, .immediate :: shapes =>
    match readImmediate labels width token with
    | .ok digits =>
      (readOperands labels width tokens shapes).map fun rest =>
        { rest with immediate := digits.toList }
    | .error fault => .error fault
  | _ :: tokens, .reserved _ :: shapes => readOperands labels width tokens shapes
  | _, _ => .ok {}

/-- Fills the slots of a template. The digits of the immediate are used up from the left. -/
def fill (registers : List Register) : List Slot → List Char → List Char
  | [], _ => []
  | .fixed digit :: slots, immediate => Text.hexDigit digit.val :: fill registers slots immediate
  | .x :: slots, immediate =>
    (registers[0]?.map Register.digit).toList ++ fill registers slots immediate
  | .y :: slots, immediate =>
    (registers[1]?.map Register.digit).toList ++ fill registers slots immediate
  | .n :: slots, immediate => immediate.take 1 ++ fill registers slots immediate.tail

def Operands.fill (operands : Operands) (form : Form) : String :=
  String.ofList (Encoding.fill operands.registers form.template operands.immediate)

/-- Encodes an instruction whose tokens have been replaced. The labels serve for hints only. -/
def encodeInstruction (labels : List Label) : List String → Except Fault String
  | [] => .error .noTokens
  | mnemonic :: operands =>
    match selectForm mnemonic operands with
    | .error d => .error (.diagnostic d)
    | .ok form =>
      (readOperands labels form.immediateWidth operands form.shapes).map (·.fill form)

/-- The name of a label that stands as data, behind a colon. -/
def addressName? (tokens : List String) : Option String :=
  match tokens with
  | [] => none
  | head :: _ =>
    if head.toList.head? = some ':' ∧ head ≠ Program.aliasDirective then
      match Program.labelNames? tokens with
      | some [name] => if name = "" then none else some name
      | _ => none
    else none

/-- Encodes tokens that have been replaced: data, if the first is a numeral. -/
def encodeReplaced (labels : List Label) (tokens : List String) : Except Fault String :=
  match tokens with
  | [] => .error .noTokens
  | head :: _ =>
    if (Kind.ofToken head).isNumeric then encodeData tokens else encodeInstruction labels tokens

/-- Encodes the tokens of a line at the given index. -/
def encode (aliases : List Alias) (labels : List Label) (index : Option Int)
    (tokens : List String) : Except Fault String :=
  if tokens.isEmpty then .error (.ofCause (.unknownInstruction ""))
  else
    match addressName? tokens with
    | some name => encodeAddress labels name
    | none =>
      match substitute aliases labels index tokens with
      | .ok tokens => encodeReplaced labels tokens
      | .error fault => .error fault

def encodeLine (aliases : List Alias) (labels : List Label) (line : SourceLine) :
    Except Fault String :=
  encode aliases labels (some line.index) line.tokens

end Encoding
end Chip8Asm
