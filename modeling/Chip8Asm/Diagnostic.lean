import Chip8Asm.Text.Hex

/-! Diagnostics: what is wrong with a source text, where, and what may help. The wording of every
cause stands here. -/

namespace Chip8Asm

/-- A line of a named source. Lines are numbered from zero. -/
structure Location where
  file : String
  line : Int
deriving DecidableEq, Repr

def Location.render (location : Location) : String :=
  location.file ++ ":" ++ toString location.line

inductive Cause where
  | general (text : String)
  | unknownInstruction (mnemonic : String)
  | invalidRegister (token : String)
  | invalidNumber (token : String)
  | unknownLabel (name : String) (similar : List String)
  | illegalOperand (mnemonic token : String)
  | malformedDirective (line reason : String)
  | orphanLine (line : String)
  | duplicateLabel (name : String) (first : Option Location)
  | addressOverflow (name : String) (address size : Int)
  | tooManyErrors (text : String)
deriving DecidableEq, Repr

def Cause.message : Cause → String
  | .general text => text
  | .unknownInstruction mnemonic => "Unknown instruction: " ++ mnemonic
  | .invalidRegister token => "Invalid register: " ++ token
  | .invalidNumber token => "Invalid number: " ++ token
  | .unknownLabel name _ => "Unknown label: " ++ name
  | .illegalOperand mnemonic token => token ++ " not available for " ++ mnemonic
  | .malformedDirective line reason =>
    "Malformed directive: " ++ line ++ if reason = "" then "" else " (" ++ reason ++ ")"
  | .orphanLine line => "Line outside of any label: " ++ line
  | .duplicateLabel name _ => "Duplicate label: " ++ name
  | .addressOverflow name address size =>
    "Label " ++ name ++ " at 0x" ++ Text.hexSigned 0 address ++
      if size = 0 then " is outside the 12-bit address space"
      else " (" ++ toString size ++ " bytes) runs past the 12-bit address space"
  | .tooManyErrors text => text

/-- The hint that goes with a cause unless another is given. -/
def Cause.hint : Cause → Option String
  | .unknownLabel _ [] => none
  | .unknownLabel _ similar =>
    some ("did you mean " ++
      ", ".intercalate ((similar.take 3).map fun name => "'" ++ name ++ "'") ++ "?")
  | .illegalOperand mnemonic _ => some ("use V0 for " ++ mnemonic ++ " with an offset")
  | .orphanLine _ => some "add a label directive such as ': START' above it"
  | .duplicateLabel name (some first) =>
    some ("'" ++ name ++ "' was first defined at " ++ first.render)
  | _ => none

/-- The numbers that are put in decimal into the message or the hint. -/
def Cause.decimals : Cause → List Int
  | .addressOverflow _ _ size => [size]
  | .duplicateLabel _ (some first) => [first.line]
  | _ => []

structure Diagnostic where
  cause : Cause
  location : Option Location
  sourceLine : Option String
  hint : Option String
deriving DecidableEq, Repr

namespace Diagnostic

/-- A diagnostic without a place, with the hint of its cause. -/
def ofCause (cause : Cause) : Diagnostic := ⟨cause, none, none, cause.hint⟩

def message (d : Diagnostic) : String := d.cause.message

/-- The numbers that are put in decimal into the text. -/
def decimals (d : Diagnostic) : List Int :=
  d.cause.decimals ++ (d.location.map Location.line).toList

/-- Sets the place and the text of the line. -/
def locate (d : Diagnostic) (location : Location) (sourceLine : String) : Diagnostic :=
  { d with location := some location, sourceLine := some sourceLine }

/-- The message behind its place, then the line, if there is a place, then a hint that is not
empty. -/
def render (d : Diagnostic) : String :=
  let head :=
    match d.location with
    | some location => location.render ++ ": error: " ++ d.message
    | none => d.message
  let source :=
    match d.location, d.sourceLine with
    | some _, some text => ["    " ++ text]
    | _, _ => []
  let hint :=
    match d.hint with
    | none | some "" => []
    | some text => ["hint: " ++ text]
  "\n".intercalate (head :: source ++ hint)

end Diagnostic

end Chip8Asm
