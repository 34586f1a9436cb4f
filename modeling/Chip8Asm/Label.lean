import Chip8Asm.Fault
import Chip8Asm.SourceLine

/-! Labels: names for runs of lines. A table of labels is a list in the order of declaration. -/

namespace Chip8Asm

/-- A label has no address until it is placed. -/
structure Label where
  name : String
  address : Option Int := none
  size : Int := 0
  lines : List SourceLine := []
  index : Int := 0
deriving DecidableEq, Repr

namespace Label

def addLine (label : Label) (line : SourceLine) (size : Int) : Label :=
  { label with lines := label.lines ++ [line], size := label.size + size }

def requireAddress (label : Label) : Except Fault Int :=
  match label.address with
  | some address => .ok address
  | none => .error (.unplaced label.name)

/-- The address in three digits, or more if it needs them. -/
def addressHex (label : Label) : Except Fault String :=
  label.requireAddress.map (Text.hexSigned 3)

/-- The first address after the label. -/
def endAddress (label : Label) : Except Fault Int := label.requireAddress.map (· + label.size)

def find? (labels : List Label) (name : String) : Option Label :=
  labels.find? (·.name == name)

/-- Adds a label at the end, or puts it in the place of the one of its name. -/
def insert (label : Label) : List Label → List Label
  | [] => [label]
  | other :: rest =>
    if other.name = label.name then label :: rest else other :: insert label rest

/-- The table of the given labels. Of two with the same name the later one counts. -/
def table (labels : List Label) : List Label :=
  labels.foldl (fun known label => label.insert known) []

/-- Adds a line to the label that was declared last. -/
def addToLast (line : SourceLine) (size : Int) : List Label → List Label
  | [] => []
  | [label] => [label.addLine line size]
  | label :: rest => label :: addToLast line size rest

end Label

end Chip8Asm
