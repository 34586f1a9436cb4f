import Chip8Asm.Label
import Chip8Asm.Text.Similarity

/-! The layout of labels in memory. The entry label comes first, wherever it is declared; the others
follow it without gaps, in the order of their declaration. Addresses have twelve bits. -/

namespace Chip8Asm
namespace Layout

/-- Programs are loaded at this address. -/
def defaultBase : Int := 0x200

def maxAddress : Int := 0xFFF

def entryName : String := "START"

def isEntry (label : Label) : Bool := label.name == entryName

def totalSize (labels : List Label) : Int :=
  labels.foldr (fun label total => label.size + total) 0

def entrySize (labels : List Label) : Int :=
  match labels.find? isEntry with
  | some entry => entry.size
  | none => 0

/-- Places the entry at the base and the other labels from the cursor on. -/
def placeFrom (base : Int) : Int → List Label → List Label
  | _, [] => []
  | cursor, label :: rest =>
    if isEntry label then { label with address := some base } :: placeFrom base cursor rest
    else { label with address := some cursor } :: placeFrom base (cursor + label.size) rest

def place (base : Int) (labels : List Label) : List Label :=
  placeFrom base (base + entrySize labels) labels

/-- Where the cursor stands after the labels. -/
def cursorAfter : Int → List Label → Int
  | cursor, [] => cursor
  | cursor, label :: rest =>
    if isEntry label then cursorAfter cursor rest else cursorAfter (cursor + label.size) rest

/-- The first address after all labels. -/
def endAddress (base : Int) (labels : List Label) : Int :=
  cursorAfter (base + entrySize labels) labels

/-- The address of a label that has been placed. -/
def position (label : Label) : Int := label.address.getD 0

/-- The last address that the label takes, or its address if it is empty. -/
def lastAddress (label : Label) : Int :=
  if label.size = 0 then position label else position label + label.size - 1

def overflows (label : Label) : Bool := decide (maxAddress < lastAddress label)

/-- The overflow of the label that is declared first among those that overflow. -/
def overflow? (file : String) (placed : List Label) : Option Diagnostic :=
  (placed.find? overflows).map fun label =>
    { Diagnostic.ofCause (.addressOverflow label.name (position label) label.size) with
      location := some ⟨file, label.index⟩ }

/-- The labels placed from the base on, and the first address after them unless one overflows. -/
def assign (file : String) (base : Int) (labels : List Label) : List Label × Except Fault Int :=
  let placed := place base labels
  (placed,
    match overflow? file placed with
    | some d => .error (.raise d)
    | none => .ok (endAddress base labels))

/-- Labels in the order of their addresses. -/
def byAddress (placed : List Label) : List Label :=
  sorted (fun a b => decide (position a ≤ position b)) placed

end Layout
end Chip8Asm
