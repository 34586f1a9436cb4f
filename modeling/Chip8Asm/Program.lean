import Chip8Asm.Layout

/-! Programs. A source is read line by line, and each line is a statement in the light of those
above it: the declaration of an alias or of a label, a line of the label declared last, or, above
the first label, an orphan. Once all lines are read the labels are placed. -/

namespace Chip8Asm

/-- What to do with lines above the first label. -/
inductive OrphanPolicy where
  | reject
  | discard
deriving DecidableEq, Repr

inductive Statement where
  | declareAlias (declared : Alias)
  | declareLabel (name : String) (index : Int)
  | orphan (line : SourceLine)
  | body (line : SourceLine) (size : Nat)
deriving DecidableEq, Repr

/-- Lines hold the body in the order of the source, warnings the orphans. Aliases and labels stand
in the order of declaration. -/
structure Program where
  lines : List SourceLine := []
  aliases : List Alias := []
  labels : List Label := []
  warnings : List String := []
deriving DecidableEq, Repr

namespace Program

def aliasDirective : String := ":ALIAS"

/-- The names a label directive gives, behind a colon that stands alone or at the front of the first
name. There are none without a token. -/
def labelNames? : List String → Option (List String)
  | [] => none
  | head :: rest =>
    some (if head = ":" then rest else String.ofList (head.toList.drop 1) :: rest)

/-- A diagnostic at a line. -/
def complain (file : String) (line : SourceLine) (cause : Cause) : Diagnostic :=
  (Diagnostic.ofCause cause).locate ⟨file, line.index⟩ line.text

def readAlias (file : String) (line : SourceLine) : Except Diagnostic Statement :=
  match line.tokens with
  | [_, source, target] => .ok (.declareAlias ⟨source, target, line.index⟩)
  | _ =>
    .error (complain file line
      (.malformedDirective line.text "expected ':ALIAS <name> <replacement>'"))

def readLabel (file : String) (program : Program) (line : SourceLine) :
    Except Diagnostic Statement :=
  match labelNames? line.tokens with
  | some [name] =>
    match Label.find? program.labels name with
    | some first =>
      .error (complain file line (.duplicateLabel name (some ⟨file, first.index⟩)))
    | none => .ok (.declareLabel name line.index)
  | _ => .error (complain file line (.malformedDirective line.text "expected ': <label>'"))

def readBody (file : String) (policy : OrphanPolicy) (program : Program) (line : SourceLine) :
    Except Diagnostic Statement :=
  if program.labels.isEmpty then
    match policy with
    | .reject => .error (complain file line (.orphanLine line.text))
    | .discard => .ok (.orphan line)
  else .ok (.body line ((line.size? program.aliases).getD 0))

/-- The statement that a line makes after what the program holds already. -/
def read (file : String) (policy : OrphanPolicy) (program : Program) (line : SourceLine) :
    Except Diagnostic Statement :=
  if line.isDirective then
    if line.tokens.head? = some aliasDirective then readAlias file line
    else readLabel file program line
  else readBody file policy program line

def orphanWarning (file : String) (line : SourceLine) : String :=
  Location.render ⟨file, line.index⟩ ++ ": discarding line outside of any label: " ++ line.text

def record (file : String) (program : Program) : Statement → Program
  | .declareAlias a => { program with aliases := program.aliases ++ [a] }
  | .declareLabel name index =>
    { program with labels := program.labels ++ [{ name, index }] }
  | .orphan line => { program with warnings := program.warnings ++ [orphanWarning file line] }
  | .body line size =>
    { program with
      lines := program.lines ++ [line]
      labels := Label.addToLast line size program.labels }

/-- Reads lines up to the first that makes no statement. -/
def scan (file : String) (policy : OrphanPolicy) (program : Program) :
    List SourceLine → Except Diagnostic Program
  | [] => .ok program
  | line :: rest =>
    match program.read file policy line with
    | .ok statement => (program.record file statement).scan file policy rest
    | .error d => .error d

/-- The statements of the lines that `scan` reads. -/
def statements (file : String) (policy : OrphanPolicy) (program : Program) :
    List SourceLine → List Statement
  | [] => []
  | line :: rest =>
    match program.read file policy line with
    | .ok statement => statement :: (program.record file statement).statements file policy rest
    | .error _ => []

/-- Places the labels, unless one overflows. Unlike those of other tables, the sizes and lines of
the labels of a source are counted out in it and have few digits, so an overflow can always be put
into words. -/
def place (file : String) (program : Program) : Except Diagnostic Program :=
  match Layout.overflow? file (Layout.place Layout.defaultBase program.labels) with
  | some d => .error d
  | none => .ok { program with labels := Layout.place Layout.defaultBase program.labels }

def ofSource (file : String) (policy : OrphanPolicy) (source : String) :
    Except Diagnostic Program :=
  match ({} : Program).scan file policy (SourceLine.ofSource source) with
  | .ok program => program.place file
  | .error d => .error d

/-- The size in bytes. -/
def size (program : Program) : Int := Layout.totalSize program.labels

/-- The labels in the order of their addresses. -/
def layout (program : Program) : List Label := Layout.byAddress program.labels

def symbols (program : Program) : List (String × Option Int) :=
  program.labels.map fun label => (label.name, label.address)

end Program

end Chip8Asm
