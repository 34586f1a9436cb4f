import Chip8Asm.Encoding
import Chip8Asm.ErrorLog

/-! Assemblies: a program with the encodings of its lines. A line that cannot be encoded is
logged, and the next one is taken, until the log is full or, on request, after the first such
line. A fault that is no diagnostic ends the assembly without a result. -/

namespace Chip8Asm

/-! ### Columns -/

namespace Text

/-- Text filled up with spaces to a width. Longer text is kept whole. -/
def alignLeft (width : Nat) (s : String) : String :=
  String.ofList (s.toList.rightpad width ' ')

def alignRight (width : Nat) (s : String) : String :=
  String.ofList (s.toList.leftpad width ' ')

end Text

/-! ### Entries -/

/-- A line with its code, or with what is wrong with it. -/
inductive Entry where
  | encoded (line : SourceLine) (code : String)
  | failed (line : SourceLine) (error : Diagnostic)
deriving DecidableEq, Repr

namespace Entry

/-- The width of the source text in a listing. -/
def columnWidth : Nat := 30

def line : Entry → SourceLine
  | .encoded line _ | .failed line _ => line

def code? : Entry → Option String
  | .encoded _ code => some code
  | .failed _ _ => none

def error? : Entry → Option (SourceLine × Diagnostic)
  | .encoded _ _ => none
  | .failed line error => some (line, error)

def render : Entry → String
  | .encoded line code => " " ++ Text.alignLeft columnWidth line.text ++ " | " ++ code
  | .failed line error =>
    "Error on line " ++ toString line.index ++ " (" ++ line.text ++ ") | " ++ error.message

end Entry

/-! ### Assemblies -/

/-- A program with the entries of the lines that were taken, in their order. -/
structure Assembly where
  program : Program
  entries : List Entry
deriving DecidableEq, Repr

namespace Assembly

def words (assembly : Assembly) : List String := assembly.entries.filterMap Entry.code?

def errors (assembly : Assembly) : List (SourceLine × Diagnostic) :=
  assembly.entries.filterMap Entry.error?

def ok (assembly : Assembly) : Bool := assembly.errors.isEmpty

def hex (assembly : Assembly) : String := String.join assembly.words

def listing (assembly : Assembly) : String :=
  "\n".intercalate (assembly.entries.map Entry.render)

def listingFile (assembly : Assembly) : String := assembly.listing ++ "\n"

def symbolLine (label : Label) : String :=
  Text.alignLeft Entry.columnWidth label.name ++ " $" ++
    Text.hexSigned 3 (Layout.position label) ++ "  " ++
    Text.alignRight 3 (toString label.size) ++ " bytes"

/-- One line for each label, in the order of addresses. -/
def symbolFile (assembly : Assembly) : String :=
  "\n".intercalate (assembly.program.layout.map symbolLine) ++ "\n"

end Assembly

/-! ### Runs -/

/-- Why no more lines were taken. -/
inductive Stop where
  | finished
  | limit
  | firstError
  | fault (fault : Fault)
deriving DecidableEq, Repr

/-- A full log ends a run, with a fault if it cannot even say that it is full. -/
def Stop.ofFull : Fault → Stop
  | .diagnostic _ => .limit
  | other => .fault other

/-- What has been done with the lines of a program. -/
structure Run where
  entries : List Entry
  log : ErrorLog
  stop : Stop
deriving DecidableEq, Repr

structure Config where
  orphans : OrphanPolicy := .reject
  failFast : Bool := false
  maxErrors : Int := 100
deriving DecidableEq, Repr

namespace Run

def cons (entry : Entry) (run : Run) : Run := { run with entries := entry :: run.entries }

/-- Takes the lines one by one, reporting to the log. -/
def encodeLines (file : String) (failFast : Bool) (program : Program) :
    ErrorLog → List SourceLine → Run
  | log, [] => ⟨[], log, .finished⟩
  | log, line :: rest =>
    match Encoding.encodeLine program.aliases program.labels line with
    | .ok code => (encodeLines file failFast program log rest).cons (.encoded line code)
    | .error (.diagnostic d) =>
      let d := d.locate ⟨file, line.index⟩ line.text
      match log.report d with
      | (log, some fault) => ⟨[.failed line d], log, .ofFull fault⟩
      | (log, none) =>
        if failFast then ⟨[.failed line d], log, .firstError⟩
        else (encodeLines file failFast program log rest).cons (.failed line d)
    | .error fault => ⟨[], log, .fault fault⟩

/-- Warns of the orphans first. -/
def ofProgram (config : Config) (file : String) (program : Program) (log : ErrorLog) : Run :=
  encodeLines file config.failFast program (program.warnings.foldl ErrorLog.warn log) program.lines

/-- The run of a program with nothing in the log before. -/
def fresh (config : Config) (file : String) (program : Program) : Run :=
  ofProgram config file program (.empty config.maxErrors)

def result (run : Run) (program : Program) : Except Fault Assembly :=
  match run.stop with
  | .fault fault => .error fault
  | _ => .ok ⟨program, run.entries⟩

end Run

end Chip8Asm
