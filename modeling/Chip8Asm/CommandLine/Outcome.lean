import Chip8Asm.Session
import Chip8Asm.Text.Styling
import Chip8Asm.Trace

/-! What a run of the program leaves behind: an exit status, two streams of text and the files. How
a text that is shown comes out on a stream depends on the screen. -/

namespace Chip8Asm
namespace CommandLine

/-- What is written to each stream for a text that is shown on it. -/
structure Screen where
  out : String → String
  err : String → String

/-- Each text on a line of its own. Styling sequences are for terminals and are left out
elsewhere. -/
def Screen.lines (outIsTerminal errIsTerminal : Bool) : Screen where
  out text := (if outIsTerminal then text else Text.unstyle text) ++ "\n"
  err text := (if errIsTerminal then text else Text.unstyle text) ++ "\n"

/-- The two streams. -/
structure Console where
  out : String := ""
  err : String := ""
deriving DecidableEq, Repr

namespace Console

def echo (screen : Screen) (console : Console) (text : String) : Console :=
  { console with out := console.out ++ screen.out text }

def echoErr (screen : Screen) (console : Console) (text : String) : Console :=
  { console with err := console.err ++ screen.err text }

/-- Log lines and reports of internal state do not pass through the screen. -/
def writeErr (console : Console) (text : String) : Console :=
  { console with err := console.err ++ text ++ "\n" }

/-- Logs what the verbosity lets through: warnings always, all else on request. -/
def log (console : Console) (verbose : Bool) (entry : TraceEntry) : Console :=
  if verbose || entry.level == .warning then console.writeErr entry.render else console

def logAll (console : Console) (verbose : Bool) (entries : List TraceEntry) : Console :=
  entries.foldl (fun console entry => console.log verbose entry) console

end Console

/-- The classes of failures that the program tells apart when it ends. -/
inductive FailureClass where
  | assembler
  | badParameter
  | fileNotFound
  | permission
  | isDirectory
  | unexpected
deriving DecidableEq, Repr

def FailureClass.ofReason : FileReason → FailureClass
  | .missing => .fileNotFound
  | .denied | .notPermitted => .permission
  | .isDirectory => .isDirectory
  | _ => .unexpected

def FailureClass.ofFailure : Failure → FailureClass
  | .fault (.diagnostic _) => .assembler
  | .fault _ => .unexpected
  | .file error => .ofReason error.reason
  | .undecodable _ => .unexpected

/-- How a failure ends the program. -/
inductive Ending where
  | buildError
  | invalidArguments
  | internalError
deriving DecidableEq, Repr

namespace Ending

def exitCode : Ending → Nat
  | .buildError => 1
  | .invalidArguments => 2
  | .internalError => 3

/-- What stands in front of the message. A build error names its subject, if it has one. -/
def heading (subject : String) : Ending → String
  | .buildError => if subject = "" then "Error: " else subject ++ " error: "
  | .invalidArguments => "Error: "
  | .internalError => "Internal error: "

/-- Shows the message of a failure and, on request, where an internal error came from. -/
def announce (screen : Screen) (ending : Ending) (subject message : String)
    (origin : Option String) (console : Console) : Console :=
  let console := console.echoErr screen (ending.heading subject ++ message)
  match ending, origin with
  | .internalError, some origin => console.writeErr origin
  | _, _ => console

/-- A file that is missing, closed to the user or a directory is a mistake in the arguments. -/
def ofClass : FailureClass → Ending
  | .assembler => .buildError
  | .badParameter | .fileNotFound | .permission | .isDirectory => .invalidArguments
  | .unexpected => .internalError

def ofFailure (failure : Failure) : Ending := ofClass (.ofFailure failure)

end Ending

structure Outcome (σ : Type) where
  exitCode : Nat
  console : Console
  files : σ
deriving DecidableEq, Repr

end CommandLine
end Chip8Asm
