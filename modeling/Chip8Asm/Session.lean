import Chip8Asm.Assembly
import Chip8Asm.FileSystem
import Chip8Asm.Text.Utf8

/-! Sessions: sources are assembled one after the other, and the last result can be looked at and
written to files. One log serves all assemblies of a session; it is cleared when an assembly starts.
The result is there only once the assembly has come to its end. -/

namespace Chip8Asm

inductive Failure where
  | fault (fault : Fault)
  | file (error : FileError)
  | undecodable (fault : Text.Utf8Fault)
deriving DecidableEq, Repr

def Failure.message : Failure → String
  | .fault f => f.message
  | .file e => e.message
  | .undecodable f => f.message

section
variable [FileSystem σ]

/-- The text of a file, with line feeds for all its line ends. -/
def FileSystem.readText (files : σ) (path : String) : Except Failure String :=
  match read files path with
  | .error error => .error (.file error)
  | .ok bytes =>
    match Text.decodeUtf8 bytes with
    | .error fault => .error (.undecodable fault)
    | .ok text => .ok (String.ofList (Text.unifyBreaks text.toList))

def FileSystem.writeText (files : σ) (path text : String) : σ × Except Failure Unit :=
  let (files, answer) := write files path (Text.encodeUtf8 text)
  (files, answer.mapError .file)

end

structure Session where
  config : Config
  log : ErrorLog
  assembly : Option Assembly
deriving DecidableEq, Repr

/-- What a session is asked for. -/
inductive Request where
  | assemble (file source : String)
  | assembleFile (path : String)
  | program
  | words
  | symbols
  | listing
  | errors
  | hasErrors
  | report
  | writeListing (path : String)
  | writeSymbols (path : String)
deriving DecidableEq, Repr

inductive Reply where
  | assembly (assembly : Assembly)
  | program (program : Program)
  | words (words : List String)
  | symbols (symbols : List (String × Option Int))
  | text (text : String)
  | errors (errors : List Diagnostic)
  | flag (value : Bool)
deriving DecidableEq, Repr

namespace Session

def new (config : Config) : Session := ⟨config, .empty config.maxErrors, none⟩

/-- Clears what an assembly before has left. -/
def restart (session : Session) : Session :=
  { session with log := session.log.clear, assembly := none }

/-- Assembles the lines of a program, with the log of the session. -/
def assembleProgram (session : Session) (file : String) (program : Program) :
    Session × Except Fault Assembly :=
  let run := Run.ofProgram session.config file program session.log
  let session := { session with log := run.log }
  match run.result program with
  | .error fault => (session, .error fault)
  | .ok assembly => ({ session with assembly := some assembly }, .ok assembly)

def assemble (session : Session) (file source : String) : Session × Except Fault Assembly :=
  let session := session.restart
  match Program.ofSource file session.config.orphans source with
  | .error d => (session, .error (.diagnostic d))
  | .ok program => session.assembleProgram file program

def result (session : Session) : Except Failure Assembly :=
  match session.assembly with
  | some assembly => .ok assembly
  | none => .error (.fault (.ofCause (.general "nothing has been assembled yet")))

variable [FileSystem σ]

/-- Leaves the session as it is if the file cannot be read. -/
def assembleFile (session : Session) (files : σ) (path : String) :
    Session × Except Failure Assembly :=
  let file := Path.normalize path
  match FileSystem.readText files file with
  | .error failure => (session, .error failure)
  | .ok source =>
    let (session, answer) := session.assemble file source
    (session, answer.mapError .fault)

/-- Writes a text made of the result. -/
def write (session : Session) (files : σ) (path : String) (text : Assembly → String) :
    σ × Except Failure String :=
  match session.result with
  | .error failure => (files, .error failure)
  | .ok assembly =>
    let (files, answer) := FileSystem.writeText files (Path.normalize path) (text assembly)
    (files, answer.map fun _ => text assembly)

def handle (session : Session) (files : σ) : Request → Session × σ × Except Failure Reply
  | .assemble file source =>
    let (session, answer) := session.assemble file source
    (session, files, (answer.mapError .fault).map .assembly)
  | .assembleFile path =>
    let (session, answer) := session.assembleFile files path
    (session, files, answer.map .assembly)
  | .program => (session, files, session.result.map fun a => .program a.program)
  | .words => (session, files, session.result.map fun a => .words a.words)
  | .symbols => (session, files, session.result.map fun a => .symbols a.program.symbols)
  | .listing => (session, files, session.result.map fun a => .text a.listing)
  | .errors => (session, files, .ok (.errors session.log.errors))
  | .hasErrors => (session, files, .ok (.flag session.log.hasErrors))
  | .report => (session, files, .ok (.text session.log.render))
  | .writeListing path =>
    let (files, answer) := session.write files path Assembly.listingFile
    (session, files, answer.map .text)
  | .writeSymbols path =>
    let (files, answer) := session.write files path Assembly.symbolFile
    (session, files, answer.map .text)

end Session

/-- The log and the result of a new session that assembles a source. -/
def assemble (config : Config) (file source : String) : ErrorLog × Except Fault Assembly :=
  let (session, answer) := (Session.new config).assemble file source
  (session.log, answer)

end Chip8Asm
