import Chip8Asm.CommandLine.Outcome

/-! Invocations, and what the program does with one: it reads the input, assembles it, shows or
writes the listing, writes the labels, and ends. A failure on the way ends it there. -/

namespace Chip8Asm
namespace CommandLine

/-- Paths stand as they were given. -/
structure Invocation where
  input : String
  output : Option String
  symbols : Option String
  verbose : Bool
  config : Config
deriving DecidableEq, Repr

/-- The subject of the build errors of this program. -/
def subject : String := "Assembly"

/-- The line that opens the report of where an internal error came from. -/
def originHeading : String := "Traceback (most recent call last):"

def fail (screen : Screen) (verbose : Bool) (failure : Failure) (console : Console) (files : σ) :
    Outcome σ :=
  let ending := Ending.ofFailure failure
  let origin := if verbose then some originHeading else none
  ⟨ending.exitCode, ending.announce screen subject failure.message origin console, files⟩

/-- The summary of a verbose run, the report if nobody has seen the errors, and the status. -/
def conclude (screen : Screen) (invocation : Invocation) (session : Session) (assembly : Assembly)
    (console : Console) (files : σ) : Outcome σ :=
  let program := assembly.program
  let console :=
    if invocation.verbose then
      console.echoErr screen ("Assembly complete: " ++ toString program.lines.length ++
        " lines, " ++ toString program.size ++ " bytes, " ++ toString program.labels.length ++
        " labels")
    else console
  if session.log.hasErrors then
    let console :=
      if invocation.output.isSome || invocation.verbose then
        console.echoErr screen session.log.render
      else console
    ⟨1, console, files⟩
  else ⟨0, console, files⟩

variable [FileSystem σ]

def emitSymbols (screen : Screen) (invocation : Invocation) (session : Session)
    (assembly : Assembly) (console : Console) (files : σ) : Outcome σ :=
  match invocation.symbols with
  | none => conclude screen invocation session assembly console files
  | some path =>
    match session.write files path Assembly.symbolFile with
    | (files, .error failure) => fail screen invocation.verbose failure console files
    | (files, .ok _) =>
      let target := Path.normalize path
      let console := console.logAll invocation.verbose
        [⟨.debug, "Wrote " ++ toString assembly.program.labels.length ++ " symbols to " ++ target⟩,
          ⟨.info, "Wrote symbols to " ++ target⟩]
      conclude screen invocation session assembly console files

/-- The listing goes to its file, or entry by entry to the output stream. -/
def emitListing (screen : Screen) (invocation : Invocation) (session : Session)
    (assembly : Assembly) (console : Console) (files : σ) : Outcome σ :=
  match invocation.output with
  | none =>
    let console :=
      assembly.entries.foldl (fun console entry => console.echo screen entry.render) console
    emitSymbols screen invocation session assembly console files
  | some path =>
    match session.write files path Assembly.listingFile with
    | (files, .error failure) => fail screen invocation.verbose failure console files
    | (files, .ok _) =>
      let target := Path.normalize path
      let console := console.logAll invocation.verbose
        [⟨.debug, "Wrote listing to " ++ target⟩, ⟨.info, "Wrote listing to " ++ target⟩]
      emitSymbols screen invocation session assembly console files

/-- The trace of reading and assembling the input. -/
def Invocation.trace (invocation : Invocation) (files : σ) : List TraceEntry :=
  let file := Path.normalize invocation.input
  let opening : TraceEntry := ⟨.debug, "Assembling " ++ file⟩
  opening :: opening ::
    match FileSystem.readText files file with
    | .error _ => []
    | .ok source => Trace.ofSource invocation.config file source

def assembleInput (screen : Screen) (invocation : Invocation) (files : σ) : Outcome σ :=
  let console := ({} : Console).logAll invocation.verbose (invocation.trace files)
  match (Session.new invocation.config).assembleFile files invocation.input with
  | (_, .error failure) => fail screen invocation.verbose failure console files
  | (session, .ok assembly) => emitListing screen invocation session assembly console files

end CommandLine
end Chip8Asm
