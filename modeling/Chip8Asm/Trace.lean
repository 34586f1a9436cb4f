import Chip8Asm.Assembly

/-! The trace of an assembly: what is done with the statements of a source, its labels and its
lines, in order. -/

namespace Chip8Asm

inductive Level where
  | debug
  | info
  | warning
deriving DecidableEq, Repr

def Level.name : Level → String
  | .debug => "DEBUG"
  | .info => "INFO"
  | .warning => "WARNING"

structure TraceEntry where
  level : Level
  message : String
deriving DecidableEq, Repr

def TraceEntry.render (entry : TraceEntry) : String :=
  entry.level.name ++ ": " ++ entry.message

namespace Trace

def ofStatement (file : String) : Statement → List TraceEntry
  | .declareAlias a => [⟨.debug, "Alias " ++ a.source ++ " -> " ++ a.target⟩]
  | .declareLabel name index =>
    [⟨.debug, "Label " ++ name ++ " opened at line " ++ toString index⟩]
  | .orphan line => [⟨.warning, Program.orphanWarning file line⟩]
  | .body _ _ => []

def ofLabel (label : Label) : TraceEntry :=
  ⟨.debug, "Label " ++ label.name ++ " at 0x" ++ Text.hexSigned 3 (Layout.position label) ++
    " (" ++ toString label.size ++ " bytes)"⟩

/-- The labels up to the first that overflows, and the counts of a program that has been placed. -/
def ofPlacing (program : Program) : List TraceEntry :=
  let placed := Layout.place Layout.defaultBase program.labels
  let summary : TraceEntry :=
    ⟨.debug, "Preprocessed " ++ toString program.lines.length ++ " lines: " ++
      toString program.aliases.length ++ " aliases, " ++ toString program.labels.length ++
      " labels, " ++ toString program.size ++ " bytes"⟩
  (placed.takeWhile (!Layout.overflows ·)).map ofLabel ++
    if placed.any Layout.overflows then [] else [summary]

def ofEntry : Entry → List TraceEntry
  | .encoded _ _ => []
  | .failed line d => [⟨.debug, "Line " ++ toString line.index ++ " failed: " ++ d.message⟩]

def ofRun (run : Run) : List TraceEntry :=
  let codes := run.entries.filterMap Entry.code?
  let failures := run.entries.filterMap Entry.error?
  let summary : TraceEntry :=
    ⟨.debug, "Encoded " ++ toString codes.length ++ " lines (" ++
      toString ((String.join codes).length / 2) ++ " bytes), " ++ toString failures.length ++
      " errors"⟩
  let ending : List TraceEntry :=
    match run.stop with
    | .fault _ => []
    | .limit =>
      [⟨.warning, "Too many errors (" ++ toString run.log.limit ++ "), stopping"⟩, summary]
    | _ => [summary]
  run.entries.flatMap ofEntry ++ ending

/-- The trace of assembling a source. -/
def ofSource (config : Config) (file source : String) : List TraceEntry :=
  let lines := SourceLine.ofSource source
  let reading := (({} : Program).statements file config.orphans lines).flatMap (ofStatement file)
  match ({} : Program).scan file config.orphans lines with
  | .error _ => reading
  | .ok program =>
    reading ++ ofPlacing program ++
      match program.place file with
      | .error _ => []
      | .ok program => ofRun (Run.fresh config file program)

end Trace

end Chip8Asm
