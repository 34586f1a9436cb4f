import Chip8Asm.CommandLine.Arguments
import Chip8Asm.CommandLine.Invocation
import Chip8Asm.Disk
import Chip8Asm.Text.Integer

/-! Running the program on its arguments. Help and version are asked for before any value is looked
at. The options are checked in the order of their first use, then the input file, then that nothing
is left over. -/

namespace Chip8Asm
namespace CommandLine

inductive Command where
  | help
  | version
  | assemble (invocation : Invocation)
deriving DecidableEq, Repr

/-- Why arguments come to no command: they are not used rightly, or the disk could not be asked
about one of them. -/
inductive Refusal where
  | usage (error : UsageError)
  | file (error : FileError)
deriving DecidableEq, Repr

def Refusal.invalid (parameter : Parameter) (problem : Problem) : Refusal :=
  .usage (.invalid parameter problem)

def checkInput (disk : Disk) (path : String) : Except Refusal Unit :=
  match disk.look path with
  | .error e => .error (.file e)
  | .ok none => .error (.invalid .input (.doesNotExist path))
  | .ok (some .directory) => .error (.invalid .input (.isDirectory path))
  | .ok (some (.barred _)) => .error (.invalid .input (.notReadable path))
  | .ok (some (.file _)) => .ok ()

def checkTarget (disk : Disk) (setting : Setting) (path : String) : Except Refusal Unit :=
  match disk.look path with
  | .error e => .error (.file e)
  | .ok (some .directory) => .error (.invalid (.setting setting) (.isDirectory path))
  | .ok (some (.barred _)) => .error (.invalid (.setting setting) (.notReadable path))
  | .ok _ => .ok ()

def readMaxErrors (text : String) : Except Problem Int :=
  match Text.integer? maxDecimalDigits text with
  | none => .error (.notAnInteger text)
  | some value => if value < 1 then .error (.belowMinimum value) else .ok value

def checkSetting (disk : Disk) (setting : Setting) (value : String) : Except Refusal Unit :=
  match setting with
  | .output | .symbols => checkTarget disk setting value
  | .maxErrors =>
    match readMaxErrors value with
    | .error problem => .error (.invalid (.setting setting) problem)
    | .ok _ => .ok ()
  | _ => .ok ()

/-- Checks the values of options in turn. -/
def checkSettings (disk : Disk) (arguments : Arguments) : List Setting → Except Refusal Unit
  | [] => .ok ()
  | setting :: rest =>
    match arguments.value? setting with
    | none => checkSettings disk arguments rest
    | some value =>
      match checkSetting disk setting value with
      | .error e => .error e
      | .ok () => checkSettings disk arguments rest

namespace Arguments

def config (arguments : Arguments) : Config where
  orphans := if arguments.has .allowOrphans then .discard else .reject
  failFast := arguments.has .failFast
  maxErrors :=
    match (arguments.value? .maxErrors).map readMaxErrors with
    | some (.ok value) => value
    | _ => 100

def invocation (arguments : Arguments) (input : String) : Invocation where
  input := input
  output := arguments.value? .output
  symbols := arguments.value? .symbols
  verbose := arguments.has .verbose
  config := arguments.config

/-- Help or version, whichever was given first. -/
def information? (arguments : Arguments) : Option Command :=
  arguments.settings.findSome? fun
    | .help => some .help
    | .version => some .version
    | _ => none

def check (disk : Disk) (arguments : Arguments) : Except Refusal Command :=
  match arguments.information? with
  | some command => .ok command
  | none =>
    match checkSettings disk arguments arguments.settings with
    | .error e => .error e
    | .ok () =>
      match arguments.others with
      | [] => .error (.usage .inputMissing)
      | input :: extra =>
        match checkInput disk input with
        | .error e => .error e
        | .ok () =>
          if extra.isEmpty then .ok (.assemble (arguments.invocation input))
          else .error (.usage (.extraArguments extra))

end Arguments

def readCommand (disk : Disk) (arguments : List String) : Except Refusal Command :=
  match Arguments.parse arguments with
  | .error e => .error (.usage e)
  | .ok arguments => arguments.check disk

def usageText : String := "Usage: c8asm [OPTIONS] INPUT_FILE"

def versionText : String := "c8asm, version 1.0.0"

def helpText : String := "\n".intercalate [
  usageText,
  "",
  "  Assemble CHIP-8 source code.",
  "",
  "  INPUT_FILE is the assembly source file to assemble.",
  "",
  "  Prints each instruction or data line with its hex encoding. Labels are laid",
  "  out from 0x200 with START first.",
  "",
  "  Examples:",
  "      c8asm game.c8s                 # Listing on stdout",
  "      c8asm game.c8s -o game.lst     # Listing to a file",
  "      c8asm game.c8s -s game.sym     # Also write the label table",
  "",
  "Options:",
  "  -o, --output FILE           Write the listing to a file instead of stdout",
  "  -s, --symbols FILE          Write the label table (name, address, size)",
  "  --fail-fast                 Stop at the first line that cannot be encoded",
  "  --allow-orphans             Discard lines before the first label instead of",
  "                              failing",
  "  --max-errors INTEGER RANGE  Stop after this many errors  [default: 100;",
  "                              x>=1]",
  "  -v, --verbose               Verbose output",
  "  --version                   Show the version and exit.",
  "  --help                      Show this message and exit."]

def refuse (screen : Screen) (disk : Disk) (error : UsageError) : Outcome Disk :=
  let console : Console := {}
  let console :=
    if error.showsUsage then
      console.echoErr screen (usageText ++ "\nTry 'c8asm --help' for help.\n")
    else console
  ⟨2, console.echoErr screen ("Error: " ++ error.message), disk⟩

/-- Runs the program. It comes to no outcome if the disk cannot be asked about an argument. -/
def execute (screen : Screen) (disk : Disk) (arguments : List String) :
    Except FileError (Outcome Disk) :=
  match readCommand disk arguments with
  | .error (.usage e) => .ok (refuse screen disk e)
  | .error (.file e) => .error e
  | .ok .help => .ok ⟨0, ({} : Console).echo screen helpText, disk⟩
  | .ok .version => .ok ⟨0, ({} : Console).echo screen versionText, disk⟩
  | .ok (.assemble invocation) => .ok (assembleInput screen invocation disk)

end CommandLine
end Chip8Asm
