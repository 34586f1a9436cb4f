import Chip8Asm.Text.Quoted
import Chip8Asm.Text.Similarity

/-! Command line arguments: options with and without a value, in short and long spelling, and the
arguments besides them. -/

namespace Chip8Asm
namespace CommandLine

inductive Setting where
  | output
  | symbols
  | failFast
  | allowOrphans
  | maxErrors
  | verbose
  | version
  | help
deriving DecidableEq, Repr

namespace Setting

def all : List Setting :=
  [.output, .symbols, .failFast, .allowOrphans, .maxErrors, .verbose, .version, .help]

def short? : Setting → Option Char
  | .output => some 'o'
  | .symbols => some 's'
  | .verbose => some 'v'
  | _ => none

def long : Setting → String
  | .output => "--output"
  | .symbols => "--symbols"
  | .failFast => "--fail-fast"
  | .allowOrphans => "--allow-orphans"
  | .maxErrors => "--max-errors"
  | .verbose => "--verbose"
  | .version => "--version"
  | .help => "--help"

def takesValue : Setting → Bool
  | .output | .symbols | .maxErrors => true
  | _ => false

def ofShort? (c : Char) : Option Setting := all.find? fun s => s.short? == some c

def ofLong? (name : String) : Option Setting := all.find? (·.long == name)

/-- The spellings of an option, in quotes. -/
def display (setting : Setting) : String :=
  match setting.short? with
  | some c => "'-" ++ String.singleton c ++ "' / '" ++ setting.long ++ "'"
  | none => "'" ++ setting.long ++ "'"

end Setting

inductive Parameter where
  | input
  | setting (setting : Setting)
deriving DecidableEq, Repr

def Parameter.display : Parameter → String
  | .input => "'INPUT_FILE'"
  | .setting s => s.display

/-- What is wrong with the value of a parameter. -/
inductive Problem where
  | doesNotExist (path : String)
  | isDirectory (path : String)
  | notReadable (path : String)
  | notAnInteger (text : String)
  | belowMinimum (value : Int)
deriving DecidableEq, Repr

def Problem.message : Problem → String
  | .doesNotExist path => "File " ++ Text.quoted path ++ " does not exist."
  | .isDirectory path => "File " ++ Text.quoted path ++ " is a directory."
  | .notReadable path => "File " ++ Text.quoted path ++ " is not readable."
  | .notAnInteger text => Text.quoted text ++ " is not a valid integer range."
  | .belowMinimum value => toString value ++ " is not in the range x>=1."

inductive UsageError where
  | noSuchOption (name : String) (similar : List String)
  | valueMissing (name : String)
  | valueUnwanted (name : String)
  | inputMissing
  | invalid (parameter : Parameter) (problem : Problem)
  | extraArguments (arguments : List String)
deriving DecidableEq, Repr

namespace UsageError

def message : UsageError → String
  | .noSuchOption name similar =>
    let names := ", ".intercalate (sorted (fun a b => !decide (b < a)) similar)
    "No such option: " ++ name ++
      match similar with
      | [] => ""
      | [_] => " Did you mean " ++ names ++ "?"
      | _ => " (Possible options: " ++ names ++ ")"
  | .valueMissing name => "Option " ++ Text.quoted name ++ " requires an argument."
  | .valueUnwanted name => "Option " ++ Text.quoted name ++ " does not take a value."
  | .inputMissing => "Missing argument 'INPUT_FILE'."
  | .invalid parameter problem =>
    "Invalid value for " ++ parameter.display ++ ": " ++ problem.message
  | .extraArguments arguments =>
    "Got unexpected extra argument" ++ (if arguments.length = 1 then "" else "s") ++ " (" ++
      " ".intercalate arguments ++ ")"

/-- Errors in the use of an option's value come without the usage in front. -/
def showsUsage : UsageError → Bool
  | .valueMissing _ | .valueUnwanted _ => false
  | _ => true

end UsageError

/-- An option as it was given. -/
structure Given where
  setting : Setting
  value : Option String
deriving DecidableEq, Repr

/-- The options in the order given, and the other arguments. -/
structure Arguments where
  given : List Given := []
  others : List String := []
deriving DecidableEq, Repr

namespace Arguments

def add (given : List Given) (arguments : Arguments) : Arguments :=
  { arguments with given := given ++ arguments.given }

/-- Short options behind one dash, the last of which may wait for its value. -/
structure Cluster where
  given : List Given
  waiting : Option Setting
deriving DecidableEq, Repr

/-- An option with a value takes the rest of the cluster for it, if there is one. -/
def readCluster : List Char → Except UsageError Cluster
  | [] => .ok ⟨[], none⟩
  | c :: cs =>
    match Setting.ofShort? c with
    | none => .error (.noSuchOption (String.ofList ['-', c]) [])
    | some setting =>
      if !setting.takesValue then
        (readCluster cs).map fun rest => { rest with given := ⟨setting, none⟩ :: rest.given }
      else if cs.isEmpty then .ok ⟨[], some setting⟩
      else .ok ⟨[⟨setting, some (String.ofList cs)⟩], none⟩

/-- A long option, with what stands behind its equals sign. -/
def readLong (argument : String) : Except UsageError (Setting × Option String) :=
  let cs := argument.toList
  let name := String.ofList (cs.takeWhile (· != '='))
  let value :=
    match cs.dropWhile (· != '=') with
    | [] => none
    | _ :: rest => some (String.ofList rest)
  match Setting.ofLong? name with
  | none => .error (.noSuchOption name (Text.similarNames name (Setting.all.map Setting.long)))
  | some setting =>
    if !setting.takesValue && value.isSome then .error (.valueUnwanted name)
    else .ok (setting, value)

def parse : List String → Except UsageError Arguments
  | [] => .ok {}
  | argument :: rest =>
    match argument.toList with
    | ['-', '-'] => .ok { others := rest }
    | '-' :: '-' :: _ =>
      match readLong argument with
      | .error e => .error e
      | .ok (setting, value) =>
        if setting.takesValue && value.isNone then
          match rest with
          | [] => .error (.valueMissing setting.long)
          | next :: rest => (parse rest).map (add [⟨setting, some next⟩])
        else (parse rest).map (add [⟨setting, value⟩])
    | '-' :: c :: cs =>
      match readCluster (c :: cs) with
      | .error e => .error e
      | .ok ⟨given, none⟩ => (parse rest).map (add given)
      | .ok ⟨given, some setting⟩ =>
        match rest with
        | [] => .error (.valueMissing (String.ofList ('-' :: setting.short?.toList)))
        | next :: rest => (parse rest).map (add (given ++ [⟨setting, some next⟩]))
    | _ => (parse rest).map fun arguments =>
        { arguments with others := argument :: arguments.others }

def has (arguments : Arguments) (setting : Setting) : Bool :=
  arguments.given.any (·.setting == setting)

/-- The last value given. -/
def value? (arguments : Arguments) (setting : Setting) : Option String :=
  (arguments.given.reverse.find? (·.setting == setting)).bind Given.value

/-- The options given, each once, in the order of their first use. -/
def settings (arguments : Arguments) : List Setting :=
  (arguments.given.map Given.setting).eraseDups

end Arguments

end CommandLine
end Chip8Asm
