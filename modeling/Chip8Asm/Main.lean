import Chip8Asm.CommandLine.Execute

/-! The program `c8asm`. It takes a picture of the files that its arguments name, runs on the
picture, and writes back the files that the run changed. -/

namespace Chip8Asm
namespace CommandLine

/-- What stands at a path on the machine. What is there and cannot be read is kept as such. -/
def probe (path : String) : IO (Option Node) := do
  if ← ((← IO.currentDir) / path).isDir then return some .directory
  try
    return some (.file (← IO.FS.readBinFile path).data.toList)
  catch
    | .noFileOrDirectory .. => return none
    | .permissionDenied .. => return some (.barred .denied)
    | e => return some (.barred (.other 5 (toString e)))

/-- The paths to the directories on the way and the path itself. -/
def stations (path : String) : List String :=
  let names := (Path.names path).filter (· != "")
  (List.range names.length).map fun k =>
    Path.front path ++ "/".intercalate (names.take (k + 1))

def picture (paths : List String) : IO Disk := do
  let current := Path.names (toString (← IO.currentDir))
  let empty : Disk := { current := ⟨current.filter (· != "")⟩ }
  (paths.flatMap stations).foldlM (fun disk path => do
    return match ← probe path with
      | some node => disk.install path node
      | none => disk) empty

/-- The values of options and the other arguments, all of which may be paths. -/
def namedPaths (arguments : List String) : List String :=
  match Arguments.parse arguments with
  | .ok arguments => arguments.others ++ arguments.given.filterMap Given.value
  | .error _ => []

/-- The screen that the two streams of this process make. -/
def screen : IO Screen := do
  return .lines (← (← IO.getStdout).isTty) (← (← IO.getStderr).isTty)

end CommandLine
end Chip8Asm

open Chip8Asm CommandLine in
def main (arguments : List String) : IO UInt32 := do
  let disk ← picture (namedPaths arguments)
  match execute (← screen) disk arguments with
  | .error e =>
    IO.eprintln e.message
    return 1
  | .ok outcome =>
    try
      for (place, bytes) in disk.changes outcome.files do
        IO.FS.writeBinFile place.path ⟨bytes.toArray⟩
    catch e =>
      IO.eprintln ("Error: " ++ toString e)
      return 2
    IO.print outcome.console.out
    IO.eprint outcome.console.err
    return outcome.exitCode.toUInt32
