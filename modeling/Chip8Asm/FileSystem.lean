import Chip8Asm.Text.Quoted

/-! Paths and file systems. A path has names divided by slashes, and starts at the root if a slash
stands in front. Which file a path leads to is left to the file system, as is what a write comes to
that does not succeed. -/

namespace Chip8Asm

namespace Path

def isAbsolute (path : String) : Bool := path.toList.head? == some '/'

/-- The names between the slashes, the empty ones included. -/
def names (path : String) : List String := (path.toList.splitOn '/').map String.ofList

/-- The slashes in front of a normal path. Two are kept, any other number counts as one. -/
def front (path : String) : String :=
  let slashes := (path.toList.takeWhile (· == '/')).length
  if slashes = 0 then "" else if slashes = 2 then "//" else "/"

/-- The path without empty names and names of a single dot. A path without any other name is the dot
or the root. -/
def normalize (path : String) : String :=
  let kept := (names path).filter fun name => name != "" && name != "."
  let text := front path ++ "/".intercalate kept
  if text = "" then "." else text

end Path

inductive FileReason where
  | notPermitted
  | missing
  | denied
  | notDirectory
  | isDirectory
  | noSpace
  | readOnly
  | nameTooLong
  | nullCharacter
  | other (code : Int) (text : String)
deriving DecidableEq, Repr

/-- The number that the system has for a reason. It is never asked about a path with a null
character. -/
def FileReason.code? : FileReason → Option Int
  | .notPermitted => some 1
  | .missing => some 2
  | .denied => some 13
  | .notDirectory => some 20
  | .isDirectory => some 21
  | .noSpace => some 28
  | .readOnly => some 30
  | .nameTooLong => some 36
  | .nullCharacter => none
  | .other code _ => some code

def FileReason.text : FileReason → String
  | .notPermitted => "Operation not permitted"
  | .missing => "No such file or directory"
  | .denied => "Permission denied"
  | .notDirectory => "Not a directory"
  | .isDirectory => "Is a directory"
  | .noSpace => "No space left on device"
  | .readOnly => "Read-only file system"
  | .nameTooLong => "File name too long"
  | .nullCharacter => "embedded null byte"
  | .other _ text => text

structure FileError where
  reason : FileReason
  path : String
deriving DecidableEq, Repr

/-- The number and the text of a failure and the path in quotes. -/
def systemMessage (code : Int) (text path : String) : String :=
  "[Errno " ++ toString code ++ "] " ++ text ++ ": " ++ Text.quoted path

def FileError.message (error : FileError) : String :=
  match error.reason.code? with
  | some code => systemMessage code error.reason.text error.path
  | none => error.reason.text

/-- Files that are read and written by their paths. A write leaves the files behind as they then
are, whether it succeeds or not. -/
class FileSystem (σ : Type) where
  read : σ → String → Except FileError (List UInt8)
  write : σ → String → List UInt8 → σ × Except FileError Unit

end Chip8Asm
