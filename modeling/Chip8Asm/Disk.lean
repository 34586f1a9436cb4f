import Chip8Asm.FileSystem

/-! A file system in memory: files and directories at places that are counted from the root. Paths
start at the root or in the current directory, and may climb above it. -/

namespace Chip8Asm

/-- The names on the way from the root. -/
structure Place where
  names : List String
deriving DecidableEq, Repr

namespace Place

def root : Place := ⟨[]⟩

def child (place : Place) (name : String) : Place := ⟨place.names ++ [name]⟩

def parent (place : Place) : Place := ⟨place.names.dropLast⟩

/-- The path from the root. -/
def path (place : Place) : String := "/" ++ "/".intercalate place.names

end Place

/-- What stands at a place: a file, a directory, or something that is not opened for a reason. -/
inductive Node where
  | file (bytes : List UInt8)
  | directory
  | barred (reason : FileReason)
deriving DecidableEq, Repr

/-- Nodes with their places. Of two nodes at one place the first counts. -/
structure Disk where
  nodes : List (Place × Node) := []
  current : Place := .root
deriving DecidableEq, Repr

namespace Disk

def maxNameBytes : Nat := 255

def maxPathBytes : Nat := 4095

/-- What stands at a place. The current directory and those above it are directories. -/
def node? (disk : Disk) (place : Place) : Option Node :=
  if place.names.isPrefixOf disk.current.names then some .directory else disk.nodes.lookup place

/-- Goes from a directory to what a name in it stands for, whether it exists or not. -/
def step (disk : Disk) (place : Place) (name : String) : Except FileReason Place :=
  match disk.node? place with
  | none => .error .missing
  | some (.file _) => .error .notDirectory
  | some (.barred reason) => .error reason
  | some .directory =>
    if name = "" ∨ name = "." then .ok place
    else if name = ".." then .ok place.parent
    else if maxNameBytes < name.utf8ByteSize then .error .nameTooLong
    else .ok (place.child name)

def walk (disk : Disk) (place : Place) : List String → Except FileReason Place
  | [] => .ok place
  | name :: names =>
    match disk.step place name with
    | .ok next => disk.walk next names
    | .error reason => .error reason

/-- Where a path starts. -/
def start (disk : Disk) (path : String) : Place :=
  if Path.isAbsolute path then .root else disk.current

/-- The place that a path leads to. The empty path leads nowhere. -/
def resolve (disk : Disk) (path : String) : Except FileReason Place :=
  if path.toList.contains '\x00' then .error .nullCharacter
  else if path = "" then .error .missing
  else if maxPathBytes < path.utf8ByteSize then .error .nameTooLong
  else disk.walk (disk.start path) (Path.names path)

/-- What a path leads to. -/
def find (disk : Disk) (path : String) : Except FileReason Node :=
  match disk.resolve path with
  | .error reason => .error reason
  | .ok place =>
    match disk.node? place with
    | some node => .ok node
    | none => .error .missing

/-- What a path leads to, if anything. Only a path with a null character leaves this open. -/
def look (disk : Disk) (path : String) : Except FileError (Option Node) :=
  match disk.find path with
  | .ok node => .ok (some node)
  | .error .nullCharacter => .error ⟨.nullCharacter, path⟩
  | .error _ => .ok none

def read (disk : Disk) (path : String) : Except FileError (List UInt8) :=
  match disk.find path with
  | .ok (.file bytes) => .ok bytes
  | .ok .directory => .error ⟨.isDirectory, path⟩
  | .ok (.barred reason) => .error ⟨reason, path⟩
  | .error reason => .error ⟨reason, path⟩

def put (disk : Disk) (place : Place) (node : Node) : Disk :=
  { disk with nodes := (place, node) :: disk.nodes.filter (·.1 ≠ place) }

/-- Creates or replaces a file in a directory that exists. -/
def write (disk : Disk) (path : String) (bytes : List UInt8) : Disk × Except FileError Unit :=
  match disk.resolve path with
  | .error reason => (disk, .error ⟨reason, path⟩)
  | .ok place =>
    match disk.node? place with
    | some .directory => (disk, .error ⟨.isDirectory, path⟩)
    | some (.barred reason) => (disk, .error ⟨reason, path⟩)
    | _ => (disk.put place (.file bytes), .ok ())

instance : FileSystem Disk := ⟨read, write⟩

/-- Puts a node at the place below `place` that the names lead to, with directories on the way. -/
def installAt (disk : Disk) (node : Node) (place : Place) : List String → Disk
  | [] | [".."] => disk
  | [name] => disk.put (place.child name) node
  | name :: names =>
    let next := if name = ".." then place.parent else place.child name
    let disk := if disk.node? next = none then disk.put next .directory else disk
    disk.installAt node next names

/-- Puts a node at a path, with the directories above it. -/
def install (disk : Disk) (path : String) (node : Node) : Disk :=
  disk.installAt node (disk.start path)
    ((Path.names path).filter fun name => name != "" && name != ".")

/-- The files that were not there before or had other contents. -/
def changes (before after : Disk) : List (Place × List UInt8) :=
  after.nodes.filterMap fun (place, node) =>
    match node with
    | .file bytes => if before.node? place = some node then none else some (place, bytes)
    | _ => none

end Disk

end Chip8Asm
