import Chip8Asm.Fault

/-! The log of an assembly: errors up to a limit, and warnings. -/

namespace Chip8Asm

structure ErrorLog where
  limit : Int
  errors : List Diagnostic
  warnings : List String
deriving DecidableEq, Repr

namespace ErrorLog

def empty (limit : Int) : ErrorLog := ⟨limit, [], []⟩

def clear (log : ErrorLog) : ErrorLog := empty log.limit

/-- A log that has reached its limit takes no further errors in a run. -/
def isFull (log : ErrorLog) : Bool := decide (log.limit ≤ log.errors.length)

/-- What a full log answers. The limit is put in decimal into the message. -/
def limitReached (log : ErrorLog) : Fault :=
  if hasDecimalText log.limit then
    .ofCause (.tooManyErrors ("Too many errors (" ++ toString log.limit ++ "), stopping"))
  else .unwritable

def add (log : ErrorLog) (d : Diagnostic) : ErrorLog := { log with errors := log.errors ++ [d] }

/-- Adds an error, and answers with a fault if the log is then full. -/
def report (log : ErrorLog) (d : Diagnostic) : ErrorLog × Option Fault :=
  let log := log.add d
  (log, if log.isFull then some log.limitReached else none)

def warn (log : ErrorLog) (message : String) : ErrorLog :=
  { log with warnings := log.warnings ++ [message] }

def hasErrors (log : ErrorLog) : Bool := !log.errors.isEmpty

/-- A number of things, with the plural for all numbers but one. -/
def counted (n : Nat) (noun : String) : String :=
  toString n ++ " " ++ noun ++ if n = 1 then "" else "s"

/-- All errors, each with an empty line after it, then the warnings, then both counts. -/
def render (log : ErrorLog) : String :=
  let errors := log.errors.flatMap fun d => [d.render, ""]
  let warnings := if log.warnings.isEmpty then [] else "Warnings:" :: log.warnings.map ("  " ++ ·)
  let summary :=
    counted log.errors.length "error" ++ ", " ++ counted log.warnings.length "warning"
  "\n".intercalate (errors ++ warnings ++ [summary])

end ErrorLog

end Chip8Asm
