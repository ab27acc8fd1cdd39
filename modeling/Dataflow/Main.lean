import Dataflow.CommandLine

/-!
# The program

Reads the document that the arguments name, answers the call and writes what it leaves behind.
-/

open Dataflow

/-- The text of a file, or why it cannot be read. -/
def loadDocument (path : String) : IO (Except String String) := do
  try
    return .ok (← IO.FS.readFile path)
  catch
    | .noFileOrDirectory .. => return .error "No such file or directory (os error 2)"
    | .permissionDenied .. => return .error "Permission denied (os error 13)"
    | e => return .error e.toString

/-- Write what a call leaves behind. -/
def deliver (o : Outcome) : IO UInt32 := do
  IO.eprint o.err
  IO.print o.out
  match o.file with
  | none => return o.exit.toUInt32
  | some (path, text) =>
      try
        IO.FS.writeFile path text
        return o.exit.toUInt32
      catch e =>
        IO.eprint s!"ptc: error: {path}: {e}\n"
        return 2

def main (args : List String) : IO UInt32 := do
  deliver (← respond loadDocument (Request.ofArgs? args))
