import Collocation.CommandLine.Path
import Collocation.CommandLine.Run

/-!
# The program

Reads the files that the arguments name, runs, and saves what is to be saved.
-/

set_option autoImplicit false

namespace Collocation.CommandLine

/-- What is found at a path. What cannot be opened is not there, unless it is only not allowed. -/
def look (path : String) : IO FileState := do
  match ← (IO.FS.Handle.mk path .read).toBaseIO with
  | .error (.permissionDenied ..) => return .unreadable
  | .error _ => return .absent
  | .ok handle =>
    match ← handle.readToEnd.toBaseIO with
    | .ok contents => return .text contents
    | .error _ => return .unreadable

/-- A supply of fresh ids from a random seed. -/
def randomSupply : IO Supply := do
  let bytes ← IO.getRandomBytes 16
  return .seeded (bytes.toList.foldl (fun seed byte => 256 * seed + byte.toNat) 0)

/-- Saves a file by writing a temporary file and renaming it. -/
def saveFile (save : Save) : IO Unit := do
  let temporary := temporaryPath save.path
  IO.FS.writeFile temporary save.contents
  IO.FS.rename temporary save.path

/-- Saves what an outcome asks for. -/
def settle (outcome : Outcome) : IO Outcome := do
  match outcome.save with
  | none => return outcome
  | some save =>
    match ← (saveFile save).toBaseIO with
    | .ok _ => return outcome
    | .error _ => return outcome.unsaved

end Collocation.CommandLine

open Collocation.CommandLine in
def main (arguments : List String) : IO UInt32 := do
  let inputs := match Invocation.ofArguments arguments with
    | .ok invocation => invocation.inputs
    | .error _ => []
  let found ← inputs.mapM fun path => return (path, ← look path)
  let files path := (found.lookup path).getD .absent
  let outcome ← settle (run arguments files (← randomSupply))
  IO.print outcome.output
  if let some metrics := outcome.metrics then
    IO.eprintln metrics.toJson.lines
  if let some error := outcome.error then
    IO.eprintln ("Error: " ++ error.message)
  return outcome.exitCode
