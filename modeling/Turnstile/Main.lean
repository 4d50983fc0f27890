import Turnstile.Cli.Basic

/-!
This module contains the command line program.
-/

namespace Turnstile

namespace Cli

def readFiles (paths : List String) : IO (List (String × Except String String)) :=
  paths.mapM fun (path : String) => do
    try
      return (path, .ok (← IO.FS.readFile path))
    catch error =>
      return (path, .error (toString error))

def print (report : Report) : IO Unit := do
  for line in report.notes do
    IO.eprintln line
  for line in report.output do
    IO.println line
  if let some error := report.error then
    IO.eprintln "Error:"
    for message in error.chain do
      IO.eprintln s!"  {message}"

end Cli

end Turnstile

open Turnstile Cli in
def main (arguments : List String) : IO UInt32 := do
  match Invocation.ofArguments? arguments with
  | none =>
    IO.eprintln "error: the arguments are not in order"
    return 2
  | some asked =>
    let files ← readFiles asked.paths
    let read : ReadFile := fun path => (files.lookup path).getD (.error "not read")
    let report := execute read Programs.practice asked
    print report
    return report.code.toUInt32
