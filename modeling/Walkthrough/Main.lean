import Walkthrough.CommandLine.Run

/-! The program: the command line over the files of the machine. -/

open Walkthrough.CommandLine

/-- The files of the machine. -/
def machineDisk : Disk IO where
  read path := do
    try
      return .text (← IO.FS.readFile path)
    catch error =>
      match error with
      | .noFileOrDirectory .. => return .missing
      | other => return .unreadable (toString other)
  create path := do
    try
      IO.FS.writeFile path ""
      return true
    catch _ => return false

def main (args : List String) : IO UInt32 := do
  let exit ← run machineDisk args
  IO.print exit.output
  match exit.complaint with
  | some message => IO.eprintln message
  | none => pure ()
  if exit.code = 2 then
    IO.eprintln "Usage: steptrace [OPTIONS] <FILE>\n\nFor more information, try '--help'."
  return exit.code.toUInt32
