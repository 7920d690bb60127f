import DecodeTables.CommandLine.Run

/-!
# The program

Runs a command line on the files of the machine.
-/

namespace DecodeTables

/-- Whether an action succeeds. -/
def succeeds {α : Type} (action : IO α) : IO Bool := do
  try
    discard action
    return true
  catch _ => return false

instance : Storage IO where
  isFile path := succeeds (IO.FS.readBinFile path)
  readText path := do
    try return String.fromUTF8? (← IO.FS.readBinFile path)
    catch _ => return none
  createDirectories path := succeeds (IO.FS.createDirAll path)
  writeText path text := succeeds (IO.FS.writeFile path text)

end DecodeTables

def main (arguments : List String) : IO UInt32 := do
  let outcome ← DecodeTables.CommandLine.run arguments
  IO.print outcome.output
  IO.eprint outcome.complaint
  return outcome.exit.toUInt32
