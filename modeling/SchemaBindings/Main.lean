import SchemaBindings.Command.Run

/-! The command line on the files of the machine. -/

namespace SchemaBindings

def succeeds (action : IO Unit) : IO Bool := do
  try
    action
    return true
  catch _ => return false

def machineDisk : Output.Disk IO where
  readText? path := do
    try return String.fromUTF8? (← IO.FS.readBinFile path)
    catch _ => return none
  makeDirectories path := if path.isEmpty then pure true else succeeds (IO.FS.createDirAll path)
  write path text := succeeds (IO.FS.writeFile path text)
  remove path := do let _ ← succeeds (IO.FS.removeFile path)

end SchemaBindings

def main (args : List String) : IO UInt32 := do
  let outcome ← SchemaBindings.Command.run SchemaBindings.machineDisk args
  IO.print outcome.printed.out
  IO.eprint outcome.printed.err
  return outcome.code.toUInt32
