import ColouredPetri.CommandLine.Program

namespace ColouredPetri.Machine

def runs (action : IO Unit) : IO Bool := do
  try
    action
    return true
  catch _ => return false

def contents? (path : String) : IO (Option String) := do
  try return some (← IO.FS.readFile path)
  catch _ => return none

def isThere (path : String) : IO Bool := do
  try
    let _ ← IO.FS.Handle.mk path .read
    return true
  catch
    | .noFileOrDirectory .. => return false
    | .inappropriateType .. => return false
    | _ => return true

def files : FileAccess IO where
  exist := isThere
  read? := contents?
  write path text := runs (IO.FS.writeFile path text)
  makeParents path :=
    match Path.parent path with
    | "" => return true
    | parent => runs (IO.FS.createDirAll parent)

end ColouredPetri.Machine

open ColouredPetri in
def main (args : List String) : IO UInt32 := do
  let report ← Program.run Machine.files (← IO.getEnv "PN_FLAGS") args
  IO.print report.output
  match report.errorLine? with
  | some line => IO.eprintln line
  | none => pure ()
  return report.exitCode.toUInt32
