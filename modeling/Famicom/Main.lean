import Famicom.CommandLine

/-
  The program: read the arguments and the file, run, and
  write the report.

  Key definitions include:
    * `main`
-/

open Famicom CommandLine

/- The reason for which a file could not be read. -/
def describeReadError : IO.Error → ReadFault
  | .noFileOrDirectory .. => .notFound
  | .inappropriateType _ code _ =>
      if code == 21 then .isDirectory else .notDirectory
  | .permissionDenied .. => .permissionDenied
  | error => .other (toString error)

/- Read a whole file. -/
def readProgram
    (path : String) :
    IO (Except ReadFault (Array UInt8)) := do
  try
    let contents ← IO.FS.readBinFile path
    return .ok contents.data
  catch error =>
    return .error (describeReadError error)

/- Run the command line and give its exit status. -/
def main (arguments : List String) : IO UInt32 := do
  let report ←
    match readCommand arguments with
    | .error failure => pure (Report.failed [] failure)
    | .ok command =>
        pure (command.run (← readProgram command.path))
  for line in report.lines do
    IO.eprintln line
  return report.status.toUInt32
