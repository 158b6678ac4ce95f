import Famicom.CommandLine.Count
import Famicom.Console.Run
import Famicom.Video.Frame

/-
  The headless runner.

  It loads a program without a header, runs a number of
  frames and reports a checksum of the last one.  Progress is
  reported line by line, and a failure ends the report.

  Key definitions include:
    * `CommandLine.Command`
    * `CommandLine.readCommand`
    * `CommandLine.Failure`
    * `CommandLine.Report`
    * `CommandLine.Command.run`
-/

namespace Famicom

namespace CommandLine

------------------------------------------------------------
-- Failures
------------------------------------------------------------

/- Why a file cannot be read. -/
inductive ReadFault where
  | notFound
  | permissionDenied
  | notDirectory
  | isDirectory
  | other (reason : String)
deriving DecidableEq

/- The report of an unreadable file. -/
def ReadFault.message : ReadFault → String
  | notFound => "No such file or directory (os error 2)"
  | permissionDenied => "Permission denied (os error 13)"
  | notDirectory => "Not a directory (os error 20)"
  | isDirectory => "Is a directory (os error 21)"
  | other reason => reason

/- Why a run ends early. -/
inductive Failure where
  | usage
  | count (text : String) (fault : CountFault)
  | program (path : String) (fault : ReadFault)
  | machine (fault : MachineFault)
deriving DecidableEq

namespace Failure

/- What failed. -/
def message : Failure → String
  | usage =>
      "usage: nes-core <program.bin> [frames] [--pal]"
  | count text _ => "invalid frame count '" ++ text ++ "'"
  | program path _ => "can't read program ROM " ++ path
  | machine fault => fault.message

/- Why it failed, if there is more to say. -/
def cause : Failure → Option String
  | usage => none
  | count _ fault => some fault.message
  | program _ fault => some fault.message
  | machine fault => fault.cause

/- The lines that report a failure. -/
def lines (failure : Failure) : List String :=
  ("Error: " ++ failure.message) ::
    match failure.cause with
    | none => []
    | some cause => ["", "Caused by:", "    " ++ cause]

end Failure

------------------------------------------------------------
-- Commands
------------------------------------------------------------

/- What to run, for how long, and with which timing. -/
structure Command where
  path : String
  frames : Nat := 60
  standard : VideoStandard := .ntsc
deriving DecidableEq

namespace Command

/- Take one more argument into account.  The last one wins. -/
def readOption
    (command : Command)
    (argument : String) : Except Failure Command :=
  if argument == "--pal" then
    .ok { command with standard := .pal }
  else
    match readCount argument with
    | .ok frames => .ok { command with frames := frames }
    | .error fault => .error (.count argument fault)

end Command

/- Read the arguments, of which the first is the path. -/
def readCommand :
    List String → Except Failure Command
  | [] => .error .usage
  | path :: options =>
      options.foldlM Command.readOption { path := path }

------------------------------------------------------------
-- Reports
------------------------------------------------------------

/- The exit status of a run and the lines that it reports. -/
structure Report where
  status : UInt8
  lines : List String
deriving DecidableEq

namespace Report

/- A line of progress. -/
def progress (text : String) : String :=
  "INFO " ++ text

/- The report of a run that failed after some progress. -/
def failed
    (done : List String)
    (failure : Failure) : Report where
  status := 1
  lines := done.map progress ++ failure.lines

/- The report of a run that reached its end. -/
def finished (done : List String) : Report where
  status := 0
  lines := done.map progress

end Report

------------------------------------------------------------
-- Runs
------------------------------------------------------------

namespace Command

/- The report of a machine that has got power. -/
def poweredOn (command : Command) : String :=
  "NES powered on: " ++ command.standard.name ++
    " timing, mapper " ++
    toString Cartridge.boardZero.toNat

/- The report of where the processor starts. -/
def started (console : Console) : String :=
  "CPU reset, starting at $" ++ Hex.word console.pc

/- The report at the end of a run. -/
def summary
    (command : Command)
    (console : Console)
    (frame : Frame) : String :=
  toString command.frames ++ " frames, " ++
    toString console.cycles ++ " CPU cycles, PC $" ++
    Hex.word console.pc ++ ", frame checksum " ++
    Hex.doubleWord frame.checksum

/- Run a program. -/
def runProgram
    (command : Command)
    (program : Array UInt8) : Report :=
  let image : CartridgeImage := { programRom := program }
  let plugged :=
    if program.isEmpty then [] else [image.summary]
  match
      Console.powerOn image { standard := command.standard }
    with
  | .error fault => .failed plugged (.machine fault)
  | .ok console =>
      let ready :=
        plugged ++ [command.poweredOn, started console]
      let run :=
        Console.runFrames command.frames
          { console := console, sink := Frame.filled 0 }
      match run.fault with
      | some fault => .failed ready (.machine fault)
      | none =>
          .finished
            (ready ++ [command.summary run.console run.sink])

/- Run the program that reading the path has given. -/
def run
    (command : Command)
    (program : Except ReadFault (Array UInt8)) : Report :=
  match program with
  | .error fault =>
      .failed [] (.program command.path fault)
  | .ok program => command.runProgram program

end Command

end CommandLine

end Famicom
