import ShowControl.CommandLine.Perform
import ShowControl.Log.Folder
import Std.Time

/-! The program. -/

set_option autoImplicit false
namespace ShowControl.CommandLine

def usage : String :=
  "Usage: showcontrol [--pretty|--no-pretty] [-v|--verbose] [--log-file|--no-log-file]\n" ++
  "                   check SCRIPT [--config FILE]\n" ++
  "       showcontrol [...] run SCRIPT [--config FILE] [--simulate|--no-simulate] [--timeout S]"

/-- What is found under a path. What cannot be read counts as a folder. -/
def find (path : String) : IO Path.Found := do
  try
    return .file (← IO.FS.readFile path)
  catch
    | .noFileOrDirectory .. => return .nothing
    | _ => return .folder

def readEnvironment : IO Environment :=
  [Config.tickVariable, Config.rewiringVariable, LogFolder.variableName].filterMapM fun name => do
    return (← IO.getEnv name).map fun value => (name, value)

def pathsIn (arguments : List String) (environment : Environment) (home here : String) :
    List String :=
  let written := arguments ++ arguments.filterMap fun argument => (splitName argument).2
  let log := (LogFolder.pathIn environment home here).getD here
  let above := (List.range (Path.parts log).length).map fun n =>
    Path.rooted ((Path.parts log).take n)
  written ++ written.filterMap (Path.expand home) ++ log :: above

def findAll (paths : List String) : IO (String → Path.Found) := do
  let found ← paths.mapM fun path => do return (path, ← find path)
  return fun path => (found.lookup path).getD .nothing

def currentMoment : IO Moment := do
  let t ← Std.Time.PlainDateTime.now
  return ⟨t.year.toInt.toNat, t.month.toInt.toNat, t.day.toInt.toNat, t.hour.toInt.toNat,
    t.minute.toInt.toNat, t.second.toInt.toNat⟩

/-- Sets up logging. The folder is not looked into, so no file in it is old. -/
def openLog (place : Place) (program : ProgramOptions) : IO Logging := do
  let level : Level := if program.verbose then .debug else .info
  match place.logPath program with
  | .ok (some path) =>
    match Logging.configure (← currentMoment) level.rank true ⟨path, none⟩ with
    | .ok (logging, folder, _) =>
      IO.FS.createDirAll folder.path
      return logging
    | .error fault => throw (.userError fault.message)
  | _ => return ⟨level.rank, none⟩

def writeLog (logging : Logging) (lines : List LogLine) : IO Unit := do
  let shown := (lines.filter fun line => line.level.passes logging.level).map fun line =>
    s!"{line.level.name} {line.text}\n"
  IO.eprint (String.join shown)
  if let some sink := logging.sink then
    let file ← IO.FS.Handle.mk sink.file .append
    file.putStr (String.join shown)

def writeEnding : Ending → IO Unit
  | .answered output => IO.print output
  | .helped => IO.println usage
  | .misused => IO.eprintln usage
  | .failed failure => match failure.kind? with
    | some kind =>
      let report := Answer.group [("error", .text kind), ("message", .text failure.message)]
      IO.eprintln report.compact
    | none => IO.eprintln failure.message

end ShowControl.CommandLine

open ShowControl ShowControl.CommandLine in
def main (arguments : List String) : IO UInt32 := do
  let environment ← readEnvironment
  let home := (← IO.getEnv "HOME").getD "/"
  let here := toString (← IO.currentDir)
  let find ← findAll (pathsIn arguments environment home here)
  let place : Place := ⟨home, here, find, environment⟩
  let (ending, lines) := perform arguments place
  if let .ok (program, _, _) := readProgram arguments then
    writeLog (← openLog place program) lines
  writeEnding ending
  return ending.exitCode.toUInt32
