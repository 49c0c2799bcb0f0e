import ShowControl.CommandLine.Answer
import ShowControl.CommandLine.Arguments
import ShowControl.CommandLine.Failure
import ShowControl.Path
import ShowControl.Script.Compile
import ShowControl.Show.Rehearse

/-! What becomes of a request. -/

set_option autoImplicit false
namespace ShowControl.CommandLine

structure Place where
  home : String
  here : String
  find : String → Path.Found
  environment : Environment

inductive Ending where
  | answered (output : String)
  | failed (failure : Failure)
  | misused
  | helped

def Ending.exitCode : Ending → Nat
  | answered _ | helped => 0
  | failed _ => 1
  | misused => 2

def Ending.ofRefusal : Refusal → Ending
  | .misuse => misused
  | .help => helped

def reportAnswer (script : String) (report : Report) : Answer :=
  .group [("script", .text script), ("ok", .flag true),
    ("instances", .group (report.nodes.map fun (name, template) => (name, .text template))),
    ("plugs", .list (report.plugs.map fun (source, target) => .text s!"{source} -> {target}")),
    ("clocks", .list (report.clocks.map .text)), ("windows", .list (report.windows.map .text)),
    ("triggers", .number report.triggers)]

def runAnswer (script : String) (finished : Bool) (s : Show Scalar) : Answer :=
  .group [("script", .text script), ("finished", .flag finished),
    ("reason", (s.reason.map Answer.text).getD .absent),
    ("triggers_fired", .list (s.dispatched.map fun cue => .text cue.describe)),
    ("backend_calls", .number s.graph.journal.length)]

/-- The number of ticks and runs of the clocks after which a run without an end is given up. -/
def patience : Nat := 1000000

/-- Lets a show run. Without simulated clocks nothing happens after the first tick. -/
def play (simulate : Bool) (timeout : Option Scalar) : Act (Rehearsal Scalar) Bool := do
  if simulate then Rehearsal.rehearse patience timeout
  else
    let afterTick := (← get).playing.config.tickSeconds + 1
    Rehearsal.onShow (Show.loop (timeout.getD afterTick))

def Job.answer (job : Job) (path text : String) (config : Config Scalar) : Act Unit Answer := do
  let (program, _) ← Act.apart (Script.compile text) Script.standardLibrary
  match job with
  | .check => return reportAnswer path (← Program.validate program config.rewiring)
  | .run simulate timeout =>
    let start : Rehearsal Scalar := ⟨Show.ofProgram program config .obliging, .empty⟩
    let (finished, r) ← Act.apart (play simulate timeout) start
    return runAnswer path finished r.playing

def Place.configuration (place : Place) (path : Option String) :
    Except LoadFault (Option ConfigFile × Config Scalar) := do
  let file ← path.mapM (ConfigFile.find place.home place.find)
  return (file, ← Config.load file place.environment)

def Request.text? (r : Request) (place : Place) : Option String :=
  match place.find r.script, r.config.map place.find with
  | .file _, some .folder => none
  | .file text, _ => some text
  | _, _ => none

def Request.perform (r : Request) (place : Place) : Ending × List LogLine :=
  match r.text? place with
  | none => (.misused, [])
  | some text =>
    match place.configuration r.config with
    | .error fault => (.failed (.settings fault), [])
    | .ok (file, config) =>
      let loaded : List LogLine := file.toList.map fun file =>
        ⟨.info, s!"Loaded runtime config from {file.path}"⟩
      let o := (r.job.answer (Path.plain r.script) text config).run ()
      (match o.result with
        | .ok a => .answered (a.written r.pretty)
        | .error fault => .failed (.inShow fault), loaded ++ o.log)

def Place.logPath (place : Place) (program : ProgramOptions) : Except LogFault (Option String) :=
  if program.toFile then
    some <$> LogFolder.pathAmong place.find place.environment place.home place.here
  else return none

/-- Carries out the request that arguments make, if they make one. The log is set up before the
arguments behind the name of the command are looked at. -/
def perform (arguments : List String) (place : Place) : Ending × List LogLine :=
  match readProgram arguments with
  | .error refusal => (.ofRefusal refusal, [])
  | .ok (program, command, rest) =>
    match place.logPath program, command.readRequest program rest with
    | .error fault, _ => (.failed (.logging fault), [])
    | .ok _, .error refusal => (.ofRefusal refusal, [])
    | .ok _, .ok r => r.perform place

end ShowControl.CommandLine
