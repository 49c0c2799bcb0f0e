import ShowControl.Act
import ShowControl.Config.Load
import ShowControl.Log.Moment
import ShowControl.Path
import ShowControl.Text.Search

/-! The folder of the log files.

The name of a log file is the moment of its first line, so the files sort by age. A file that has grown
too large is moved aside to a name with a number behind it. Files of either sort are deleted when they
have not been written to for some days. -/

set_option autoImplicit false
namespace ShowControl

structure LogEntry where
  name : String
  age : Int
  isFolder : Bool
  deriving DecidableEq, Repr

structure LogFolder where
  path : String
  entries : Option (List LogEntry)
  deriving DecidableEq, Repr

inductive SweepFault where
  | beyondWord
  | tooManyDays (days : Int)
  | noSuchDay
  /-- The day is the first one, and the one before it is needed as well. -/
  | firstDay
  deriving DecidableEq, Repr

def SweepFault.message : SweepFault → String
  | beyondWord => "Python int too large to convert to C int"
  | firstDay => "year 0 is out of range"
  | tooManyDays days => s!"days={days}; must have magnitude <= 999999999"
  | noSuchDay => "date value out of range"

inductive LogFault where
  | noHome
  | fileThere (path : String)
  | fileAbove (path : String)
  | sweep (fault : SweepFault)
  deriving DecidableEq, Repr

def LogFault.message : LogFault → String
  | noHome => Path.noHomeMessage
  | fileThere path => s!"File exists: '{path}'"
  | fileAbove path => s!"Not a directory: '{path}'"
  | sweep fault => fault.message

structure LogSink where
  file : String
  level : Int
  maxBytes : Nat
  backups : Nat
  deriving DecidableEq, Repr

namespace LogFolder

def variableName : String := "LIVEMIX_LOGS_DIR"

def standardPath : String := "~/.livemix/logs"

def pathIn (environment : Environment) (home here : String) : Option String :=
  Path.resolve home here ((environment.given? variableName).getD standardPath)

/-- The path of the folder, if it can be made where it is not there yet. -/
def pathAmong (find : String → Path.Found) (environment : Environment) (home here : String) :
    Except LogFault String :=
  match pathIn environment home here with
  | none => .error .noHome
  | some path =>
    let parts := Path.parts path
    let isFile (path : String) : Bool := match find path with
      | .file _ => true
      | _ => false
    if isFile path then .error (.fileThere path)
    else if (List.range parts.length).any fun n => isFile (Path.rooted (parts.take n)) then
      .error (.fileAbove path)
    else .ok path

def fileName (now : Moment) : String :=
  let stamp := now.stamp
  s!"livemix-logs-{stamp}.log"

def filePath (folder : LogFolder) (name : String) : String := s!"{folder.path}/{name}"

def currentFile (folder : LogFolder) (now : Moment) : String := folder.filePath (fileName now)

def isCurrentName (name : String) : Bool := ".log".toList.isSuffixOf name.toList

/-- A log file, whether it is written to or moved aside. -/
def isLogName (name : String) : Bool := Text.occursIn ".log".toList name.toList

def sorted (names : List String) : List String := names.mergeSort fun a b => a ≤ b

def names (folder : LogFolder) : Option (List String) :=
  folder.entries.map fun entries => sorted (entries.map LogEntry.name)

def mostRecent (folder : LogFolder) : Option String :=
  let files := (folder.entries.getD []).filter fun e => isCurrentName e.name && !e.isFolder
  ((sorted (files.map LogEntry.name)).getLast?).map folder.filePath

def isOld (days : Int) (e : LogEntry) : Bool :=
  isLogName e.name && !e.isFolder && days * 86400 * 1000000000 < e.age

/-- Deletes the old log files. `refusal` says, in the words of the system, why a file cannot be
deleted. -/
def sweep (days : Int) (refusal : String → Option String) (folder : LogFolder) :
    LogFolder × List LogLine :=
  let entries := folder.entries.getD []
  let old := entries.filter (isOld days)
  let refused := old.filterMap fun e => (refusal e.name).map fun words =>
    let path := folder.filePath e.name
    (⟨.warning, s!"Failed to delete old log file {path}: {words}"⟩ : LogLine)
  let gone (e : LogEntry) : Bool := isOld days e && (refusal e.name).isNone
  let count := (entries.filter gone).length
  let summary : LogLine := ⟨.info, s!"Cleaned up {count} old log file(s) older than {days} day(s)"⟩
  ({ folder with entries := folder.entries.map fun entries => entries.filter fun e => !gone e },
    refused ++ if count = 0 then [] else [summary])

/-- Deletes the old log files of a folder that exists. The days must be a span that the calendar has
room for. -/
def cleanUp (now : Moment) (days : Int) (refusal : String → Option String) (folder : LogFolder) :
    Except SweepFault (LogFolder × List LogLine) :=
  let day : Int := now.dayNumber - days
  -- A span may be too long in several ways; the first one that is met counts.
  if folder.entries.isNone then .ok (folder, [])
  else if days < -2147483648 ∨ 2147483647 < days then .error .beyondWord
  else if 999999999 < days.natAbs then .error (.tooManyDays days)
  else if day < 1 ∨ (Moment.lastDay : Int) < day then .error .noSuchDay
  else if day = 1 then .error .firstDay
  else .ok (folder.sweep days refusal)

/-- Opens the file for the lines from now on, in a folder that is made if there is none. Files that are
more than a day old are deleted. -/
def openFile (now : Moment) (level : Int) (folder : LogFolder) :
    Except SweepFault (LogSink × LogFolder × List LogLine) := do
  let folder := { folder with entries := some (folder.entries.getD []) }
  let (folder, lines) ← folder.cleanUp now 1 fun _ => none
  let name := fileName now
  let entries := folder.entries.getD []
  let present := entries.any fun e => e.name = name
  let entries := if present then entries else entries ++ [⟨name, 0, false⟩]
  return (⟨folder.filePath name, level, 5 * 1024 * 1024, 5⟩, { folder with entries := some entries },
    lines)

end LogFolder

def Level.rank : Level → Int
  | debug => 10
  | info => 20
  | warning => 30
  | error => 40

/-- Whether lines of the level are written if `threshold` is asked for. If none is, that of warnings
counts. -/
def Level.passes (threshold : Int) (level : Level) : Bool :=
  (if threshold = 0 then warning.rank else threshold) ≤ level.rank

structure Logging where
  level : Int
  sink : Option LogSink
  deriving DecidableEq, Repr

def Logging.configure (now : Moment) (level : Int) (toFile : Bool) (folder : LogFolder) :
    Except SweepFault (Logging × LogFolder × List LogLine) :=
  if toFile then do
    let (sink, folder, lines) ← folder.openFile now level
    return (⟨level, some sink⟩, folder, lines.filter fun line => line.level.passes level)
  else return (⟨level, none⟩, folder, [])

end ShowControl
