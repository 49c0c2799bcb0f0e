import ShowControl.Config.Resolution
import ShowControl.Path
import ShowControl.Table
import ShowControl.Text.Case
import ShowControl.Yaml.Document

/-! The configuration of a run from its three layers: the standard settings, those of a file, and those
of the environment. A later layer goes over an earlier one. -/

set_option autoImplicit false
namespace ShowControl

def Environment.given? (environment : Environment) (name : String) : Option String :=
  (environment.lookup name).filter (· ≠ "")

structure ConfigFile where
  path : String
  text : Option String

inductive LoadFault where
  | noHome
  | noFile (path : String)
  | document (fault : Yaml.Fault)
  | unreadable (path : String)
  /-- A list stands where a group is needed, or the other way round. -/
  | shape
  /-- A text in the file is itself the text of something that is neither a group nor a list. -/
  | nested
  | malformedReference
  | unresolved
  | invalid (names : ConfigFaults)
  deriving DecidableEq, Repr

def LoadFault.message : LoadFault → String
  | noHome => Path.noHomeMessage
  | noFile path => s!"Config file not found: {path}"
  | document _ => "The config file is no document"
  | unreadable path => s!"Could not load config file {path}"
  | shape => "A list and a group of settings cannot be merged"
  | nested => "A text of settings needs a group"
  | malformedReference => "A reference in the environment is malformed"
  | unresolved => "Could not merge runtime config"
  | invalid names =>
    let shown := ", ".intercalate names
    s!"Invalid runtime config: {shown}"

/-- A malformed number is one of the faults that leave a file unreadable. -/
def LoadFault.ofDocument (path : String) : Yaml.Fault → LoadFault
  | .number => unreadable path
  | fault => document fault

def ConfigFile.find (home : String) (find : String → Path.Found) (path : String) :
    Except LoadFault ConfigFile :=
  match Path.expand home path with
  | none => .error .noHome
  | some path => match find path with
    | .file text => .ok ⟨path, some text⟩
    | _ => .ok ⟨path, none⟩

namespace Config

/-- The settings that a value at the top of a document stands for. A text is read once more, and a
word alone names a setting without a value. -/
def entriesOf (path : String) : Setting → Except LoadFault Setting
  | .missing => .ok (.group [])
  | .group entries => .ok (.group entries)
  | .list items => .ok (.list items)
  | .text s =>
    match Yaml.parse s with
    | .error fault => .error (.ofDocument path fault)
    | .ok .missing => .ok (.group [])
    | .ok (.group entries) => .ok (.group entries)
    | .ok (.list items) => .ok (.list items)
    | .ok (.text word) => .ok (.group [(.text word, .missing)])
    | .ok _ => .error .nested
  | _ => .error (.unreadable path)

def readFile (file : ConfigFile) : Except LoadFault Setting :=
  match file.text with
  | none => .error (.noFile file.path)
  | some text =>
    match Yaml.parseFile text with
    | .error fault => .error (.ofDocument file.path fault)
    | .ok v => do
      let v ← entriesOf file.path v
      if v.wellFormed then return v else throw (.unreadable file.path)

def tickVariable : String := "LIVEMIX_TICK_INTERVAL_MS"

def rewiringVariable : String := "LIVEMIX_REWIRE_POLICY"

def readEnvironment (environment : Environment) : Except LoadFault (List (Key × Setting)) :=
  let tick := (environment.given? tickVariable).map fun s => (Key.text tickName, Setting.text s)
  let rewiring := (environment.given? rewiringVariable).map fun s =>
    (Key.text rewiringName, Setting.text (Text.lower (Text.trim s)))
  let entries := tick.toList ++ rewiring.toList
  if Setting.entriesWellFormed entries then .ok entries else .error .malformedReference

def standardSettings : List (Key × Setting) :=
  let c : Config Scalar := standard
  [(.text tickName, .real c.tickMilliseconds), (.text rewiringName, .text c.rewiring.name),
   (.text eventsName, .list (c.terminalEvents.map Setting.text)),
   (.text simulatedName, .real c.simulatedSeconds)]

/-- Lays one setting over others. A value that is still to come changes nothing. -/
def layEntry (base : List (Key × Setting)) (entry : Key × Setting) :
    Except LoadFault (List (Key × Setting)) :=
  match (base.find? fun e => e.1.same entry.1).map Prod.snd, entry.2 with
  | some (.list _), .group _ => .error .shape
  | some _, v => .ok (if v.isPending then base else Setting.assignEntry entry.1 v base)
  | none, v => .ok (Setting.assignEntry entry.1 v base)

def lay (base : List (Key × Setting)) : Setting → Except LoadFault (List (Key × Setting))
  | .group entries => entries.foldlM layEntry base
  | _ => .error .shape

def load (file : Option ConfigFile) (environment : Environment) :
    Except LoadFault (Config Scalar) := do
  let fromFile ← match file with
    | none => pure (.group [])
    | some file => readFile file
  let fromEnvironment ← readEnvironment environment
  let entries ← lay standardSettings fromFile
  let entries ← lay entries (.group fromEnvironment)
  match Setting.resolveEntries environment entries with
  | none => throw .unresolved
  | some entries => (ofSettings entries).mapError .invalid

end Config

end ShowControl
