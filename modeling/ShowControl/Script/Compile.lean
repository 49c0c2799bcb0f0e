import ShowControl.Script.Cue
import ShowControl.Script.Standard

/-! Compiling a script.

The lines are read one construct at a time: a statement is one line, a template and a cue may take up
more. Templates stay known to the scripts that are compiled later, also if a script fails behind
them. -/

set_option autoImplicit false
namespace ShowControl.Script

def nodeOf (library : Library) (line : Line) : Except Fault Statement :=
  match line.operands with
  | templateName :: name :: arguments =>
    match Table.get? library templateName with
    | none => .error (.desk (some line.number) (.undefinedTemplate templateName))
    | some template =>
      -- The template known so far: one below the line may still take the place of a standard one.
      if template.accepts arguments.length then
        .ok (.node templateName name arguments line.number)
      else .error (line.fault (template.arityCause arguments.length))
  | _ => .error (line.fault (.expected .node))

def plugOf (line : Line) : Except Fault Statement :=
  match line.operands with
  | [sourcePort, source, targetPort, target] =>
    .ok (.plug ⟨source, sourcePort⟩ ⟨target, targetPort⟩ line.number)
  | _ => .error (line.fault (.expected .plug))

/-- Enters a template. It may take the place of a standard one, of no other. -/
def register (line : Line) (template : Template) : Act Library Unit := do
  match Table.get? (← get) template.name with
  | none => Act.ofExcept (.ok ())
  | some existing =>
    if existing.standard then
      Act.info s!"Template {template.name} (line {line.number}) shadows the built-in"
    else throw (line.fault (.templateExists template.name))
  modify fun library => Table.insert library template.name template

def listed (names : List String) : String :=
  if names.isEmpty then "none" else ", ".intercalate names

def define (line : Line) (rest : List Line) : Act Library Nat := do
  let block ← Act.ofExcept (templateBlock line rest)
  let template ← Act.ofExcept (templateOf false line block.body)
  let ports := template.ports.keys
  -- A wrong count is remarked on, and no fault. The ports are those that the elements give.
  if ports.length ≠ template.portCount then
    let names := listed ports
    Act.info <| s!"Template {template.name} declares {template.portCount} port(s) but exports " ++
      s!"{ports.length}: {names}"
  register line template
  return block.size

variable {α : Type} [Number α]

structure Draft (α : Type) where
  statements : List Statement
  cues : List (Cue α)

def Draft.start : Draft α := ⟨[], []⟩

/-- Reads the construct that starts on a line; the answer is the number of further lines that it
takes up. -/
def Draft.read (draft : Draft α) (line : Line) (rest : List Line) :
    Act Library (Draft α × Nat) := do
  let keyword := line.keyword
  if keyword = "raw" then
    let taken ← define line rest
    return (draft, taken)
  else if keyword = "new" then
    let statement ← Act.ofExcept (nodeOf (← get) line)
    return ({ draft with statements := draft.statements ++ [statement] }, 0)
  else if keyword = "plug" then
    let statement ← Act.ofExcept (plugOf line)
    return ({ draft with statements := draft.statements ++ [statement] }, 0)
  else if keyword = "on" then
    let (cue, taken) ← Act.ofExcept (cueOf draft.cues.length line rest)
    if cue.group.actions.isEmpty then Act.warn s!"Empty wrap block at line {line.number}"
    return ({ draft with cues := draft.cues ++ [cue] }, taken)
  else if keyword = "war" || keyword = "parw" then
    throw (line.fault (.closerWithoutOpener keyword))
  else if keyword = "act" || keyword = "terminate" || keyword = "wrap" then
    throw (line.fault (.outsideTrigger keyword))
  else throw (line.fault (.unknownKeyword keyword))

def Draft.readAll (draft : Draft α) : List Line → Act Library (Draft α)
  | [] => pure draft
  | line :: rest => do
    let (draft, taken) ← draft.read line rest
    draft.readAll (rest.drop taken)
termination_by lines => lines.length
decreasing_by simp only [List.length_cons, List.length_drop]; omega

def compile (script : String) : Act Library (Program α) := do
  let draft ← (Draft.start : Draft α).readAll (linesOf script)
  let program : Program α := ⟨← get, draft.statements, draft.cues⟩
  let templates := program.templates.size
  let nodes := program.nodeNames.length
  let plugs := program.plugLines.length
  let cues := program.cues.length
  Act.info <| s!"Compiled script: {templates} template(s), {nodes} instance(s), " ++
    s!"{plugs} plug(s), {cues} trigger(s)"
  return program

def definitions (library : Library) : List Line → Except Fault Library
  | [] => .ok library
  | header :: rest => do
    let block ← templateBlock header rest
    let template ← templateOf true header block.body
    definitions (Table.insert library template.name template) (rest.drop block.size)
termination_by lines => lines.length
decreasing_by simp only [List.length_cons, List.length_drop]; omega

def standardLibrary : Library :=
  match definitions .empty (linesOf standardScript) with
  | .ok library => library
  | .error _ => .empty

end ShowControl.Script
