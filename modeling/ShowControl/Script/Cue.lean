import ShowControl.Script.Definition
import ShowControl.Script.Program

/-! Reading actions, triggers and cues. -/

set_option autoImplicit false
namespace ShowControl.Script

variable {α : Type} [Number α]

def numberOf (what word : String) : Except ScriptCause α :=
  match Decimal.readNumeral word with
  | none => .error (.malformedNumber what word)
  | some n => match Number.ofNumeral? n with
    | none => .error (.infiniteNumber what word)
    | some x => .ok x

def easingOf (word : String) : Except ScriptCause Easing :=
  match Easing.ofName? word with
  | some e => .ok e
  | none => .error (.unknownEasing word)

def moveOf : List String → Except ScriptCause (Move α)
  | [clock, t0, x0, y0, t1, x1, y1, easeX, easeY] => do
    let t0 ← numberOf "t0" t0
    let x0 ← numberOf "x0" x0
    let y0 ← numberOf "y0" y0
    let t1 ← numberOf "t1" t1
    let x1 ← numberOf "x1" x1
    let y1 ← numberOf "y1" y1
    let easeX ← easingOf easeX
    let easeY ← easingOf easeY
    if t1 < t0 then throw (.backwardMove (Number.brief t0) (Number.brief t1))
    return { clock, t0, x0, y0, t1, x1, y1, easeX, easeY }
  | _ => .error (.expected .move)

/-- Reads what an action does. `rest` is the text of the line from the sixth word of the action on,
which is the value if the action sets a property. -/
def commandOf (rest : String) (verb : String) (operands : List String) :
    Except ScriptCause (Command α) :=
  if verb = "play" then
    match operands with
    | [op] => match PlayOp.ofName? op with
      | some op => .ok (.play op)
      | none => .error (.expected .play)
    | _ => .error (.expected .play)
  else if verb = "seek" then
    match operands with
    | [start, stop] => do
      let start ← numberOf "seek start" start
      let stop ← numberOf "seek stop" stop
      return .seek start stop
    | _ => .error (.expected .seek)
  else if verb = "prop" then
    match operands with
    -- The value may have several words, so that it is taken from the text of the line.
    | element :: name :: typeName :: _ :: _ =>
      match PropertyType.ofName? typeName with
      | none => .error (.unknownPropertyType typeName)
      | some type => .ok (.property element name type rest)
    | _ => .error (.expected .property)
  else if verb = "window" then
    match operands with
    | ["show"] => .ok .showWindow
    | "move" :: operands => (moveOf operands).map .moveWindow
    | _ => .error (.expected .window)
  else .error (.unknownVerb verb)

def actionOf (line : Line) (offset : Nat) : Except ScriptCause (Action α) :=
  match line.words.drop offset with
  | ["terminate"] => .ok (.terminate line.number)
  | "act" :: target :: verb :: operands => do
    let command ← commandOf (Text.remainder (offset + 6) line.text) verb operands
    return .command target command line.number
  | "act" :: _ => .error (.expected .action)
  | word :: _ => .error (.noAction word)
  | [] => .error .triggerWithoutAction

def triggerOf : List String → Except ScriptCause (Trigger α × Nat)
  | "pre" :: _ => .ok (.pre, 2)
  | "progress" :: clock :: word :: _ => do
    let threshold ← numberOf "progress threshold" word
    if threshold < 0 then throw (.negativeThreshold word)
    return (.progress clock threshold, 4)
  | "progress" :: _ => .error (.expected .progress)
  | "callback" :: node :: event :: _ => .ok (.callback node event, 4)
  | "callback" :: _ => .error (.expected .callback)
  | word :: _ => .error (.unknownTrigger word)
  | [] => .error (.expected .trigger)

def isActionLine (line : Line) : Bool := line.keyword = "act" || line.keyword = "terminate"

def wrapActions (opener : Line) (block : Block) : Except Fault (List (Action α)) := do
  let actions ← block.body.mapM fun line => line.locating (actionOf line 0)
  match block.closer with
  | none => throw (opener.fault .unclosedWrap)
  | some closer =>
    if closer.keyword ≠ "parw" then throw (closer.fault (.foreignInWrap closer.keyword))
    else if !closer.operands.isEmpty then throw (closer.fault (.closerWithOperands "parw"))
    else return actions

/-- Reads the actions of a trigger line, and the number of further lines that they take up. They
stand on the line itself, on the next one, or in a block. -/
def groupOf (line : Line) (offset : Nat) (rest : List Line) :
    Except Fault (ActionGroup α × Nat) :=
  match line.words.drop offset with
  | ["wrap"] => do
    let block := Block.take isActionLine rest
    let actions ← wrapActions line block
    return (⟨.parallel, actions⟩, block.size)
  | _ :: _ => do
    let action ← line.locating (actionOf line offset)
    return (⟨.sequential, [action]⟩, 0)
  | [] => match rest with
    | [] => .error (line.fault .triggerWithoutAction)
    | next :: _ => do
      let action ← next.locating (actionOf next 0)
      return (⟨.sequential, [action]⟩, 1)

def cueOf (order : Nat) (line : Line) (rest : List Line) : Except Fault (Cue α × Nat) := do
  let (trigger, offset) ← line.locating (triggerOf line.operands)
  let (group, taken) ← groupOf line offset rest
  return (⟨trigger, group, order, line.number⟩, taken)

end ShowControl.Script
