import ShowControl.Script.Program

/-! Conflicts inside a parallel group.

An action writes one field of its target. Of the actions of a parallel group that write the same
field, the last one counts and supersedes the others. -/

set_option autoImplicit false
namespace ShowControl

inductive Slot where
  | ending
  | transport (target : String)
  | segment (target : String)
  | property (target element name : String)
  | visibility (target : String)
  | position (target : String)
  deriving DecidableEq, Repr

variable {α : Type}

def Command.slot (target : String) : Command α → Slot
  | play _ => .transport target
  | seek .. => .segment target
  | property element name _ _ => .property target element name
  | showWindow => .visibility target
  | moveWindow _ => .position target

def Action.slot : Action α → Slot
  | .terminate _ => .ending
  | .command target what _ => what.slot target

namespace ActionGroup

def writes (actions : List (Action α)) (slot : Slot) : Bool :=
  actions.any fun action => action.slot = slot

/-- The actions that no later one supersedes. -/
def effective : List (Action α) → List (Action α)
  | [] => []
  | action :: rest =>
    if writes rest action.slot then effective rest else action :: effective rest

def superseded : List (Action α) → List (Action α)
  | [] => []
  | action :: rest =>
    if writes rest action.slot then action :: superseded rest else superseded rest

end ActionGroup

end ShowControl
