import ShowControl.Animation.Animator
import ShowControl.Graph.Command
import ShowControl.Show.Group

/-! Applying actions to the live graph.

A sequential group applies its actions one after the other. A parallel group applies those that are
not superseded. An action that cannot be applied is skipped if its fault lets the show go on; any
other fault cuts the group short. -/

set_option autoImplicit false
namespace ShowControl

structure Desk (α : Type) where
  graph : Graph α
  animator : Animator α

inductive Verdict where
  | applied
  | superseded
  | skipped (fault : Fault)
  deriving DecidableEq, Repr

/-- What became of the actions of a group, and whether one of those applied ends the show. -/
structure GroupResult (α : Type) where
  outcomes : List (Action α × Verdict)
  terminate : Bool

namespace GroupResult

variable {α : Type}

def applied (r : GroupResult α) : List (Action α) :=
  r.outcomes.filterMap fun (action, verdict) => if verdict = .applied then some action else none

def skipped (r : GroupResult α) : List (Action α × Verdict) :=
  r.outcomes.filter fun (_, verdict) => verdict ≠ .applied

def ofOutcomes (outcomes : List (Action α × Verdict)) : GroupResult α where
  outcomes := outcomes
  terminate := outcomes.any fun (action, verdict) => action.isTerminate && verdict = .applied

end GroupResult

def PlayOp.verb : PlayOp → Verb
  | start => .start
  | pause => .pause
  | stop => .stop

namespace Desk

variable {α : Type}

def onGraph {β : Type} (x : Act (Graph α) β) : Act (Desk α) β :=
  x.zoom Desk.graph fun d graph => { d with graph }

def onAnimator {β : Type} (x : Act (Animator α) β) : Act (Desk α) β :=
  x.zoom Desk.animator fun d animator => { d with animator }

variable [Number α]

def timeOf (d : Desk α) (node : String) : Option α :=
  (d.animator.motion? node).bind fun motion => motion.clock.bind d.graph.progress.get?

/-- Starts a move of a window. Nothing is placed before the next advance. -/
def startMove (target : String) (m : Move α) : Act (Desk α) Unit := do
  let d ← get
  let _ ← Act.ofExcept (d.graph.windowed target)
  let motion ← onAnimator <| Animator.move
    ⟨target, some m.clock, m.t0, m.t1, (m.x0, m.y0), (m.x1, m.y1), m.easeX, m.easeY⟩
    (d.timeOf target)
  let x := Number.brief motion.stop.1
  let y := Number.brief motion.stop.2
  let t0 := Number.brief motion.t0
  let t1 := Number.brief motion.t1
  Act.info <| s!"{target}: move to ({x}, {y}) over {m.clock} {t0}..{t1} " ++
    s!"({motion.easeX.name}/{motion.easeY.name})"

def perform (target : String) : Command α → Act (Desk α) Unit
  | .play op => do
    let _ ← onGraph (Graph.setTransport target op.verb [])
  | .seek start stop => do
    let _ ← onGraph (Graph.setTransport target .seek [start, stop])
  | .property element name type value => do
    let _ ← onGraph (Graph.setProperty target element name type.name value)
  | .showWindow => onGraph (Graph.showWindow target)
  | .moveWindow m => startMove target m

def apply : Action α → Act (Desk α) Unit
  | .terminate _ => return ()
  | .command target command _ => perform target command

def applyOrSkip (action : Action α) : Act (Desk α) Verdict := do
  match ← Act.attempt (apply action) with
  | .ok () => return .applied
  | .error fault =>
    if fault.recoverable then
      Act.warn s!"Skipping action on line {action.line}: {fault.message}"
      return .skipped fault
    else throw fault

def applyAll : List (Action α) → Act (Desk α) (List (Action α × Verdict))
  | [] => return []
  | action :: rest => do
    let verdict ← applyOrSkip action
    let others ← applyAll rest
    return (action, verdict) :: others

def supersedeAll : List (Action α) → Act (Desk α) (List (Action α × Verdict))
  | [] => return []
  | action :: rest => do
    Act.debug s!"Line {action.line}: superseded by a later action on the same field"
    let others ← supersedeAll rest
    return (action, .superseded) :: others

def execute (group : ActionGroup α) : Act (Desk α) (GroupResult α) :=
  match group.mode with
  | .sequential => do
    return .ofOutcomes (← applyAll group.actions)
  | .parallel => do
    -- Settled before any action is tried, so that one that fails may have superseded another.
    let superseded ← supersedeAll (ActionGroup.superseded group.actions)
    let outcomes ← applyAll (ActionGroup.effective group.actions)
    return .ofOutcomes (superseded ++ outcomes)

def stage : Stage (Desk α) α where
  animator := Desk.animator
  setAnimator animator d := { d with animator }
  progress d clock := d.graph.progress.get? clock
  place node x y := onGraph (Graph.moveWindow node x y)

end Desk

end ShowControl
