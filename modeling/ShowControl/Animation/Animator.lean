import ShowControl.Act
import ShowControl.Animation.Easing

/-! Window moves in flight.

A move is timed on the progress of a clock. A node has at most one; a newer one takes over from where
the older one has got to. An advance places every window whose move has started, and retires the
moves that are over. -/

set_option autoImplicit false
namespace ShowControl

structure Motion (α : Type) where
  node : String
  clock : Option String
  t0 : α
  t1 : α
  start : α × α
  stop : α × α
  easeX : Easing
  easeY : Easing

/-- The moves in flight. Each has the number of its registration, by which it is told from a later
move of the same node. -/
structure Animator (α : Type) where
  entries : Table String (Nat × Motion α)
  registered : Nat

namespace Animator

variable {α : Type}

def empty : Animator α := ⟨.empty, 0⟩

def motion? (a : Animator α) (node : String) : Option (Motion α) := (a.entries.get? node).map Prod.snd

def motions (a : Animator α) : List (Motion α) := a.entries.values.map Prod.snd

def active (a : Animator α) (node : String) : Bool := a.entries.contains node

def count (a : Animator α) : Nat := a.entries.size

def register (a : Animator α) (motion : Motion α) : Animator α :=
  ⟨a.entries.insert motion.node (a.registered, motion), a.registered + 1⟩

def holds (a : Animator α) (number : Nat) (node : String) : Bool :=
  match a.entries.get? node with
  | some (other, _) => other = number
  | none => false

def remove (a : Animator α) (node : String) : Animator α :=
  { a with entries := a.entries.erase node }

def cancelAll : Act (Animator α) Nat := do
  let count := (← get).count
  modify fun a => { a with entries := .empty }
  if 0 < count then Act.info s!"Cancelled {count} active animation(s)"
  return count

end Animator

variable {α : Type} [Number α]

namespace Motion

def position (motion : Motion α) (t : α) : α × α :=
  let u := normalize t motion.t0 motion.t1
  (blend motion.start.1 motion.stop.1 (motion.easeX.apply u),
    blend motion.start.2 motion.stop.2 (motion.easeY.apply u))

def isOver (motion : Motion α) (t : α) : Bool := motion.t1 ≤ t

end Motion

namespace Animator

def position (a : Animator α) (node : String) (t : α) : Except Fault (α × α) :=
  match a.motion? node with
  | some motion => .ok (motion.position t)
  | none => .error (.ofDesk (.noAnimation node))

/-- Where a new move of a node starts: where the node has got to if it is moving, and at `start`
otherwise. `now` is the time on the clock of the move in flight. -/
def startOf (node : String) (start : α × α) (now : Option α) : Act (Animator α) (α × α) := do
  match (← get).motion? node with
  | none => return start
  | some prior =>
    let place := prior.position (now.getD prior.t0)
    let x := Number.tenths place.1
    let y := Number.tenths place.2
    Act.info s!"Move on {node} superseded, continuing from ({x}, {y})"
    return place

def move (motion : Motion α) (now : Option α) : Act (Animator α) (Motion α) := do
  let start ← startOf motion.node motion.start now
  let motion := { motion with start }
  modify fun a => a.register motion
  return motion

def moveNamed (motion : Motion α) (easeX easeY : String) (now : Option α) :
    Act (Animator α) (Motion α) := do
  let start ← startOf motion.node motion.start now
  let easeX ← Act.ofExcept (Easing.find easeX)
  let easeY ← Act.ofExcept (Easing.find easeY)
  let motion := { motion with start, easeX, easeY }
  modify fun a => a.register motion
  return motion

end Animator

/-- What an advance needs of its surroundings: the moves, the progress of a clock, and a way to place
a window, in the course of which more moves may be started. -/
structure Stage (σ α : Type) where
  animator : σ → Animator α
  setAnimator : Animator α → σ → σ
  progress : σ → String → Option α
  place : String → Int → Int → Act σ Unit

namespace Stage

variable {σ : Type}

def pixel (x : α) : Except Fault Int :=
  (Number.round x).mapError fun fault => .host (.roundsToNothing fault)

/-- Takes out a move that is over, unless a newer one has taken its place. -/
def retire (stage : Stage σ α) (number : Nat) (node : String) : Act σ Bool := do
  let a := stage.animator (← get)
  if a.holds number node then
    modify (stage.setAnimator (a.remove node))
    return true
  else return false

def advanceMotion (stage : Stage σ α) (number : Nat) (motion : Motion α) :
    Act σ (Option String) := do
  match motion.clock.bind (stage.progress (← get)) with
  | none => return none
  | some t =>
    if t < motion.t0 then return none
    let place := motion.position t
    let left ← Act.ofExcept (pixel place.1)
    let top ← Act.ofExcept (pixel place.2)
    stage.place motion.node left top
    if motion.isOver t then
      let retired ← stage.retire number motion.node
      let x := Number.tenths place.1
      let y := Number.tenths place.2
      Act.debug s!"Move on {motion.node} finished at ({x}, {y})"
      return if retired then some motion.node else none
    else return none

def advanceMotions (stage : Stage σ α) : List (Nat × Motion α) → Act σ (List String)
  | [] => return []
  | (number, motion) :: rest => do
    let retired ← stage.advanceMotion number motion
    let others ← stage.advanceMotions rest
    return retired.toList ++ others

def advance (stage : Stage σ α) : Act σ (List String) := do
  -- What is started from here on waits for the next advance.
  stage.advanceMotions (stage.animator (← get)).entries.values

end Stage

end ShowControl
