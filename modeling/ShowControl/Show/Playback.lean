import ShowControl.Show.Run

/-! Simulated clocks, which stand in for the media of a backend.

The clock of a node that plays runs from zero to a fixed duration, and reports its progress and at the
end the event `end`. A pause freezes it, a stop rewinds it, and a seek sets it to the start of its
segment. -/

set_option autoImplicit false
namespace ShowControl

structure Clock (α : Type) where
  elapsed : α
  /-- The segment that was seen last, and the number of its seek. -/
  segment : Option (α × α)
  seeks : Nat
  ended : Bool

structure Beat (α : Type) where
  progress : α
  atEnd : Bool

namespace Clock

variable {α : Type} [Number α]

def start : Clock α := ⟨0, none, 0, false⟩

/-- Whether the segment of a node is the one seen last: it stems from the same seek, or has the same
ends. -/
def knows (c : Clock α) (node : Node α) : Bool :=
  match c.segment, node.segment with
  | none, none => true
  | some a, some b => c.seeks = node.seeks || (Number.same a.1 b.1 && Number.same a.2 b.2)
  | _, _ => false

def observe (duration : α) (node : Node α) (c : Clock α) : Clock α :=
  if c.knows node then c
  else match node.segment with
    | none => { c with segment := none, seeks := node.seeks }
    | some (start, stop) =>
      { elapsed := Number.atMost duration (Number.atLeast 0 start)
        segment := some (start, stop)
        seeks := node.seeks
        ended := false }

def run (duration dt : α) (transport : Transport) (c : Clock α) : Clock α × Option (Beat α) :=
  match transport with
  -- A seek that has just been seen stays known, and is undone for good.
  | .stopped => ({ c with elapsed := 0, ended := false }, none)
  | .paused => (c, none)
  | .playing =>
    if c.ended then (c, none)
    else
      let elapsed := Number.atMost duration (c.elapsed + dt)
      let atEnd : Bool := duration ≤ elapsed
      ({ c with elapsed, ended := atEnd }, some ⟨elapsed / duration, atEnd⟩)

def step (duration dt : α) (node : Node α) (c : Clock α) : Clock α × Option (Beat α) :=
  (c.observe duration node).run duration dt node.transport

end Clock

abbrev Playback (α : Type) : Type := Table String (Clock α)

structure Rehearsal (α : Type) where
  playing : Show α
  playback : Playback α

namespace Rehearsal

variable {α : Type} [Number α]

def onShow {β : Type} (x : Act (Show α) β) : Act (Rehearsal α) β :=
  x.zoom Rehearsal.playing fun r playing => { r with playing }

def send (node : Node α) (beat : Beat α) : Act (Channel α) Unit := do
  let _ ← Channel.putProgress node.handle beat.progress
  if beat.atEnd then
    Act.info s!"Simulated clock {node.name} reached the end"
    let _ ← Channel.putCallback node.handle (some "end")

def stepNode (dt : α) (node : Node α) : Act (Rehearsal α) Unit := do
  let r ← get
  let clock := (r.playback.get? node.name).getD .start
  let (clock, beat) := clock.step r.playing.config.simulatedSeconds dt node
  modify fun r => { r with playback := r.playback.insert node.name clock }
  if let some beat := beat then onShow (Show.onChannel (send node beat))

def stepNodes (dt : α) : List (Node α) → Act (Rehearsal α) Unit
  | [] => return ()
  | node :: rest => do
    stepNode dt node
    stepNodes dt rest

def step (dt : α) : Act (Rehearsal α) Unit := do
  stepNodes dt (← get).playing.graph.nodes.values

end Rehearsal

end ShowControl
