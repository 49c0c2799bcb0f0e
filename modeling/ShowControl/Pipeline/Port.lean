import ShowControl.Pipeline.Layout
import ShowControl.Text.Case
import ShowControl.Text.Search

/-! The ports that a sub-pipeline shows to the outside, and the medium that each carries.

An element of kind `proxysrc` is an input port, one of kind `proxysink` an output port. The name of a
port may reveal its medium; otherwise the nearest element along the chain whose kind reveals one
decides. -/

set_option autoImplicit false
namespace ShowControl

inductive Medium where
  | audio
  | video
  deriving DecidableEq, Repr

inductive Direction where
  | input
  | output
  deriving DecidableEq, Repr

def Medium.name : Medium → String
  | audio => "audio"
  | video => "video"

def Direction.name : Direction → String
  | input => "in"
  | output => "out"

structure Port where
  name : String
  direction : Direction
  medium : Option Medium
  deriving DecidableEq, Repr

/-- Two ports may be joined unless they are known to carry different media. -/
def Port.compatible (a b : Port) : Bool :=
  match a.medium, b.medium with
  | some m, some n => m = n
  | _, _ => true

namespace Pipeline

def audioWords : List String := ["audio", "alsa", "pulse", "mp3", "wav"]

def videoWords : List String := ["video", "ximage", "xvimage", "glimage", "jpeg", "flip"]

/-- The medium that a name reveals. One that hints at both reveals none. -/
def hint (name : String) : Option Medium :=
  let chars := (Text.lower name).toList
  let audio := audioWords.any fun w => Text.occursIn w.toList chars
  let video := videoWords.any fun w => Text.occursIn w.toList chars
  match audio, video with
  | true, false => some .audio
  | false, true => some .video
  | _, _ => none

def Element.direction? (e : Element) : Option Direction :=
  if e.kind = "proxysrc" then some .input
  else if e.kind = "proxysink" then some .output
  else none

private theorem length_filter_lt {α : Type} {p q : α → Bool} {l : List α} {a : α}
    (le : ∀ x, q x = true → p x = true) (mem : a ∈ l) (yes : p a = true) (no : q a = false) :
    (l.filter q).length < (l.filter p).length := by
  induction l with
  | nil => cases mem
  | cons b rest ih =>
    have mono : (rest.filter q).length ≤ (rest.filter p).length := by
      rw [← List.countP_eq_length_filter, ← List.countP_eq_length_filter]
      exact List.countP_mono_left fun x _ => le x
    rcases List.mem_cons.1 mem with rfl | mem
    · simp [yes, no]; omega
    · have := ih mem
      simp only [List.filter_cons]
      cases hq : q b
      · cases hp : p b <;> simp <;> omega
      · simp [le b hq]; omega

/-- The hint of the first element met along `next` that has one, going breadth first through the
queue. `seen` holds the elements that were met before. -/
def nearestHint (layout : Layout) (next : String → List String) (seen : List String) :
    List String → Option Medium
  | [] => none
  | name :: queue =>
    if name ∈ seen then nearestHint layout next seen queue
    else match _found : layout.element? name with
      | none => nearestHint layout next (name :: seen) queue
      | some e => match hint e.kind with
        | some m => some m
        | none => nearestHint layout next (name :: seen) (queue ++ next name)
-- A name that has been met makes the queue shorter, and any other leaves fewer to be met.
termination_by queue => ((layout.elements.filter fun e => e.name ∉ seen).length, queue.length)
decreasing_by
  · exact Prod.Lex.right _ (by simp)
  · refine Prod.Lex.right' _ ?_ (by simp)
    rw [← List.countP_eq_length_filter, ← List.countP_eq_length_filter]
    exact List.countP_mono_left fun x _ h => by simp_all
  · next =>
    refine Prod.Lex.left _ _ (length_filter_lt (a := e) ?_ ?_ ?_ ?_)
    · intro x h; simp_all
    · exact List.mem_of_find?_eq_some _found
    · have := List.find?_some _found; simp_all
    · have := List.find?_some _found; simp_all

def inferMedium (layout : Layout) (e : Element) (direction : Direction) : Option Medium :=
  let next := match direction with
    | .input => layout.targetsOf
    | .output => layout.sourcesOf
  (hint e.name).or (nearestHint layout next [e.name] (next e.name))

def Layout.ports (layout : Layout) : Table String Port :=
  Table.ofList <| layout.elements.filterMap fun e =>
    e.direction?.map fun d => (e.name, ⟨e.name, d, inferMedium layout e d⟩)

end Pipeline

end ShowControl
