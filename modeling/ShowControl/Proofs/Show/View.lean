import ShowControl.Proofs.Show.Moves

/-! What can be seen of a desk.

A view has the nodes by name, their properties as a map, and the move of each node. Whether an action
can be applied, and what it changes, is a matter of views alone, as long as the backend does not break
down. -/

set_option autoImplicit false
namespace ShowControl

variable {α : Type}

/-- A node with its properties as a map. -/
structure Sight (α : Type) where
  bare : Node α
  property : String → String → Option PropertyValue

def Node.sight (node : Node α) : Sight α :=
  ⟨{ node with properties := .empty }, node.properties.get?⟩

structure View (α : Type) where
  node : String → Option (Sight α)
  motion : String → Option (Motion α)
  progress : String → Option α

def Desk.view (d : Desk α) : View α :=
  ⟨fun name => (d.graph.nodes.get? name).map Node.sight, d.animator.motion?,
    d.graph.progress.get?⟩

namespace Sight

def checkProperty (s : Sight α) (element property typeName : String) : Except Fault Unit :=
  if (s.bare.template.layout.element? element).isNone then
    .error (.ofDesk (.noElement s.bare.name element))
  else match s.property element property with
    | some current =>
      if current.type.name = typeName then .ok ()
      else .error (.ofDesk (.otherType s.bare.name element property current.type typeName))
    | none => .ok ()

def check (target : String) (s : Sight α) : Command α → Except Fault Unit
  | .play _ | .seek .. => .ok ()
  | .property element name type value => do
    s.checkProperty element name type.name
    let _ ← Graph.readValue type.name value
  | .showWindow | .moveWindow _ =>
    if s.bare.window.isSome then .ok () else .error (.ofDesk (.noWindow target))

def setProperty (s : Sight α) (element property : String) (v : PropertyValue) : Sight α :=
  { s with
    property := Function.update s.property element
      (Function.update (s.property element) property (some v)) }

def bareAfter (s : Sight α) : Command α → Node α
  | .play op => s.bare.command op.verb []
  | .seek start stop => s.bare.command .seek [start, stop]
  | .showWindow => s.bare.showWindow
  | .property .. | .moveWindow _ => s.bare

def propertyAfter (s : Sight α) : Command α → String → String → Option PropertyValue
  | .property element name type value =>
    match Graph.readValue type.name value with
    | .ok v => (s.setProperty element name v).property
    | .error _ => s.property
  | _ => s.property

def write (s : Sight α) (command : Command α) : Sight α :=
  ⟨s.bareAfter command, s.propertyAfter command⟩

end Sight

namespace View

/-- Why an action is not applied. -/
def check (v : View α) : Action α → Except Fault Unit
  | .terminate _ => .ok ()
  | .command target command _ =>
    match v.node target with
    | none => .error (.ofDesk (.unknownNode target))
    | some s => s.check target command

theorem check_absent {v : View α} {target : String} (absent : v.node target = none)
    {command : Command α} {line : Nat} :
    v.check (.command target command line) = .error (.ofDesk (.unknownNode target)) := by
  simp only [check, absent]

variable [Number α]

/-- The move that an action starts. It goes on from where the node has got to. -/
def motionOf (v : View α) (target : String) (m : Move α) : Motion α where
  node := target
  clock := some m.clock
  t0 := m.t0
  t1 := m.t1
  start := match v.motion target with
    | none => (m.x0, m.y0)
    | some prior => prior.position ((prior.clock.bind v.progress).getD prior.t0)
  stop := (m.x1, m.y1)
  easeX := m.easeX
  easeY := m.easeY

def motionAfter (v : View α) (target : String) : Command α → String → Option (Motion α)
  | .moveWindow m => Function.update v.motion target (some (v.motionOf target m))
  | _ => v.motion

def write (v : View α) : Action α → View α
  | .terminate _ => v
  | .command target command _ =>
    { v with
      node := Function.update v.node target ((v.node target).map fun s => s.write command)
      motion := v.motionAfter target command }

def next (v : View α) (action : Action α) : View α :=
  match v.check action with
  | .ok () => v.write action
  | .error _ => v

end View

/-! Desks as views -/

theorem Node.sight_command (node : Node α) (verb : Verb) (arguments : List α) :
    (node.command verb arguments).sight =
      { node.sight with bare := node.sight.bare.command verb arguments } := by
  cases verb <;> rfl

theorem Node.sight_setProperty (node : Node α) (element property : String) (v : PropertyValue) :
    (node.setProperty element property v).sight = node.sight.setProperty element property v := by
  simp only [Node.sight, Node.setProperty, Sight.setProperty, Settings.get?_set]

namespace Desk

theorem view_modifyNode [Number α] (d : Desk α) (call : Call α) (name : String)
    {f : Node α → Node α} (change : Sight α → Sight α)
    (same : ∀ node, (f node).sight = change node.sight) :
    ({ d with graph := (d.graph.told call).modifyNode name f } : Desk α).view =
      { d.view with node := Function.update d.view.node name ((d.view.node name).map change) } := by
  simp only [view, Graph.told, Graph.modifyNode, View.mk.injEq, and_true]
  -- The nodes are all that differs; they are compared name by name.
  funext other
  rw [Table.get?_modify]
  by_cases here : other = name
  · subst here
    rw [if_pos rfl, Function.update_self, Option.map_map, Option.map_map]
    exact congrArg (fun g => Option.map g _) (funext same)
  · rw [if_neg here, Function.update_of_ne here]

variable [Number α]

/-- The step comes to what the action comes to in the view. -/
def Follows (x : Act (Desk α) Unit) (d : Desk α) (action : Action α) : Prop :=
  ∃ e, x.eval d = (d.view.check action, e) ∧ e.view = d.view.next action

theorem follows_error {x : Act (Desk α) Unit} {d : Desk α} {action : Action α} {fault : Fault}
    (check : d.view.check action = .error fault) (failed : x.eval d = (.error fault, d)) :
    Follows x d action :=
  ⟨d, by rw [check, failed], by rw [View.next, check]⟩

omit [Number α] in
theorem view_node {d : Desk α} {target : String} {node : Node α}
    (found : d.graph.nodes.get? target = some node) : d.view.node target = some node.sight := by
  simp only [view, found, Option.map_some]

theorem follows_absent {x : Act (Desk α) Unit} {d : Desk α} {target : String}
    {command : Command α} {line : Nat} (absent : d.graph.nodes.get? target = none)
    (failed : x.eval d = (.error (.ofDesk (.unknownNode target)), d)) :
    Follows x d (.command target command line) := by
  have unseen : d.view.node target = none := by simp only [view, absent, Option.map_none]
  exact follows_error (View.check_absent unseen) failed

theorem follows_modifyNode {x : Act (Desk α) Unit} {d : Desk α} {target : String}
    {command : Command α} {line : Nat} (call : Call α) {f : Node α → Node α}
    (check : d.view.check (.command target command line) = .ok ())
    (unmoved : ∀ v : View α, v.motionAfter target command = v.motion)
    (same : ∀ node, (f node).sight = node.sight.write command)
    (done : x.eval d = (.ok (), { d with graph := (d.graph.told call).modifyNode target f })) :
    Follows x d (.command target command line) := by
  refine ⟨_, by rw [check, done], ?_⟩
  rw [View.next, check, view_modifyNode d call target (fun s => s.write command) same]
  simp only [View.write, unmoved]

theorem follows_transport {d : Desk α} (steady : d.graph.backend.Steady) {target : String}
    {verb : Verb} {arguments : List α} {command : Command α} {line : Nat}
    (unmoved : ∀ v : View α, v.motionAfter target command = v.motion)
    (free : ∀ s : Sight α, s.check target command = .ok ())
    (same : ∀ node : Node α, (node.command verb arguments).sight = node.sight.write command) :
    Follows (do let _ ← onGraph (Graph.setTransport target verb arguments)) d
      (.command target command line) := by
  have evaluated := Graph.eval_setTransport steady target verb arguments
  cases found : d.graph.nodes.get? target with
  | none =>
    refine follows_absent found ?_
    simp only [onGraph, Act.eval_bind, Act.eval_zoom, evaluated, Graph.node, found]
  | some node =>
    have present := view_node found
    refine follows_modifyNode (.transport node.handle verb arguments)
      (by simp only [View.check, present, free]) unmoved same ?_
    simp only [onGraph, Act.eval_bind, Act.eval_zoom, evaluated, Graph.node, found]
    rfl

omit [Number α] in
theorem checkProperty_eq (node : Node α) (element property typeName : String) :
    Graph.checkProperty node element property typeName =
      node.sight.checkProperty element property typeName := rfl

theorem follows_property {d : Desk α} (steady : d.graph.backend.Steady)
    (target element name : String) (type : PropertyType) (value : String) (line : Nat) :
    Follows (perform target (.property element name type value)) d
      (.command target (.property element name type value) line) := by
  have evaluated := Graph.eval_setProperty steady target element name type.name value
  have performed : (perform target (.property element name type value)).eval d =
      match ((Graph.setProperty target element name type.name value).eval d.graph) with
      | (.ok _, graph) => (.ok (), { d with graph })
      | (.error fault, graph) => (.error fault, { d with graph }) := by
    simp only [perform, onGraph, Act.eval_bind, Act.eval_zoom]
    rcases (Graph.setProperty target element name type.name value).eval d.graph with ⟨_ | _, graph⟩
      <;> rfl
  cases found : d.graph.nodes.get? target with
  | none =>
    refine follows_absent found ?_
    simp only [performed, evaluated, Graph.node, found, bind, Except.bind]
  | some node =>
    have present := view_node found
    cases checked : node.sight.checkProperty element name type.name with
    | error fault =>
      have refused : d.view.check (.command target (.property element name type value) line) =
          .error fault := by
        simp only [View.check, present, Sight.check, checked]
        rfl
      refine follows_error refused ?_
      simp only [performed, evaluated, Graph.node, found, checkProperty_eq, checked, bind,
        Except.bind]
    | ok u =>
      cases read : Graph.readValue type.name value with
      | error fault =>
        have refused : d.view.check (.command target (.property element name type value) line) =
            .error fault := by
          simp only [View.check, present, Sight.check, checked, read]
          rfl
        refine follows_error refused ?_
        simp only [performed, evaluated, Graph.node, found, checkProperty_eq, checked, read, bind,
          Except.bind]
      | ok v =>
        refine follows_modifyNode (.setProperty node.handle element name v)
          (f := fun node => node.setProperty element name v) ?_ (fun _ => rfl) ?_ ?_
        · simp only [View.check, present, Sight.check, checked, read]
          rfl
        · intro node
          simp only [Sight.write, Sight.propertyAfter, read, node.sight_setProperty]
          rfl
        · simp only [performed, evaluated, Graph.node, found, checkProperty_eq, checked, read,
            bind, Except.bind]
          rfl

omit [Number α] in
theorem windowed_eq {d : Desk α} {target : String} {node : Node α}
    (found : d.graph.nodes.get? target = some node) :
    d.graph.windowed target = match node.window with
      | some window => .ok (node, window)
      | none => .error (.ofDesk (.noWindow target)) := by
  simp only [Graph.windowed, Graph.node, found, bind, Except.bind]
  cases node.window <;> rfl

theorem follows_showWindow {d : Desk α} (steady : d.graph.backend.Steady) (target : String)
    (line : Nat) : Follows (onGraph (Graph.showWindow target)) d
      (.command target .showWindow line) := by
  have evaluated := Graph.eval_showWindow steady target
  cases found : d.graph.nodes.get? target with
  | none =>
    refine follows_absent found ?_
    simp only [onGraph, Act.eval_zoom, evaluated, Graph.windowed, Graph.node, found, bind,
      Except.bind]
  | some node =>
    have present := view_node found
    rw [windowed_eq found] at evaluated
    cases window : node.window with
    | none =>
      have refused : d.view.check (.command target .showWindow line) =
          .error (.ofDesk (.noWindow target)) := by
        simp [View.check, present, Sight.check, Node.sight, window]
      refine follows_error refused ?_
      simp only [onGraph, Act.eval_zoom, evaluated, window]
    | some w =>
      refine follows_modifyNode (.showWindow node.handle) (f := Node.showWindow) ?_
        (fun _ => rfl) (fun _ => rfl) ?_
      · simp [View.check, present, Sight.check, Node.sight, window]
      · simp only [onGraph, Act.eval_zoom, evaluated, window]

theorem follows_startMove (d : Desk α) (target : String) (move : Move α) (line : Nat) :
    Follows (startMove target move) d (.command target (.moveWindow move) line) := by
  cases found : d.graph.nodes.get? target with
  | none =>
    refine follows_absent found ?_
    have unknown : d.graph.windowed target = .error (.ofDesk (.unknownNode target)) := by
      simp only [Graph.windowed, Graph.node, found, bind, Except.bind]
    simp only [startMove, Act.eval_bind, Act.eval_get, Act.eval_ofExcept, unknown]
  | some node =>
    have present := view_node found
    cases window : node.window with
    | none =>
      have refused : d.view.check (.command target (.moveWindow move) line) =
          .error (.ofDesk (.noWindow target)) := by
        simp [View.check, present, Sight.check, Node.sight, window]
      refine follows_error refused ?_
      simp only [startMove, Act.eval_bind, Act.eval_get, Act.eval_ofExcept, windowed_eq found,
        window]
    | some w =>
      have accepted : d.view.check (.command target (.moveWindow move) line) = .ok () := by
        simp [View.check, present, Sight.check, Node.sight, window]
      refine ⟨{ d with animator := d.animator.register (d.view.motionOf target move) }, ?_, ?_⟩
      · rw [accepted]
        simp only [startMove, Act.eval_bind, Act.eval_get, Act.eval_ofExcept, windowed_eq found,
          window, onAnimator, Act.eval_zoom, Animator.eval_move, Animator.origin, Act.eval_info,
          View.motionOf, view, timeOf]
        -- Both sides ask for the move that the node has and for the time on its clock.
        cases d.animator.motion? target <;> rfl
      · rw [View.next, accepted]
        -- A move writes nothing to its node.
        have unmoved : Function.update d.view.node target
            ((d.view.node target).map fun s => s.write (.moveWindow move)) = d.view.node := by
          exact (congrArg _ Option.map_id').trans (Function.update_eq_self ..)
        simp only [View.write, unmoved]
        simp only [view, Animator.motion?_register]
        rfl

/-- Applying an action is a matter of the view: whether it is applied, and what comes of it. -/
theorem follows_apply {d : Desk α} (steady : d.graph.backend.Steady) (action : Action α) :
    Follows (apply action) d action := by
  cases action with
  | terminate line => exact ⟨d, rfl, rfl⟩
  | command target command line =>
    cases command with
    | play op =>
      exact follows_transport steady (fun _ => rfl) (fun _ => rfl) fun node => node.sight_command ..
    | seek start stop =>
      exact follows_transport steady (fun _ => rfl) (fun _ => rfl) fun node => node.sight_command ..
    | property element name type value =>
      exact follows_property steady target element name type value line
    | showWindow => exact follows_showWindow steady target line
    | moveWindow move => exact follows_startMove d target move line

end Desk

end ShowControl
