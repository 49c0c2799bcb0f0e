import Mathlib.Logic.Function.Basic
import ShowControl.Graph.Command
import ShowControl.Proofs.Act
import ShowControl.Proofs.Table

/-! Commands to nodes: what they come to, and what they leave as it is. -/

set_option autoImplicit false
namespace ShowControl

/-- A backend that may refuse but never breaks down. -/
def Backend.Steady {α : Type} (b : Backend α) : Prop :=
  ∀ journal call text, b.reply journal call ≠ .failed text

/-- What a reply comes to. -/
def Reply.answer : Reply → Except Fault Bool
  | .done => .ok true
  | .refused => .ok false
  | .failed text => .error (.host (.backend text))

theorem Backend.steady_obliging {α : Type} : (Backend.obliging : Backend α).Steady :=
  fun _ _ _ failed => nomatch failed

theorem Backend.Steady.answers {α : Type} {b : Backend α} (steady : b.Steady)
    (journal : List (Exchange α)) (call : Call α) : ∃ accepted, (b.reply journal call).answer = .ok accepted := by
  cases reply : b.reply journal call with
  | done => exact ⟨true, rfl⟩
  | refused => exact ⟨false, rfl⟩
  | failed text => exact absurd reply (steady _ _ _)

theorem Settings.get?_set (s : Settings) (element property : String) (v : PropertyValue) :
    (s.set element property v).get? = Function.update s.get? element
      (Function.update (s.get? element) property (some v)) := by
  funext e p
  show (Table.get? (Table.insert s element _) e).bind (fun values => values.get? p) = _
  rw [Table.get?_insert]
  by_cases here : e = element
  · subst here
    rw [Function.update_self, if_pos rfl, Option.bind_some, Table.get?_insert]
    by_cases same : p = property
    · subst same
      rw [Function.update_self, if_pos rfl]
    · rw [Function.update_of_ne same, if_neg same]
      show _ = (Table.get? s e).bind fun values => values.get? p
      cases Table.get? s e <;> rfl
  · rw [Function.update_of_ne here, if_neg here]
    rfl

namespace Graph

variable {α : Type}

/-- Two graphs with the same nodes by name, the same plugs and the same progress. -/
structure SameWiring (g g' : Graph α) : Prop where
  library : g'.library = g.library
  rewiring : g'.rewiring = g.rewiring
  backend : g'.backend = g.backend
  names : g'.nodes.keys = g.nodes.keys
  handles : g'.handles = g.handles
  plugs : g'.plugs = g.plugs
  progress : g'.progress = g.progress

instance : IsPreorder (Graph α) SameWiring where
  refl _ := ⟨rfl, rfl, rfl, rfl, rfl, rfl, rfl⟩
  trans _ _ _ first second :=
    ⟨second.library.trans first.library, second.rewiring.trans first.rewiring,
      second.backend.trans first.backend, second.names.trans first.names,
      second.handles.trans first.handles, second.plugs.trans first.plugs,
      second.progress.trans first.progress⟩

theorem sameWiring_modifyNode (g : Graph α) (name : String) (f : Node α → Node α) :
    SameWiring g (g.modifyNode name f) :=
  ⟨rfl, rfl, rfl, Table.keys_modify .., rfl, rfl, rfl⟩

theorem keeps_modifyNode (name : String) (f : Node α → Node α) :
    (modify fun g => g.modifyNode name f : Act (Graph α) PUnit).Keeps SameWiring :=
  Act.keeps_modify fun g => sameWiring_modifyNode g name f

variable [Number α]

theorem keeps_issue (call : Call α) : (issue call).Keeps SameWiring := by
  refine Act.keeps_bind Act.keeps_get fun g => ?_
  refine Act.keeps_bind (Act.keeps_modify fun _ => ⟨rfl, rfl, rfl, rfl, rfl, rfl, rfl⟩) fun _ => ?_
  refine Act.keeps_bind (Act.keeps_log _ _) fun _ => ?_
  cases g.backend.reply g.journal call with
  | done => exact Act.keeps_pure true
  | refused => exact Act.keeps_pure false
  | failed text => exact Act.keeps_throw _

section Keeps

variable {R : Graph α → Graph α → Prop} [IsPreorder (Graph α) R]

/-! A command to a node keeps what telling the backend and changing the node keep. -/

theorem setTransport_keeps (tells : ∀ call, (issue call).Keeps R) {name : String} {verb : Verb}
    {arguments : List α} (changes : (modify fun g => g.modifyNode name fun node =>
      node.command verb arguments : Act (Graph α) PUnit).Keeps R) :
    (setTransport name verb arguments).Keeps R :=
  Act.keeps_bind Act.keeps_get fun _ => Act.keeps_bind (Act.keeps_ofExcept _) fun _ =>
    Act.keeps_bind (tells _) fun _ => Act.keeps_bind changes fun _ =>
      Act.keeps_bind (Act.keeps_log _ _) fun _ => Act.keeps_pure _

theorem setProperty_keeps (tells : ∀ call, (issue call).Keeps R) {name element property : String}
    (changes : ∀ v, (modify fun g => g.modifyNode name fun node =>
      node.setProperty element property v : Act (Graph α) PUnit).Keeps R) (typeName raw : String) :
    (setProperty name element property typeName raw : Act (Graph α) PropertyValue).Keeps R :=
  Act.keeps_bind Act.keeps_get fun _ => Act.keeps_bind (Act.keeps_ofExcept _) fun _ =>
    Act.keeps_bind (Act.keeps_ofExcept _) fun _ => Act.keeps_bind (Act.keeps_ofExcept _) fun _ =>
      Act.keeps_bind (tells _) fun _ => Act.keeps_bind (changes _) fun _ =>
        Act.keeps_bind (Act.keeps_log _ _) fun _ => Act.keeps_pure _

theorem showWindow_keeps (tells : ∀ call, (issue call).Keeps R) {name : String}
    (changes : (modify fun g => g.modifyNode name Node.showWindow :
      Act (Graph α) PUnit).Keeps R) : (showWindow name : Act (Graph α) Unit).Keeps R :=
  Act.keeps_bind Act.keeps_get fun _ => Act.keeps_bind (Act.keeps_ofExcept _) fun _ =>
    Act.keeps_bind (tells _) fun _ => Act.keeps_bind changes fun _ => Act.keeps_log _ _

theorem moveWindow_keeps (tells : ∀ call, (issue call).Keeps R) {name : String} {x y : Int}
    (changes : (modify fun g => g.modifyNode name fun node => node.moveWindow x y :
      Act (Graph α) PUnit).Keeps R) : (moveWindow name x y : Act (Graph α) Unit).Keeps R := by
  refine Act.keeps_bind Act.keeps_get fun _ => Act.keeps_bind (Act.keeps_ofExcept _) fun found => ?_
  show Act.Keeps _ (if found.2.x = x ∧ found.2.y = y then _ else _)
  split
  · exact Act.keeps_pure ()
  · exact Act.keeps_bind (tells _) fun _ => changes

end Keeps

theorem keeps_setTransport (name : String) (verb : Verb) (arguments : List α) :
    (setTransport name verb arguments).Keeps SameWiring :=
  setTransport_keeps keeps_issue (keeps_modifyNode name _)

theorem keeps_setProperty (name element property typeName raw : String) :
    (setProperty name element property typeName raw : Act (Graph α) PropertyValue).Keeps
      SameWiring :=
  setProperty_keeps keeps_issue (fun _ => keeps_modifyNode name _) typeName raw

theorem keeps_showWindow (name : String) :
    (showWindow name : Act (Graph α) Unit).Keeps SameWiring :=
  showWindow_keeps keeps_issue (keeps_modifyNode name _)

theorem keeps_moveWindow (name : String) (x y : Int) :
    (moveWindow name x y : Act (Graph α) Unit).Keeps SameWiring :=
  moveWindow_keeps keeps_issue (keeps_modifyNode name _)

/-! What commands come to -/

/-- The graph after the backend has been told something. -/
def told (g : Graph α) (call : Call α) : Graph α :=
  { g with journal := g.journal ++ [⟨call, g.backend.reply g.journal call⟩] }

theorem eval_issue_eq (g : Graph α) (call : Call α) :
    (issue call).eval g = ((g.backend.reply g.journal call).answer, g.told call) := by
  simp only [issue, Act.eval_bind, Act.eval_get, Act.eval_modify, Act.eval_debug, told]
  cases g.backend.reply g.journal call with
  | done | refused | failed => rfl

theorem eval_issue {g : Graph α} (steady : g.backend.Steady) (call : Call α) :
    ∃ accepted, (issue call).eval g = (.ok accepted, g.told call) := by
  obtain ⟨accepted, answer⟩ := steady.answers g.journal call
  exact ⟨accepted, by rw [eval_issue_eq, answer]⟩

theorem eval_setTransport_eq (g : Graph α) (name : String) (verb : Verb) (arguments : List α) :
    (setTransport name verb arguments).eval g =
      match g.node name with
      | .error fault => (.error fault, g)
      | .ok node =>
        match (g.backend.reply g.journal (.transport node.handle verb arguments)).answer with
        | .error fault => (.error fault, g.told (.transport node.handle verb arguments))
        | .ok _ => (.ok (node.transport.after verb),
            (g.told (.transport node.handle verb arguments)).modifyNode name
              fun node => node.command verb arguments) := by
  simp only [setTransport, Act.eval_bind, Act.eval_get, Act.eval_ofExcept, eval_issue_eq]
  cases g.node name with
  | error fault => rfl
  | ok node =>
    dsimp only
    cases (g.backend.reply g.journal (.transport node.handle verb arguments)).answer with
    | error fault | ok accepted => rfl

theorem eval_setTransport {g : Graph α} (steady : g.backend.Steady) (name : String) (verb : Verb)
    (arguments : List α) : (setTransport name verb arguments).eval g =
      match g.node name with
      | .error fault => (.error fault, g)
      | .ok node => (.ok (node.transport.after verb),
          (g.told (.transport node.handle verb arguments)).modifyNode name
            fun node => node.command verb arguments) := by
  rw [eval_setTransport_eq]
  split
  · rfl
  · next node _ =>
    obtain ⟨accepted, answer⟩ := steady.answers g.journal (.transport node.handle verb arguments)
    rw [answer]

/-- A transport command changes the node that it is for, unless it is cut short. -/
theorem nodes_setTransport (g : Graph α) (name : String) (verb : Verb) (arguments : List α) :
    match (setTransport name verb arguments).eval g with
    | (.error _, g') => g'.nodes = g.nodes
    | (.ok _, g') => (∃ node, g.nodes.get? name = some node) ∧
        g'.nodes = g.nodes.modify name fun node => node.command verb arguments := by
  rw [eval_setTransport_eq, Graph.node]
  cases live : g.nodes.get? name with
  | none => rfl
  | some node =>
    dsimp only
    cases (g.backend.reply g.journal (.transport node.handle verb arguments)).answer with
    | error fault => rfl
    | ok accepted => exact ⟨⟨node, rfl⟩, rfl⟩

/-- Whatever is wrong with a value is found before the backend is told of it. -/
theorem eval_setProperty_eq (g : Graph α) (name element property typeName raw : String) :
    (setProperty name element property typeName raw).eval g =
      match (do
        let node ← g.node name
        checkProperty node element property typeName
        return (node, ← readValue typeName raw) : Except Fault (Node α × PropertyValue)) with
      | .error fault => (.error fault, g)
      | .ok (node, v) =>
        match (g.backend.reply g.journal (.setProperty node.handle element property v)).answer with
        | .error fault => (.error fault, g.told (.setProperty node.handle element property v))
        | .ok _ => (.ok v, (g.told (.setProperty node.handle element property v)).modifyNode name
            fun node => node.setProperty element property v) := by
  simp only [setProperty, Act.eval_bind, Act.eval_get, Act.eval_ofExcept]
  cases g.node name with
  | error fault => rfl
  | ok node =>
    cases checked : checkProperty node element property typeName with
    | error fault => simp [checked, bind, Except.bind]
    | ok u =>
      cases readValue typeName raw with
      | error fault => simp [checked, bind, Except.bind]
      | ok v =>
        simp only [checked, bind, Except.bind, pure, Except.pure, eval_issue_eq]
        cases (g.backend.reply g.journal (.setProperty node.handle element property v)).answer <;>
          rfl

theorem eval_setProperty {g : Graph α} (steady : g.backend.Steady)
    (name element property typeName raw : String) :
    (setProperty name element property typeName raw).eval g =
      match (do
        let node ← g.node name
        checkProperty node element property typeName
        return (node, ← readValue typeName raw) : Except Fault (Node α × PropertyValue)) with
      | .error fault => (.error fault, g)
      | .ok (node, v) => (.ok v, (g.told (.setProperty node.handle element property v)).modifyNode
          name fun node => node.setProperty element property v) := by
  rw [eval_setProperty_eq]
  split
  · rfl
  · next node v _ =>
    obtain ⟨accepted, answer⟩ := steady.answers g.journal (.setProperty node.handle element property v)
    rw [answer]

theorem eval_showWindow {g : Graph α} (steady : g.backend.Steady) (name : String) :
    (showWindow name).eval g = match g.windowed name with
      | .error fault => (.error fault, g)
      | .ok (node, _) =>
        (.ok (), (g.told (.showWindow node.handle)).modifyNode name Node.showWindow) := by
  simp only [showWindow, Act.eval_bind, Act.eval_get, Act.eval_ofExcept]
  cases g.windowed name with
  | error fault => rfl
  | ok found =>
    obtain ⟨accepted, issued⟩ := eval_issue steady (.showWindow found.1.handle)
    simp only [issued]
    rfl

theorem eval_moveWindow {g : Graph α} (steady : g.backend.Steady) (name : String) (x y : Int) :
    (moveWindow name x y).eval g = match g.windowed name with
      | .error fault => (.error fault, g)
      | .ok (node, window) =>
        (.ok (), if window.x = x ∧ window.y = y then g else
          (g.told (.moveWindow node.handle x y)).modifyNode name fun node => node.moveWindow x y) := by
  simp only [moveWindow, Act.eval_bind, Act.eval_get, Act.eval_ofExcept]
  cases g.windowed name with
  | error fault => rfl
  | ok found =>
    obtain ⟨node, window⟩ := found
    by_cases there : window.x = x ∧ window.y = y
    · simp only [if_pos there, Act.eval_pure]
    · obtain ⟨accepted, issued⟩ := eval_issue steady (.moveWindow node.handle x y)
      simp only [if_neg there, Act.eval_bind, issued, Act.eval_modify]

end Graph

end ShowControl
