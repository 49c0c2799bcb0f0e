import ShowControl.Proofs.Graph.Agreement
import ShowControl.Proofs.Graph.Effect

/-! What a build provides.

The check of a program demands of the declared nodes what each action is for. A build that comes to
its end has put all of it into the graph. -/

set_option autoImplicit false
namespace ShowControl

variable {α : Type}

/-! What the check of the cues demands -/

def Template.Serves (t : Template) : Command α → Prop
  | .play _ | .seek .. => True
  | .property element _ _ _ => (t.layout.element? element).isSome = true
  | .showWindow | .moveWindow _ => t.hasWindow = true

namespace Blueprint

variable {b : Blueprint}

/-- The target of the action is declared and has what the action is for. -/
def Serves (b : Blueprint) : Action α → Prop
  | .terminate _ => True
  | .command target command _ => ∃ t, b.declared.get? target = some t ∧ t.Serves command

def ServesCue (b : Blueprint) (cue : Cue α) : Prop := ∀ action ∈ cue.group.actions, b.Serves action

theorem serves_of_checkAction {clocks clocks' : List String} {action : Action α}
    (checked : b.checkAction clocks action = .ok clocks') : b.Serves action := by
  cases action with
  | terminate line => exact trivial
  | command target command line =>
    rw [checkAction] at checked
    split at checked
    · cases checked
    next t declared =>
    refine ⟨t, declared, ?_⟩
    cases command with
    | play | seek => exact trivial
    | property element name type value =>
      rw [checkCommand] at checked
      split at checked
      · assumption
      · cases checked
    | showWindow =>
      rw [checkCommand] at checked
      split at checked
      · assumption
      · cases checked
    | moveWindow move =>
      rw [checkCommand] at checked
      split at checked
      · cases checked
      · next windowed =>
        have has : t.hasWindow = true := by simpa using windowed
        exact has

theorem serves_of_checkActions {actions : List (Action α)} {clocks clocks' : List String}
    (checked : actions.foldlM b.checkAction clocks = .ok clocks') :
    ∀ action ∈ actions, b.Serves action := by
  induction actions generalizing clocks with
  | nil => exact fun _ member => nomatch member
  | cons action rest ih =>
    rw [List.foldlM_cons] at checked
    obtain ⟨clocks₁, first, checked⟩ := ok_bind_iff.1 checked
    exact List.forall_mem_cons.2 ⟨serves_of_checkAction first, ih checked⟩

theorem serves_of_checkCues {cues : List (Cue α)} {clocks clocks' : List String}
    (checked : cues.foldlM (fun clocks cue =>
      (b.checkCue clocks cue).mapError (Fault.desk (some cue.line))) clocks = .ok clocks') :
    ∀ cue ∈ cues, b.ServesCue cue := by
  induction cues generalizing clocks with
  | nil => exact fun _ member => nomatch member
  | cons cue rest ih =>
    rw [List.foldlM_cons] at checked
    obtain ⟨clocks₁, first, checked⟩ := ok_bind_iff.1 checked
    obtain ⟨clocks₂, -, actions⟩ := ok_bind_iff.1 (ok_mapError_iff.1 first)
    exact List.forall_mem_cons.2 ⟨serves_of_checkActions actions, ih checked⟩

end Blueprint

/-! The declared nodes in the graph -/

/-- Each declared node is there, with a window if its template has one. -/
def Graph.Staffed (b : Blueprint) (g : Graph α) : Prop :=
  ∀ name t, b.declared.get? name = some t →
    ∃ node, g.nodes.get? name = some node ∧ node.template = t ∧ node.window.isSome = t.hasWindow

theorem Graph.Staffed.stay {b : Blueprint} {g g' : Graph α} (staffed : g.Staffed b)
    (stays : ∀ name node, g.nodes.get? name = some node →
      ∃ later, g'.nodes.get? name = some later ∧ node.Same later) : g'.Staffed b := by
  intro name t declared
  obtain ⟨node, live, template, windowed⟩ := staffed name t declared
  obtain ⟨later, live, same⟩ := stays name node live
  exact ⟨later, live, same.template.trans template, same.windowed.trans windowed⟩

section Build

variable [Number α] {rewiring : Rewiring} {b : Blueprint} {g : Graph α}

theorem Graph.chain_enter (statement : Statement) (g : Graph α) :
    ∃ who, Relation.ReflTransGen (Graph.Effect who) g ((Graph.enter statement).eval g).2 := by
  cases statement with
  | node templateName name arguments line =>
    refine ⟨some name, ?_⟩
    rw [Graph.enter, Act.state_bind _ fun _ _ => rfl]
    exact Graph.chain_instantiate g templateName name arguments
  | plug source target line =>
    refine ⟨none, ?_⟩
    rw [Graph.enter, Act.state_bind _ fun _ _ => rfl]
    exact Graph.chain_plug g source target

theorem Graph.Staffed.declare (staffed : g.Staffed b) (steady : g.backend.Steady) {b' : Blueprint}
    {templateName name : String} {arguments : List String} {g' : Graph α} {ports : Table String Port}
    (passed : b.declare g.library templateName name arguments = .ok b')
    (created : (Graph.instantiate templateName name arguments).Returns g ports g') :
    g'.Staffed b' := by
  have chain := Graph.chain_instantiate g templateName name arguments
  rw [created] at chain
  obtain ⟨x, node, fresh, made, live⟩ := Graph.made_of_instantiate steady created
  rw [Blueprint.declare_eq] at passed
  cases declared : g.library.expandFresh (b.declared.contains name) templateName name arguments with
  | error fault =>
    rw [declared] at passed
    cases passed
  | ok y =>
    rw [declared] at passed
    cases passed
    -- The graph and the check make the node of the same expansion.
    have expanded := (Library.expandFresh_eq_ok_iff.1 fresh).2
    have again := (Library.expandFresh_eq_ok_iff.1 declared).2
    obtain rfl : x = y := Except.ok.inj (expanded.symm.trans again)
    intro other t found
    rw [Table.get?_insert] at found
    split at found
    · next here =>
      cases found
      subst here
      have dressed := node.same_dress x.elements.entries
      obtain ⟨window, rfl, windowed, -⟩ := Graph.eq_of_ofExpansion made
      exact ⟨_, live, dressed.template, dressed.windowed.trans windowed⟩
    · exact staffed.stay (fun _ _ => Graph.chain_stays chain) other t found

theorem Graph.Staffed.enter (staffed : g.Staffed b) (steady : g.backend.Steady)
    {b' : Blueprint} {statement : Statement} {g' : Graph α} {u : Unit}
    (passed : b.enter g.library rewiring statement = .ok b')
    (returned : (Graph.enter statement).Returns g u g') :
    g'.Staffed b' ∧ g'.library = g.library ∧ g'.backend = g.backend := by
  obtain ⟨who, chain⟩ := Graph.chain_enter statement g
  rw [returned] at chain
  refine ⟨?_, Graph.chain_fixed chain⟩
  cases statement with
  | node templateName name arguments line =>
    rw [Graph.enter, Act.returns_bind] at returned
    obtain ⟨ports, _, created, returned⟩ := returned
    obtain ⟨-, rfl⟩ := (Act.returns_pure ..).1 returned
    exact staffed.declare steady passed created
  | plug source target line =>
    rw [Blueprint.enter, ok_mapError_iff] at passed
    obtain ⟨-, rfl⟩ := Blueprint.plug_eq_ok_iff.1 passed
    exact staffed.stay fun _ _ => Graph.chain_stays chain

theorem Graph.Staffed.enterAll {statements : List Statement} {b' : Blueprint} {g' : Graph α}
    (staffed : g.Staffed b) (steady : g.backend.Steady)
    (passed : b.enterAll g.library rewiring statements = .ok b')
    (returned : (Graph.enterAll statements).Returns g () g') :
    g'.Staffed b' ∧ g'.backend.Steady := by
  induction statements generalizing b g with
  | nil =>
    cases passed
    cases returned
    exact ⟨staffed, steady⟩
  | cons statement rest ih =>
    rw [Blueprint.enterAll, List.foldlM_cons] at passed
    obtain ⟨b₁, entered, passed⟩ := ok_bind_iff.1 passed
    rw [ok_mapError_iff] at entered
    rw [Graph.enterAll, Act.returns_bind] at returned
    obtain ⟨_, g₁, first, returned⟩ := returned
    obtain ⟨staffed, library, backend⟩ := staffed.enter steady entered first
    refine ih staffed (backend ▸ steady) ?_ returned
    rw [library]
    exact passed

/-- The cues of a program that has been built are served by what is in the graph. -/
theorem Show.provided_of_build {program : Program α} {config : Config α} {backend : Backend α}
    (steady : backend.Steady) {report : Report} {s : Show α}
    (built : build.Returns (ofProgram program config backend) report s) :
    ∃ b, s.graph.Staffed b ∧ s.graph.backend.Steady ∧ ∀ cue ∈ program.cues, b.ServesCue cue := by
  obtain ⟨checked, created⟩ := built_of_build built
  obtain ⟨b, entered, checked⟩ := ok_bind_iff.1 checked
  obtain ⟨clocks, cues, -⟩ := ok_bind_iff.1 checked
  have start : (Graph.start program.templates config.rewiring backend).Staffed .empty := by
    intro name t declared
    cases declared
  obtain ⟨staffed, steady⟩ := start.enterAll steady entered created
  exact ⟨b, staffed, steady, Blueprint.serves_of_checkCues cues⟩

end Build

end ShowControl
