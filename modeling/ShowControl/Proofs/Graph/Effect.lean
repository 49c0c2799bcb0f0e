import Mathlib.Logic.Relation
import ShowControl.Proofs.Graph.Journal
import ShowControl.Proofs.Graph.Wiring

/-! What an operation does to the graph, one command to the backend after the other.

The backend may break down at any command, so an operation is followed up to wherever it stops. -/

set_option autoImplicit false
namespace ShowControl

open Relation (ReflTransGen)

variable {α β : Type}

inductive Call.Changes (h : Handle) : Call α → (Node α → Node α) → Prop where
  | transport (verb : Verb) (arguments : List α) :
    Changes h (.transport h verb arguments) fun node => node.command verb arguments
  | property (element property : String) (v : PropertyValue) :
    Changes h (.setProperty h element property v) fun node => node.setProperty element property v
  | show : Changes h (.showWindow h) Node.showWindow
  | move (x y : Int) : Changes h (.moveWindow h x y) fun node => node.moveWindow x y

structure Node.Same (node node' : Node α) : Prop where
  name : node'.name = node.name
  template : node'.template = node.template
  arguments : node'.arguments = node.arguments
  handle : node'.handle = node.handle
  settings : node'.settings = node.settings
  windowed : node'.window.isSome = node.window.isSome

theorem Node.Same.refl (node : Node α) : node.Same node := ⟨rfl, rfl, rfl, rfl, rfl, rfl⟩

theorem Node.Same.trans {a b c : Node α} (first : a.Same b) (second : b.Same c) : a.Same c :=
  ⟨second.name.trans first.name, second.template.trans first.template,
    second.arguments.trans first.arguments, second.handle.trans first.handle,
    second.settings.trans first.settings, second.windowed.trans first.windowed⟩

theorem Call.Changes.same {h : Handle} {call : Call α} {change : Node α → Node α}
    (changes : call.Changes h change) (node : Node α) : node.Same (change node) := by
  cases changes with
  | transport verb arguments =>
    cases verb with
    | start | pause | stop | seek => exact ⟨rfl, rfl, rfl, rfl, rfl, rfl⟩
  | property => exact ⟨rfl, rfl, rfl, rfl, rfl, rfl⟩
  | «show» | move => exact ⟨rfl, rfl, rfl, rfl, rfl, Option.isSome_map⟩

theorem Node.same_dress (node : Node α) (entries : List (String × String × PropertyValue)) :
    node.Same (node.dress entries) := by
  induction entries generalizing node with
  | nil => exact .refl node
  | cons entry rest ih =>
    have set : node.Same (node.setProperty entry.1 entry.2.1 entry.2.2) :=
      ⟨rfl, rfl, rfl, rfl, rfl, rfl⟩
    exact set.trans (ih _)

theorem Call.Changes.addressee {h : Handle} {call : Call α} {change : Node α → Node α}
    (changes : call.Changes h change) : call.addressee? = some h := by
  cases changes <;> rfl

namespace Graph

def replug (g : Graph α) (plugs : Table PortRef PortRef) : Graph α := { g with plugs }

/-- One command to the backend, and what changes with it. A node changes only if it is the one that
the operation is for. -/
inductive Effect (who : Option String) (g : Graph α) : Graph α → Prop where
  | fails (call : Call α) (failed : (g.backend.reply g.journal call).returned = false) :
    Effect who g (g.told call)
  | changes {name : String} {node : Node α} {call : Call α} {change : Node α → Node α}
    (own : who = some name) (live : g.nodes.get? name = some node)
    (changes : call.Changes node.handle change)
    (returned : (g.backend.reply g.journal call).returned = true) :
    Effect who g ((g.told call).modifyNode name change)
  | creates {name template : String} {arguments : List String} {x : Expansion} {node : Node α}
    (own : who = some name) (free : g.nodes.get? name = none)
    (expanded : g.library.expand template arguments = .ok x)
    (made : Node.ofExpansion name (g.backend.handleFor g.journal name) x = .ok node)
    (returned : (g.backend.reply g.journal
      (.create name template x.template.layout.description)).returned = true) :
    Effect who g { g.told (.create name template x.template.layout.description) with
      nodes := g.nodes.insert name node
      handles := g.handles.insert (g.backend.handleFor g.journal name) name }
  | spoils (name template description : String) :
    Effect who g (g.told (.create name template description))
  | connects {source target : PortRef} (joinable : Joinable (g.port? source) (g.port? target))
    (free : g.plugs.get? target = none)
    (done : g.backend.reply g.journal (.connect (g.socket source) (g.socket target)) = .done) :
    Effect who g ((g.told (.connect (g.socket source) (g.socket target))).replug
      (g.plugs.insert target source))
  | refuses {source target : PortRef}
    (refused : g.backend.reply g.journal (.connect (g.socket source) (g.socket target)) =
      .refused) :
    Effect who g (g.told (.connect (g.socket source) (g.socket target)))
  | disconnects {source target : PortRef} (plugged : g.plugs.get? target = some source) :
    Effect who g ((g.told (.disconnect (g.socket source) (g.socket target))).replug
      (g.plugs.erase target))

inductive Commanded (g : Graph α) (name : String) : Except Fault β × Graph α → Prop where
  | rejected (fault : Fault) : Commanded g name (.error fault, g)
  | idle (b : β) : Commanded g name (.ok b, g)
  | failed (fault : Fault) (call : Call α)
    (failed : (g.backend.reply g.journal call).returned = false) :
    Commanded g name (.error fault, g.told call)
  | obeyed (b : β) {node : Node α} {call : Call α} {change : Node α → Node α}
    (live : g.nodes.get? name = some node) (changes : call.Changes node.handle change)
    (returned : (g.backend.reply g.journal call).returned = true) :
    Commanded g name (.ok b, (g.told call).modifyNode name change)

/-- What each command preserves holds however far an operation comes. -/
theorem chain_preserves {Inv : Graph α → Prop}
    (preserved : ∀ who g g', Effect who g g' → Inv g → Inv g') {who : Option String}
    {g g' : Graph α} (chain : ReflTransGen (Effect who) g g') (held : Inv g) : Inv g' := by
  induction chain with
  | refl => exact held
  | tail _ last ih => exact preserved who _ _ last ih

theorem eq_of_ofExpansion {name : String} {handle : Handle} {x : Expansion} {node : Node α}
    (made : Node.ofExpansion name handle x = .ok node) :
    ∃ window : Option Window,
      node = ⟨name, x.template, x.arguments, handle, .empty, x.node, .stopped, window, none, 0⟩ ∧
        window.isSome = x.template.hasWindow ∧
        ∀ w, window = some w → Window.ofSettings x.node = .ok w := by
  rw [Node.ofExpansion] at made
  split at made
  · next windowed =>
    obtain ⟨window, measured, made⟩ := ok_bind_iff.1 made
    cases made
    cases described : Window.ofSettings x.node with
    | error host =>
      rw [described] at measured
      cases measured
    | ok w =>
      rw [described] at measured
      cases measured
      exact ⟨some w, rfl, windowed.symm, fun _ same => congrArg _ (Option.some.inj same)⟩
  · next bare =>
    cases made
    exact ⟨none, rfl, (Bool.eq_false_iff.2 bare).symm, fun _ same => by cases same⟩

theorem live_modifyNode {g : Graph α} {name other : String} {change : Node α → Node α}
    (same : ∀ node : Node α, node.Same (change node)) {node : Node α}
    (live : (g.modifyNode name change).nodes.get? other = some node) :
    ∃ earlier, g.nodes.get? other = some earlier ∧ earlier.Same node := by
  rw [Graph.modifyNode, Table.get?_modify] at live
  split at live
  · obtain ⟨earlier, here, rfl⟩ := Option.map_eq_some_iff.1 live
    exact ⟨earlier, here, same earlier⟩
  · exact ⟨node, live, .refl node⟩

theorem stays_modifyNode {g : Graph α} (name : String) {other : String} {change : Node α → Node α}
    (same : ∀ node : Node α, node.Same (change node)) {node : Node α}
    (live : g.nodes.get? other = some node) :
    ∃ later, (g.modifyNode name change).nodes.get? other = some later ∧ node.Same later := by
  rw [Graph.modifyNode, Table.get?_modify, live]
  split
  · exact ⟨change node, rfl, same node⟩
  · exact ⟨node, rfl, .refl node⟩

namespace Effect

variable {who : Option String} {g g' : Graph α}

theorem library (effect : Effect who g g') : g'.library = g.library := by
  cases effect <;> rfl

theorem backend (effect : Effect who g g') : g'.backend = g.backend := by
  cases effect <;> rfl

theorem frame (effect : Effect who g g') {name : String} (other : who ≠ some name) :
    g'.nodes.get? name = g.nodes.get? name := by
  cases effect with
  | changes own live changes returned =>
    subst own
    exact (Table.get?_modify ..).trans (if_neg fun same => other (congrArg some same.symm))
  | creates own free expanded made returned =>
    subst own
    exact (Table.get?_insert ..).trans (if_neg fun same => other (congrArg some same.symm))
  | fails | spoils | connects | refuses | disconnects => rfl

theorem stays (effect : Effect who g g') {name : String} {node : Node α}
    (live : g.nodes.get? name = some node) :
    ∃ later, g'.nodes.get? name = some later ∧ node.Same later := by
  cases effect with
  | changes own here changes returned => exact stays_modifyNode _ changes.same live
  | creates own free expanded made returned =>
    refine ⟨node, (Table.get?_insert ..).trans ?_, .refl node⟩
    rw [if_neg ?_]
    · exact live
    · rintro rfl
      rw [free] at live
      cases live
  | fails | spoils | connects | refuses | disconnects => exact ⟨node, live, .refl node⟩

end Effect

theorem chain_frame {who : Option String} {g g' : Graph α} (chain : ReflTransGen (Effect who) g g')
    {name : String} (other : who ≠ some name) : g'.nodes.get? name = g.nodes.get? name := by
  induction chain with
  | refl => rfl
  | tail _ last ih => exact (last.frame other).trans ih

theorem chain_fixed {who : Option String} {g g' : Graph α} (chain : ReflTransGen (Effect who) g g') :
    g'.library = g.library ∧ g'.backend = g.backend := by
  induction chain with
  | refl => exact ⟨rfl, rfl⟩
  | tail _ last ih => exact ⟨last.library.trans ih.1, last.backend.trans ih.2⟩

theorem chain_stays {who : Option String} {g g' : Graph α} (chain : ReflTransGen (Effect who) g g')
    {name : String} {node : Node α} (live : g.nodes.get? name = some node) :
    ∃ later, g'.nodes.get? name = some later ∧ node.Same later := by
  induction chain with
  | refl => exact ⟨node, live, .refl node⟩
  | tail _ last ih =>
    obtain ⟨between, live, same⟩ := ih
    obtain ⟨later, live, same'⟩ := last.stays live
    exact ⟨later, live, same.trans same'⟩

/-- Each node has a handle of its own, by which the graph finds it. -/
structure Named (g : Graph α) : Prop where
  distinct : g.backend.Distinct
  gave (name : String) (node : Node α) : g.nodes.get? name = some node →
    g.backend.Gave g.journal node.handle name
  found (name : String) (node : Node α) : g.nodes.get? name = some node →
    g.handles.get? node.handle = some name

theorem named_start {library : Library} {rewiring : Rewiring} {backend : Backend α}
    (distinct : backend.Distinct) : Named (start library rewiring backend) := by
  refine ⟨distinct, fun name node live => ?_, fun name node live => ?_⟩
  · cases live
  · cases live

theorem Named.told {g : Graph α} (named : Named g) (call : Call α) : Named (g.told call) :=
  ⟨named.distinct, fun name node live => (named.gave name node live).append _, named.found⟩

theorem Named.modifyNode {g : Graph α} (named : Named g) (name : String) {change : Node α → Node α}
    (same : ∀ node : Node α, node.Same (change node)) : Named (g.modifyNode name change) := by
  refine ⟨named.distinct, fun other node live => ?_, fun other node live => ?_⟩
  · obtain ⟨earlier, here, same⟩ := live_modifyNode same live
    rw [same.handle]
    exact named.gave other earlier here
  · obtain ⟨earlier, here, same⟩ := live_modifyNode same live
    rw [same.handle]
    exact named.found other earlier here

theorem Named.unique {g : Graph α} (named : Named g) {name name' : String} {node node' : Node α}
    (live : g.nodes.get? name = some node) (live' : g.nodes.get? name' = some node')
    (same : node.handle = node'.handle) : name = name' := by
  have found := named.found name node live
  rw [same, named.found name' node' live'] at found
  exact (Option.some.inj found).symm

theorem Named.ne_handleFor {g : Graph α} (named : Named g) {name other : String} {node : Node α}
    (free : g.nodes.get? name = none) (live : g.nodes.get? other = some node) :
    node.handle ≠ g.backend.handleFor g.journal name := by
  intro same
  have given := named.gave other node live
  obtain rfl := named.distinct g.journal node.handle other name given same.symm
  rw [free] at live
  cases live

theorem Named.effect {who : Option String} {g g' : Graph α} (effect : Effect who g g')
    (named : Named g) : Named g' := by
  cases effect with
  | fails | spoils | refuses => exact named.told _
  | connects | disconnects => exact ⟨named.distinct, (named.told _).gave, named.found⟩
  | changes own live changes returned => exact (named.told _).modifyNode _ changes.same
  | @creates name template arguments x node own free expanded made returned =>
    obtain ⟨window, rfl, -, -⟩ := eq_of_ofExpansion made
    refine ⟨named.distinct, fun other node live => ?_, fun other node live => ?_⟩
    · rw [Table.get?_insert] at live
      split at live
      · cases live
        subst other
        exact ⟨g.journal, template, _, _, [], rfl, returned, rfl⟩
      · exact (named.gave other node live).append _
    · rw [Table.get?_insert] at live ⊢
      split at live
      · cases live
        rw [if_pos rfl]
        congr 1
        exact Eq.symm ‹other = name›
      -- The handle of an older node was not given again.
      · rw [if_neg (named.ne_handleFor free live)]
        exact named.found other node live

def Keyed (g : Graph α) : Prop :=
  ∀ name node, g.nodes.get? name = some node → node.name = name

theorem Keyed.modifyNode {g : Graph α} (keyed : g.Keyed) (name : String)
    {change : Node α → Node α} (same : ∀ node : Node α, node.Same (change node)) :
    (g.modifyNode name change).Keyed := by
  intro other node live
  obtain ⟨earlier, here, same⟩ := live_modifyNode same live
  exact same.name.trans (keyed other earlier here)

theorem Keyed.effect {who : Option String} {g g' : Graph α} (effect : Effect who g g')
    (keyed : g.Keyed) : g'.Keyed := by
  cases effect with
  | fails | spoils | connects | refuses | disconnects => exact keyed
  | changes own live changes returned => exact Keyed.modifyNode (g := g.told _) keyed _ changes.same
  | creates own free expanded made returned =>
    obtain ⟨window, rfl, -, -⟩ := eq_of_ofExpansion made
    intro other node live
    rw [Table.get?_insert] at live
    split at live
    · next same =>
      cases live
      exact same.symm
    · exact keyed other node live

theorem Keyed.names {g : Graph α} (keyed : g.Keyed) :
    g.nodes.values.map Node.name = g.nodes.keys := by
  rw [Table.values, Table.keys, List.map_map]
  refine List.map_congr_left fun entry member => ?_
  exact keyed entry.1 entry.2 (Table.mem_toList_iff.1 member)

theorem Commanded.chain {g : Graph α} {name : String} {outcome : Except Fault β × Graph α}
    (commanded : Commanded g name outcome) :
    ReflTransGen (Effect (some name)) g outcome.2 := by
  cases commanded with
  | rejected | idle => exact .refl
  | failed _ call failed => exact .single (.fails call failed)
  | obeyed _ live changes returned => exact .single (.changes rfl live changes returned)

variable [Number α]

/-- The common end of the commands to nodes: the backend is told, then the node changes. -/
theorem commanded_issue {g : Graph α} {name : String} {node : Node α} {call : Call α}
    {change : Node α → Node α} (live : g.nodes.get? name = some node)
    (changes : call.Changes node.handle change) (rest : Act (Graph α) β)
    (ends : ∀ g', ∃ b, rest.eval g' = (.ok b, g')) :
    Commanded g name ((do
      let _ ← issue call
      modify fun g => g.modifyNode name change
      rest : Act (Graph α) β).eval g) := by
  obtain ⟨b, ended⟩ := ends ((g.told call).modifyNode name change)
  simp only [Act.eval_bind, eval_issue_eq]
  cases reply : g.backend.reply g.journal call with
  | done | refused =>
    simp only [Reply.answer, Act.eval_modify, ended]
    exact .obeyed b live changes (by rw [reply]; rfl)
  | failed text => exact .failed _ call (by rw [reply]; rfl)

omit [Number α] in
theorem commanded_check {γ : Type} {g : Graph α} {name : String} {x : Except Fault γ}
    {f : γ → Act (Graph α) β} (passes : ∀ c, x = .ok c → Commanded g name ((f c).eval g)) :
    Commanded g name ((Act.ofExcept x >>= f).eval g) := by
  rw [Act.eval_bind, Act.eval_ofExcept]
  cases x with
  | error fault => exact .rejected fault
  | ok c => exact passes c rfl

omit [Number α] in
theorem node_eq_ok_iff {g : Graph α} {name : String} {node : Node α} :
    g.node name = .ok node ↔ g.nodes.get? name = some node := by
  rw [Graph.node]
  cases g.nodes.get? name <;> simp

omit [Number α] in
theorem node_of_windowed {g : Graph α} {name : String} {found : Node α × Window}
    (windowed : g.windowed name = .ok found) : g.nodes.get? name = some found.1 := by
  obtain ⟨node, looked, windowed⟩ := ok_bind_iff.1 windowed
  split at windowed
  · cases windowed
    exact node_eq_ok_iff.1 looked
  · cases windowed

omit [Number α] in
theorem Commanded.mute {g : Graph α} {name : String} {x : Act (Graph α) β}
    (commanded : Commanded g name (x.eval g)) :
    Commanded g name ((do let _ ← x : Act (Graph α) Unit).eval g) := by
  rw [Act.eval_bind]
  generalize x.eval g = outcome at commanded
  cases commanded with
  | rejected fault => exact .rejected fault
  | idle b => exact .idle ()
  | failed fault call failed => exact .failed fault call failed
  | obeyed b live changes returned => exact .obeyed () live changes returned

theorem commanded_setTransport (g : Graph α) (name : String) (verb : Verb) (arguments : List α) :
    Commanded g name ((setTransport name verb arguments).eval g) := by
  rw [setTransport, Act.eval_bind, Act.eval_get]
  refine commanded_check fun node looked => ?_
  exact commanded_issue (node_eq_ok_iff.1 looked) (.transport verb arguments) _ fun _ => ⟨_, rfl⟩

theorem keyed_setTransport {g : Graph α} (keyed : g.Keyed) (name : String) (verb : Verb)
    (arguments : List α) : ((setTransport name verb arguments).eval g).2.Keyed :=
  chain_preserves (fun _ _ _ effect => Keyed.effect effect)
    (commanded_setTransport g name verb arguments).chain keyed

theorem commanded_setProperty (g : Graph α) (name element property typeName raw : String) :
    Commanded g name ((setProperty name element property typeName raw).eval g) := by
  rw [setProperty, Act.eval_bind, Act.eval_get]
  refine commanded_check fun node looked => ?_
  refine commanded_check fun _ _ => commanded_check fun v _ => ?_
  exact commanded_issue (node_eq_ok_iff.1 looked) (.property element property v) _ fun _ => ⟨_, rfl⟩

theorem commanded_showWindow (g : Graph α) (name : String) :
    Commanded g name ((showWindow name).eval g) := by
  rw [showWindow, Act.eval_bind, Act.eval_get]
  refine commanded_check fun found windowed => ?_
  exact commanded_issue (node_of_windowed windowed) .show _ fun _ => ⟨_, rfl⟩

theorem commanded_moveWindow (g : Graph α) (name : String) (x y : Int) :
    Commanded g name ((moveWindow name x y).eval g) := by
  rw [moveWindow, Act.eval_bind, Act.eval_get]
  refine commanded_check fun found windowed => ?_
  show Commanded g name ((if found.2.x = x ∧ found.2.y = y then _ else _ : Act _ _).eval g)
  split
  · exact .idle ()
  · exact commanded_issue (node_of_windowed windowed) (.move x y) (pure ()) fun _ => ⟨_, rfl⟩

/-! Plugs -/

section Plug

variable {who : Option String}

theorem chain_connect {g : Graph α} {source target : PortRef}
    (joinable : Joinable (g.port? source) (g.port? target)) (free : g.plugs.get? target = none) :
    ReflTransGen (Effect who) g ((connect source target).eval g).2 := by
  simp only [connect, Act.eval_bind, Act.eval_get, eval_issue_eq]
  cases reply : g.backend.reply g.journal (.connect (g.socket source) (g.socket target)) with
  | done => exact .single (.connects joinable free reply)
  | refused => exact .single (.refuses reply)
  | failed text => exact .single (.fails _ (by rw [reply]; rfl))

theorem chain_plug (g : Graph α) (source target : PortRef) :
    ReflTransGen (Effect who) g ((plug source target).eval g).2 := by
  simp only [plug, Act.eval_bind, Act.eval_get, Act.eval_ofExcept]
  cases looked : g.ends source target with
  | error fault => exact .refl
  | ok found =>
    have joinable := (ends_eq_ok_iff g source target).1 ⟨found, looked⟩
    dsimp only
    split
    · next plugged =>
      rw [Act.state_bind _ fun _ _ => rfl]
      exact chain_connect joinable plugged
    · next previous plugged =>
      split
      · exact .refl
      split
      · exact .refl
      rw [Act.eval_bind, eval_issue_eq]
      cases reply : g.backend.reply g.journal
          (.disconnect (g.socket previous) (g.socket target)) with
      | failed text => exact .single (.fails _ (by rw [reply]; rfl))
      | done | refused =>
        refine .head (.disconnects plugged) ?_
        dsimp only [Reply.answer]
        rw [Act.eval_bind, Act.eval_modify]
        dsimp only
        rw [Act.state_bind _ fun _ _ => rfl]
        -- The input is free by the time the new source is connected.
        exact chain_connect joinable ((Table.get?_erase g.plugs target target).trans (if_pos rfl))

theorem chain_unplug (g : Graph α) (target : PortRef) :
    ReflTransGen (Effect who) g ((unplug target).eval g).2 := by
  simp only [unplug, Act.eval_bind, Act.eval_get, Act.eval_ofExcept]
  cases g.plugNode target.node with
  | error fault => exact .refl
  | ok t =>
    dsimp only
    cases portOf t target.port .input with
    | error fault => exact .refl
    | ok p =>
      dsimp only
      split
      · exact .refl
      · next previous plugged =>
        have removed : Effect who g _ := .disconnects plugged
        rw [Act.eval_bind, Act.eval_modify]
        dsimp only
        rw [Act.state_bind _ fun _ _ => rfl, eval_issue_eq]
        exact .single removed

end Plug

/-! Nodes -/

theorem chain_assignAll {name : String} {handle : Handle}
    (entries : List (String × String × PropertyValue)) {g : Graph α} {node : Node α}
    (live : g.nodes.get? name = some node) (own : node.handle = handle) :
    ReflTransGen (Effect (some name)) g ((assignAll name handle entries).eval g).2 := by
  induction entries generalizing g node with
  | nil => exact .refl
  | cons entry rest ih =>
    obtain ⟨element, property, v⟩ := entry
    subst own
    simp only [assignAll, assignProperty, Act.eval_bind, eval_issue_eq]
    cases reply : g.backend.reply g.journal (.setProperty node.handle element property v) with
    | failed text => exact .single (.fails _ (by rw [reply]; rfl))
    | done | refused =>
      refine .head (.changes rfl live (.property element property v) (by rw [reply]; rfl)) ?_
      have stays : ((g.told (.setProperty node.handle element property v)).modifyNode name
          fun node => node.setProperty element property v).nodes.get? name =
            some (node.setProperty element property v) := by
        simp [modifyNode, told, live]
      exact ih stays rfl

/-- How far the creation of a node comes: not to the backend, not past it, or to the properties of a
node that is in the graph by then. -/
theorem instantiate_cases (g : Graph α) (templateName name : String) (arguments : List String) :
    let after := ((instantiate templateName name arguments).eval g).2
    after = g ∨ g.nodes.get? name = none ∧
      ∃ x, g.library.expand templateName arguments = .ok x ∧
        let call := .create name templateName x.template.layout.description
        let handle := g.backend.handleFor g.journal name
        after = g.told call ∨ ∃ node, Node.ofExpansion name handle x = .ok node ∧
          (g.backend.reply g.journal call).returned = true ∧
          after = ((assignAll name handle x.elements.entries).eval { g.told call with
            nodes := g.nodes.insert name node
            handles := g.handles.insert handle name }).2 := by
  intro after
  simp only [after, instantiate, Act.eval_bind, Act.eval_get]
  by_cases taken : g.nodes.contains name = true
  · rw [if_pos taken]
    exact .inl rfl
  rw [if_neg taken, Act.eval_bind, Act.eval_ofExcept]
  cases expanded : g.library.expand templateName arguments with
  | error fault => exact .inl rfl
  | ok x =>
    refine .inr ⟨Option.not_isSome_iff_eq_none.1 taken, x, rfl, ?_⟩
    dsimp only
    rw [Act.eval_bind, eval_issue_eq]
    cases g.backend.reply g.journal (.create name templateName x.template.layout.description) with
    | failed text => exact .inl rfl
    | done | refused =>
      dsimp only [Reply.answer]
      rw [Act.eval_bind, Act.eval_ofExcept]
      cases Node.ofExpansion (α := α) name (g.backend.handleFor g.journal name) x with
      | error host => exact .inl rfl
      | ok node =>
        refine .inr ⟨node, rfl, rfl, ?_⟩
        rw [mapError_ok]
        dsimp only
        rw [Act.eval_bind, Act.eval_modify]
        dsimp only
        rw [Act.state_bind _ fun _ _ => rfl]
        rfl

theorem chain_instantiate (g : Graph α) (templateName name : String) (arguments : List String) :
    ReflTransGen (Effect (some name)) g ((instantiate templateName name arguments).eval g).2 := by
  obtain same | ⟨free, x, expanded, told | ⟨node, made, returned, entered⟩⟩ :=
    instantiate_cases g templateName name arguments
  · rw [same]
  · rw [told]
    exact .single (.spoils _ _ _)
  · obtain ⟨window, same, -, -⟩ := eq_of_ofExpansion made
    have own : node.handle = g.backend.handleFor g.journal name := by rw [same]
    rw [entered]
    -- The node is in the graph before its properties are set, each by a command of its own.
    refine .head (.creates rfl free expanded made returned) ?_
    exact chain_assignAll x.elements.entries (Table.get?_insert_self ..) own

/-! Operations -/

inductive Operation (α : Type) where
  | instantiate (template name : String) (arguments : List String)
  | plug (source target : PortRef)
  | unplug (target : PortRef)
  | transport (name verb : String) (arguments : List α)
  | property (name element property type raw : String)
  | showWindow (name : String)
  | moveWindow (name : String) (x y : Int)

namespace Operation

def act : Operation α → Act (Graph α) Unit
  | instantiate template name arguments => do
    let _ ← Graph.instantiate template name arguments
  | plug source target => do
    let _ ← Graph.plug source target
  | unplug target => do
    let _ ← Graph.unplug target
  | transport name verb arguments => do
    let verb ← Act.ofExcept (Verb.find verb)
    let _ ← Graph.setTransport name verb arguments
  | property name element key type raw => do
    let _ ← Graph.setProperty name element key type raw
  | showWindow name => Graph.showWindow name
  | moveWindow name x y => Graph.moveWindow name x y

def commands? : Operation α → Option String
  | transport name .. | property name .. | showWindow name | moveWindow name .. => some name
  | instantiate .. | plug .. | unplug _ => none

/-- The node that an operation is for. A plug is for none. -/
def target? : Operation α → Option String
  | instantiate _ name _ => some name
  | other => other.commands?

end Operation

theorem commanded_act {operation : Operation α} {name : String}
    (commands : operation.commands? = some name) (g : Graph α) :
    Commanded g name (operation.act.eval g) := by
  cases operation with
  | instantiate | plug | unplug => cases commands
  | transport _ verb arguments =>
    cases commands
    exact commanded_check fun verb _ => (commanded_setTransport g name verb arguments).mute
  | property _ element key type raw =>
    cases commands
    exact (commanded_setProperty g name element key type raw).mute
  | showWindow =>
    cases commands
    exact commanded_showWindow g name
  | moveWindow _ x y =>
    cases commands
    exact commanded_moveWindow g name x y

theorem chain_act (operation : Operation α) (g : Graph α) :
    ReflTransGen (Effect operation.target?) g (operation.act.eval g).2 := by
  cases operation with
  | instantiate template name arguments =>
    rw [Operation.act, Act.state_bind _ fun _ _ => rfl]
    exact chain_instantiate g template name arguments
  | plug source target =>
    rw [Operation.act, Act.state_bind _ fun _ _ => rfl]
    exact chain_plug g source target
  | unplug target =>
    rw [Operation.act, Act.state_bind _ fun _ _ => rfl]
    exact chain_unplug g target
  | transport | property | showWindow | moveWindow => exact (commanded_act rfl g).chain

/-- The graph after operations, whether they return or not. -/
def after (g : Graph α) (operations : List (Operation α)) : Graph α :=
  operations.foldl (fun g operation => (operation.act.eval g).2) g

theorem after_preserves {Inv : Graph α → Prop} {g : Graph α} (operations : List (Operation α))
    (preserved : ∀ who g g', Effect who g g' → Inv g → Inv g') (held : Inv g) :
    Inv (g.after operations) := by
  induction operations generalizing g with
  | nil => exact held
  | cons operation rest ih => exact ih (chain_preserves preserved (chain_act operation g) held)

theorem keyed_after (library : Library) (rewiring : Rewiring) (backend : Backend α)
    (operations : List (Operation α)) : ((start library rewiring backend).after operations).Keyed :=
  after_preserves operations (fun _ _ _ effect => Keyed.effect effect) fun _ _ live => nomatch live

theorem backend_after (g : Graph α) (operations : List (Operation α)) :
    (g.after operations).backend = g.backend :=
  after_preserves operations (fun _ _ _ effect same => effect.backend.trans same) rfl

end Graph

end ShowControl
