import ShowControl.Graph.Creation
import ShowControl.Graph.Wiring
import ShowControl.Proofs.Graph.Command
import ShowControl.Script.Program

/-! Creating and joining nodes: what statements come to in the live graph. -/

set_option autoImplicit false
namespace ShowControl

variable {α : Type}

/-- A backend that never breaks down and accepts every connection. -/
structure Backend.Connects (b : Backend α) : Prop where
  steady : b.Steady
  accepts : ∀ journal source target, b.reply journal (.connect source target) = .done

theorem Backend.connects_obliging : (Backend.obliging : Backend α).Connects :=
  ⟨Backend.steady_obliging, fun _ _ _ => rfl⟩

/-- An output and an input that go together. -/
def Joinable (source target : Option Port) : Prop :=
  ∃ a b, source = some a ∧ target = some b ∧
    a.direction = .output ∧ b.direction = .input ∧ a.compatible b = true

/-- Whether an input with this source may be given another one. -/
def Rewiring.Allows (rewiring : Rewiring) (previous : Option PortRef) (source : PortRef) : Prop :=
  ∀ other, previous = some other → other ≠ source → rewiring ≠ .refuse

theorem Rewiring.allows_none (rewiring : Rewiring) (source : PortRef) :
    rewiring.Allows none source := nofun

theorem Rewiring.allows_self (rewiring : Rewiring) (source : PortRef) :
    rewiring.Allows (some source) source :=
  fun _ same differs => absurd (Option.some.inj same).symm differs

theorem Rewiring.not_allows {previous source : PortRef} (differs : previous ≠ source) :
    ¬Rewiring.refuse.Allows (some previous) source := fun allows => allows previous rfl differs rfl

theorem Rewiring.allows_of_ne {rewiring : Rewiring} (free : rewiring ≠ .refuse)
    (previous : Option PortRef) (source : PortRef) : rewiring.Allows previous source :=
  fun _ _ _ => free

/-! Faults of the show itself -/

def Fault.Own (fault : Fault) : Prop := ∀ host, fault ≠ .host host

theorem Fault.own_ofDesk (cause : DeskCause) : (Fault.ofDesk cause).Own := nofun

/-- Nothing from outside the show makes it fail. -/
def Owned {β : Type} (x : Except Fault β) : Prop := ∀ fault, x = .error fault → fault.Own

section Owned
variable {β γ : Type}

theorem owned_ok (b : β) : Owned (.ok b) := by
  intro fault failed
  cases failed

theorem owned_ofDesk (cause : DeskCause) : Owned (.error (.ofDesk cause) : Except Fault β) := by
  rintro fault ⟨⟩
  exact nofun

theorem owned_ofScript (cause : ScriptCause) :
    Owned (.error (.ofScript cause) : Except Fault β) := by
  rintro fault ⟨⟩
  exact nofun

theorem owned_bind {x : Except Fault β} {f : β → Except Fault γ} (first : Owned x)
    (second : ∀ b, Owned (f b)) : Owned (x >>= f) := by
  cases x with
  | error fault => exact fun other failed => first other (by cases failed; rfl)
  | ok b => exact second b

theorem owned_foldlM {f : β → γ → Except Fault β} (step : ∀ b c, Owned (f b c)) (l : List γ)
    (b : β) : Owned (l.foldlM f b) := by
  induction l generalizing b with
  | nil => exact owned_ok b
  | cons c rest ih =>
    rw [List.foldlM_cons]
    exact owned_bind (step b c) ih

end Owned

theorem Expansion.owned_add (x : Expansion) (b : Binding) : Owned (x.add b) := by
  rw [Expansion.add]
  split
  · exact owned_ofDesk _
  · split <;> exact owned_ok _

theorem Template.owned_expand (t : Template) (arguments : List String) :
    Owned (t.expand arguments) := by
  refine owned_bind ?_ fun bound => owned_foldlM Expansion.owned_add _ _
  rw [bindArguments]
  split
  · exact owned_ok _
  · exact owned_ofScript _

theorem Library.owned_expand (library : Library) (templateName : String) (arguments : List String) :
    Owned (library.expand templateName arguments) := by
  refine owned_bind ?_ fun t => t.owned_expand arguments
  rw [find]
  split
  · exact owned_ok _
  · exact owned_ofDesk _

/-- What a new node is made of. -/
def Library.expandFresh (library : Library) (taken : Bool) (templateName name : String)
    (arguments : List String) : Except Fault Expansion :=
  if taken then .error (.ofDesk (.duplicateNode name)) else library.expand templateName arguments

theorem Library.expandFresh_eq_ok_iff {library : Library} {taken : Bool}
    {templateName name : String} {arguments : List String} {x : Expansion} :
    library.expandFresh taken templateName name arguments = .ok x ↔
      taken = false ∧ library.expand templateName arguments = .ok x := by
  rw [expandFresh]
  cases taken <;> simp

theorem Library.owned_expandFresh (library : Library) (taken : Bool) (templateName name : String)
    (arguments : List String) : Owned (library.expandFresh taken templateName name arguments) := by
  rw [expandFresh]
  split
  · exact owned_ofDesk _
  · exact library.owned_expand templateName arguments

/-- The node after properties have been set one after the other. -/
def Node.dress (node : Node α) (entries : List (String × String × PropertyValue)) : Node α :=
  entries.foldl (fun node e => node.setProperty e.1 e.2.1 e.2.2) node

/-! Plugs -/

namespace Graph

def template? (g : Graph α) (name : String) : Option Template :=
  (g.nodes.get? name).map Node.template

def port? (g : Graph α) (r : PortRef) : Option Port :=
  (g.template? r.node).bind fun t => t.ports.get? r.port

theorem plugNode_eq_ok_iff {g : Graph α} {name : String} {node : Node α} :
    g.plugNode name = .ok node ↔ g.nodes.get? name = some node := by
  rw [plugNode]
  cases g.nodes.get? name <;> simp

theorem portOf_eq_ok_iff {node : Node α} {port : String} {wanted : Direction} {p : Port} :
    portOf node port wanted = .ok p ↔
      node.template.ports.get? port = some p ∧ p.direction = wanted := by
  rw [portOf, Node.ports]
  cases node.template.ports.get? port with
  | none => simp
  | some q =>
    by_cases right : q.direction = wanted
    · simp only [if_pos right, Except.ok.injEq, Option.some.injEq]
      exact ⟨fun same => ⟨same, same ▸ right⟩, And.left⟩
    · simp only [if_neg right, Option.some.injEq, reduceCtorEq, false_iff]
      rintro ⟨rfl, direction⟩
      exact right direction

theorem checkMedia_eq_ok_iff {source target : PortRef} {a b : Port} {u : Unit} :
    checkMedia source target a b = .ok u ↔ a.compatible b = true := by
  rw [checkMedia, Port.compatible]
  cases a.medium <;> cases b.medium <;> simp

theorem ends_eq_ok_iff (g : Graph α) (source target : PortRef) :
    (∃ found, g.ends source target = .ok found) ↔
      Joinable (g.port? source) (g.port? target) := by
  simp only [ends, ok_bind_iff, plugNode_eq_ok_iff, portOf_eq_ok_iff, checkMedia_eq_ok_iff,
    Joinable, port?, template?, Option.bind_eq_some_iff, Option.map_eq_some_iff]
  constructor
  · rintro ⟨found, s, first, t, second, a, ⟨here, outward⟩, b, ⟨there, inward⟩, _, media, -⟩
    exact ⟨a, b, ⟨_, ⟨s, first, rfl⟩, here⟩, ⟨_, ⟨t, second, rfl⟩, there⟩, outward, inward, media⟩
  · rintro ⟨a, b, ⟨_, ⟨s, first, rfl⟩, here⟩, ⟨_, ⟨t, second, rfl⟩, there⟩, outward, inward, media⟩
    exact ⟨(s, t), s, first, t, second, a, ⟨here, outward⟩, b, ⟨there, inward⟩, (), media, rfl⟩

theorem owned_ends (g : Graph α) (source target : PortRef) : Owned (g.ends source target) := by
  have node (name : String) : Owned (g.plugNode name) := by
    rw [plugNode]
    split
    · exact owned_ok _
    · exact owned_ofDesk _
  have port (node : Node α) (name : String) (wanted : Direction) :
      Owned (portOf node name wanted) := by
    rw [portOf]
    split
    · exact owned_ofDesk _
    · split
      · exact owned_ok _
      · exact owned_ofDesk _
  have media (a b : Port) : Owned (checkMedia source target a b) := by
    rw [checkMedia]
    split
    · split
      · exact owned_ok _
      · exact owned_ofDesk _
    · exact owned_ok _
  exact owned_bind (node _) fun _ => owned_bind (node _) fun _ => owned_bind (port _ _ _) fun _ =>
    owned_bind (port _ _ _) fun _ => owned_bind (media _ _) fun _ => owned_ok _

variable [Number α]

theorem eval_connect {g : Graph α} (connects : g.backend.Connects) (source target : PortRef) :
    ∃ journal, (connect source target).eval g =
      (.ok (), { g with journal, plugs := g.plugs.insert target source }) := by
  simp only [connect, issue, Act.eval_bind, Act.eval_get, Act.eval_modify, Act.eval_debug,
    connects.accepts]
  exact ⟨_, rfl⟩

/-- A plug is a fault of the show, or else the input has the source that it is given. -/
theorem eval_plug {g : Graph α} (connects : g.backend.Connects) (source target : PortRef) :
    (∃ fault, (plug source target).eval g = (.error fault, g) ∧ fault.Own ∧
      ¬(Joinable (g.port? source) (g.port? target) ∧
        g.rewiring.Allows (g.plugs.get? target) source)) ∨
    (∃ changed journal plugs, (plug source target).Returns g changed { g with journal, plugs } ∧
      (∀ r, plugs.get? r = if r = target then some source else g.plugs.get? r) ∧
      Joinable (g.port? source) (g.port? target) ∧
        g.rewiring.Allows (g.plugs.get? target) source) := by
  simp only [← ends_eq_ok_iff, Act.Returns, plug, Act.eval_bind, Act.eval_get, Act.eval_ofExcept]
  -- The ends settle whether the ports may be joined, the present source whether they are.
  cases looked : g.ends source target with
  | error fault =>
    refine .inl ⟨fault, rfl, owned_ends g source target fault looked, ?_⟩
    rintro ⟨⟨_, ok⟩, -⟩
    cases ok
  | ok found =>
    cases plugged : g.plugs.get? target with
    | none =>
      obtain ⟨journal, connected⟩ := eval_connect connects source target
      refine .inr ⟨true, journal, _, ?_, fun r => g.plugs.get?_insert target r source,
        ⟨found, rfl⟩, g.rewiring.allows_none source⟩
      simp only [connected, Act.eval_bind]
      rfl
    | some previous =>
      by_cases same : previous = source
      · subst same
        refine .inr ⟨false, g.journal, g.plugs, ?_, fun r => ?_, ⟨found, rfl⟩,
          g.rewiring.allows_self previous⟩
        · simp only [if_true]
          rfl
        · split
          · next here => rw [here, plugged]
          · rfl
      · simp only [if_neg same]
        by_cases refuses : g.rewiring = .refuse
        · refine .inl ⟨.ofDesk (.occupied target previous), ?_, Fault.own_ofDesk _, ?_⟩
          · simp only [if_pos refuses]
            rfl
          · rw [refuses]
            exact fun admitted => Rewiring.not_allows same admitted.2
        · obtain ⟨accepted, issued⟩ := eval_issue connects.steady
            (.disconnect (g.socket previous) (g.socket target))
          -- The new plug is made in a graph that has lost the old one.
          obtain ⟨journal, connected⟩ := eval_connect (g :=
            { g.told (.disconnect (g.socket previous) (g.socket target)) with
              plugs := (g.told (.disconnect (g.socket previous) (g.socket target))).plugs.erase
                target }) connects source target
          refine .inr ⟨true, journal, (g.plugs.erase target).insert target source, ?_, fun r => ?_,
            ⟨found, rfl⟩, Rewiring.allows_of_ne refuses _ source⟩
          · simp only [if_neg refuses, Act.eval_bind, issued, Act.eval_modify, connected]
            rfl
          · rw [Table.get?_insert, Table.get?_erase]
            split <;> rfl

/-! Nodes -/

/-- Properties are set. -/
structure Dresses (g g' : Graph α) : Prop where
  wiring : SameWiring g g'
  templates (name : String) : g'.template? name = g.template? name

instance : IsPreorder (Graph α) Dresses where
  refl g := ⟨refl_of SameWiring g, fun _ => rfl⟩
  trans _ _ _ first second := ⟨trans_of SameWiring first.wiring second.wiring,
    fun name => (second.templates name).trans (first.templates name)⟩

omit [Number α] in
theorem dresses_setProperty (g : Graph α) (call : Call α) (name element property : String)
    (v : PropertyValue) :
    Dresses g ((g.told call).modifyNode name fun node => node.setProperty element property v) := by
  refine ⟨⟨rfl, rfl, rfl, Table.keys_modify .., rfl, rfl, rfl⟩, fun other => ?_⟩
  simp only [template?, told, modifyNode, Table.get?_modify]
  split
  · rw [Option.map_map]
    rfl
  · rfl

theorem returns_assignAll {g : Graph α} (steady : g.backend.Steady) (name : String)
    (handle : Handle) (entries : List (String × String × PropertyValue)) :
    ∃ g', (assignAll name handle entries).Returns g () g' ∧ Dresses g g' ∧
      g'.nodes.get? name = (g.nodes.get? name).map fun node => node.dress entries := by
  induction entries generalizing g with
  | nil => exact ⟨g, rfl, refl_of Dresses g, Option.map_id'.symm⟩
  | cons entry rest ih =>
    obtain ⟨element, property, v⟩ := entry
    obtain ⟨accepted, issued⟩ := eval_issue steady (.setProperty handle element property v)
    have dressed := dresses_setProperty g (.setProperty handle element property v) name element
      property v
    obtain ⟨g', more, dresses, node⟩ := ih (by rw [dressed.wiring.backend]; exact steady)
    refine ⟨g', ?_, trans_of Dresses dressed dresses, ?_⟩
    · simp only [Act.Returns, assignAll, assignProperty, Act.eval_bind, issued, Act.eval_modify]
      exact more
    · rw [node, modifyNode, Table.get?_modify, if_pos rfl, Option.map_map]
      rfl

/-- A node is created. -/
structure Adds (name : String) (t : Template) (g g' : Graph α) : Prop where
  library : g'.library = g.library
  rewiring : g'.rewiring = g.rewiring
  backend : g'.backend = g.backend
  plugs : g'.plugs = g.plugs
  names : g'.nodes.keys = g.nodes.keys ++ [name]
  templates (other : String) :
    g'.template? other = if other = name then some t else g.template? other

omit [Number α] in
theorem template_of_ofExpansion {name : String} {handle : Handle} {x : Expansion} {node : Node α}
    (made : Node.ofExpansion name handle x = .ok node) : node.template = x.template := by
  rw [Node.ofExpansion] at made
  split at made
  all_goals
    obtain ⟨window, -, made⟩ := ok_bind_iff.1 made
    cases made
    rfl

omit [Number α] in
theorem adds_insert {g : Graph α} {name : String} (free : name ∉ g.nodes.keys)
    (call : Call α) (node : Node α) (handle : Handle) :
    Adds name node.template g { g.told call with
      nodes := (g.told call).nodes.insert name node
      handles := (g.told call).handles.insert handle name } := by
  refine ⟨rfl, rfl, rfl, rfl, ?_, fun other => ?_⟩
  · simp only [told, Table.keys_insert, if_neg free]
  · simp only [template?, told, Table.get?_insert]
    split <;> rfl

omit [Number α] in
theorem Adds.dress {name : String} {t : Template} {g₁ g₂ g₃ : Graph α} (adds : Adds name t g₁ g₂)
    (dresses : Dresses g₂ g₃) : Adds name t g₁ g₃ where
  library := dresses.wiring.library.trans adds.library
  rewiring := dresses.wiring.rewiring.trans adds.rewiring
  backend := dresses.wiring.backend.trans adds.backend
  plugs := dresses.wiring.plugs.trans adds.plugs
  names := dresses.wiring.names.trans adds.names
  templates other := (dresses.templates other).trans (adds.templates other)

theorem eval_instantiate_of_error {g : Graph α} {templateName name : String}
    {arguments : List String} {fault : Fault} (refused :
      g.library.expandFresh (g.nodes.contains name) templateName name arguments = .error fault) :
    (instantiate templateName name arguments).eval g = (.error fault, g) := by
  simp only [Library.expandFresh] at refused
  simp only [instantiate, Act.eval_bind, Act.eval_get]
  split at refused
  · next taken =>
    cases refused
    simp only [if_pos taken]
    rfl
  · next free =>
    simp only [if_neg free, refused]
    rfl

/-- With its parts at hand a node is created, unless it is given a number with no integer. -/
theorem eval_instantiate_of_ok {g : Graph α} (steady : g.backend.Steady)
    {templateName name : String} {arguments : List String} {x : Expansion} (expanded :
      g.library.expandFresh (g.nodes.contains name) templateName name arguments = .ok x) :
    name ∉ g.nodes.keys ∧
      match Node.ofExpansion (α := α) name (g.backend.handleFor g.journal name) x with
      | .error host => (instantiate templateName name arguments).eval g =
          (.error (.host host), g.told (.create name templateName x.template.layout.description))
      | .ok node => ∃ ports g', (instantiate templateName name arguments).Returns g ports g' ∧
          Adds name x.template g g' ∧
          g'.nodes.get? name = some (node.dress x.elements.entries) := by
  simp only [Library.expandFresh] at expanded
  split at expanded
  · cases expanded
  next free =>
  obtain ⟨accepted, issued⟩ :=
    eval_issue steady (.create name templateName x.template.layout.description)
  refine ⟨mt Table.contains_iff.2 free, ?_⟩
  simp only [Act.Returns, instantiate, Act.eval_bind, Act.eval_get, if_neg free, Act.eval_pure,
    Act.eval_ofExcept, expanded, issued]
  cases made : Node.ofExpansion (α := α) name (g.backend.handleFor g.journal name) x with
  | error host => rfl
  | ok node =>
    have adds := adds_insert (mt Table.contains_iff.2 free)
      (.create name templateName x.template.layout.description) node
      (g.backend.handleFor g.journal name)
    obtain ⟨g', assigned, dresses, dressed⟩ := returns_assignAll (by rw [adds.backend]; exact steady)
      name (g.backend.handleFor g.journal name) x.elements.entries
    refine ⟨x.template.ports, g', ?_, template_of_ofExpansion made ▸ adds.dress dresses, ?_⟩
    · simp only [Act.Returns] at assigned
      simp only [mapError_ok, Act.eval_modify, assigned]
      rfl
    · rw [dressed, Table.get?_insert_self]
      rfl

theorem made_of_instantiate {g g' : Graph α} (steady : g.backend.Steady)
    {templateName name : String} {arguments : List String} {ports : Table String Port}
    (created : (instantiate templateName name arguments).Returns g ports g') :
    ∃ x node, g.library.expandFresh (g.nodes.contains name) templateName name arguments = .ok x ∧
      Node.ofExpansion name (g.backend.handleFor g.journal name) x = .ok node ∧
      g'.nodes.get? name = some (node.dress x.elements.entries) := by
  cases fresh : g.library.expandFresh (g.nodes.contains name) templateName name arguments with
  | error fault =>
    rw [Act.Returns, eval_instantiate_of_error fresh] at created
    cases created
  | ok x =>
    obtain ⟨-, outcome⟩ := eval_instantiate_of_ok steady fresh
    split at outcome
    · cases created.symm.trans outcome
    · next node made =>
      obtain ⟨_, _, created', -, live⟩ := outcome
      obtain ⟨-, rfl⟩ := created.determined created'
      exact ⟨x, node, rfl, made, live⟩

end Graph

end ShowControl
