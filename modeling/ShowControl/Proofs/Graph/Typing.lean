import ShowControl.Proofs.Graph.Effect
import ShowControl.Proofs.Number.Exact
import ShowControl.Proofs.Script.Binding
import ShowControl.Proofs.Script.Compiled

/-! Properties keep their types.

A node gets its first properties from its template, whose bindings have been checked, and every later
value is checked against the one before it. The backend may break down at any command. -/

set_option autoImplicit false
namespace ShowControl

variable {α : Type}

theorem Pipeline.Layout.isSome_element? {layout : Layout} {name : String} :
    (layout.element? name).isSome = true ↔ name ∈ layout.names := by
  simp [element?, names, List.find?_isSome]

def Node.Typed (node : Node α) : Prop := node.properties.Typed node.template.layout

/-- Each property has a value still, of the same type. -/
def Node.Retypes (node node' : Node α) : Prop :=
  ∀ element property v, node.properties.get? element property = some v →
    ∃ v', node'.properties.get? element property = some v' ∧ v'.type = v.type

theorem Node.retypes_of_properties {node node' : Node α}
    (same : node'.properties = node.properties) : node.Retypes node' :=
  fun _ _ v given => ⟨v, same ▸ given, rfl⟩

theorem Node.properties_command (node : Node α) (verb : Verb) (arguments : List α) :
    (node.command verb arguments).properties = node.properties ∧
      (node.command verb arguments).template = node.template := by
  cases verb <;> exact ⟨rfl, rfl⟩

namespace Graph

def Typed (g : Graph α) : Prop := ∀ name node, g.nodes.get? name = some node → node.Typed

/-- What every step keeps of the properties. -/
structure Retypes (g g' : Graph α) : Prop where
  library : g'.library = g.library
  typed : g.library.Compiled → g.Typed → g'.Typed
  keeps : ∀ name node, g.nodes.get? name = some node →
    ∃ node', g'.nodes.get? name = some node' ∧ node.Retypes node'

instance : IsPreorder (Graph α) Retypes where
  refl _ := ⟨rfl, fun _ typed => typed, fun _ node live =>
    ⟨node, live, Node.retypes_of_properties rfl⟩⟩
  trans _ _ _ first second := by
    refine ⟨second.library.trans first.library, fun compiled typed => ?_, fun name node live => ?_⟩
    · exact second.typed (first.library.symm ▸ compiled) (first.typed compiled typed)
    · obtain ⟨between, live, before⟩ := first.keeps name node live
      obtain ⟨later, live, after⟩ := second.keeps name between live
      refine ⟨later, live, fun element property v given => ?_⟩
      obtain ⟨v', given, same⟩ := before element property v given
      obtain ⟨v'', given, same'⟩ := after element property v' given
      exact ⟨v'', given, same'.trans same⟩

theorem retypes_of_nodes {g g' : Graph α} (library : g'.library = g.library)
    (nodes : ∀ name, g'.nodes.get? name = g.nodes.get? name) : g.Retypes g' := by
  refine ⟨library, fun _ typed name node live => ?_, fun name node live => ?_⟩
  · exact typed name node (nodes name ▸ live)
  · exact ⟨node, (nodes name).trans live, Node.retypes_of_properties rfl⟩

theorem retypes_modifyNode {g : Graph α} {name : String} {change : Node α → Node α}
    (typed : ∀ node, g.nodes.get? name = some node → node.Typed → (change node).Typed)
    (keeps : ∀ node, g.nodes.get? name = some node → node.Retypes (change node)) :
    g.Retypes (g.modifyNode name change) := by
  refine ⟨rfl, fun _ before other node live => ?_, fun other node live => ?_⟩
  · rw [modifyNode, Table.get?_modify] at live
    split at live
    · next same =>
      subst same
      obtain ⟨earlier, here, rfl⟩ := Option.map_eq_some_iff.1 live
      exact typed earlier here (before _ earlier here)
    · exact before other node live
  · rw [modifyNode, Table.get?_modify, live]
    split
    · next same =>
      subst same
      exact ⟨change node, rfl, keeps node live⟩
    · exact ⟨node, rfl, Node.retypes_of_properties rfl⟩

theorem retypes_modify (name : String) {change : Node α → Node α}
    (same : ∀ node, (change node).properties = node.properties ∧
      (change node).template = node.template) :
    (modify fun g => g.modifyNode name change : Act (Graph α) PUnit).Keeps Retypes := by
  refine Act.keeps_modify fun g => retypes_modifyNode (fun node _ typed => ?_) fun node _ => ?_
  · rw [Node.Typed, (same node).1, (same node).2]
    exact typed
  · exact Node.retypes_of_properties (same node).1

variable [Number α]

theorem retypes_issue (call : Call α) : (issue call).Keeps Retypes := by
  intro g
  rw [eval_issue_eq]
  exact retypes_of_nodes rfl fun _ => rfl

theorem retypes_setTransport (name : String) (verb : Verb) (arguments : List α) :
    (setTransport name verb arguments).Keeps Retypes :=
  setTransport_keeps retypes_issue
    (retypes_modify name fun node => node.properties_command verb arguments)

theorem retypes_showWindow (name : String) :
    (showWindow name : Act (Graph α) Unit).Keeps Retypes :=
  showWindow_keeps retypes_issue (retypes_modify name fun _ => ⟨rfl, rfl⟩)

theorem retypes_moveWindow (name : String) (x y : Int) :
    (moveWindow name x y : Act (Graph α) Unit).Keeps Retypes :=
  moveWindow_keeps retypes_issue (retypes_modify name fun _ => ⟨rfl, rfl⟩)

theorem retypes_recordProgress (clock : String) (value : Option α) :
    (recordProgress clock value).Keeps Retypes := by
  refine Act.keeps_bind Act.keeps_get fun g => ?_
  cases value with
  | none =>
    refine Act.keeps_bind (Act.keeps_modify fun _ => retypes_of_nodes rfl fun _ => rfl) fun _ => ?_
    split
    · exact Act.keeps_throw _
    · exact Act.keeps_pure _
  | some value =>
    refine Act.keeps_bind (Act.keeps_modify fun _ => retypes_of_nodes rfl fun _ => rfl) fun _ => ?_
    split
    · split
      · exact Act.keeps_log _ _
      · exact Act.keeps_pure _
    · exact Act.keeps_pure _

/-! Setting a property -/

omit [Number α] in
theorem checkProperty_ok {node : Node α} {element property typeName : String} {u : Unit}
    (checked : checkProperty node element property typeName = .ok u) :
    element ∈ node.template.layout.names ∧
      ∀ current, node.properties.get? element property = some current →
        current.type.name = typeName := by
  rw [checkProperty] at checked
  split at checked
  · cases checked
  · next known =>
    refine ⟨Pipeline.Layout.isSome_element?.1 (Option.isSome_iff_ne_none.2 ?_), ?_⟩
    · exact fun unknown => known (Option.isNone_iff_eq_none.2 unknown)
    · intro current given
      rw [given] at checked
      simp only at checked
      split at checked
      · next same => exact same
      · cases checked

theorem readValue_ok {typeName raw : String} {v : PropertyValue}
    (read : readValue typeName raw = .ok v) :
    ∃ type, PropertyType.ofName? typeName = some type ∧ type.read raw = .ok v := by
  rw [readValue] at read
  split at read
  · cases read
  · next type found => exact ⟨type, found, ok_mapError_iff.1 read⟩

/-- What has been found of a value before the backend is told of it. -/
structure Fits (g : Graph α) (name element property typeName raw : String) (node : Node α)
    (v : PropertyValue) : Prop where
  live : g.nodes.get? name = some node
  known : element ∈ node.template.layout.names
  steady : ∀ current, node.properties.get? element property = some current →
    current.type.name = typeName
  read : ∃ type, PropertyType.ofName? typeName = some type ∧ type.read raw = .ok v

omit [Number α] in
theorem fits_of_ok {g : Graph α} {name element property typeName raw : String} {node : Node α}
    {v : PropertyValue} (passed : (do
      let node ← g.node name
      checkProperty node element property typeName
      return (node, ← readValue typeName raw) : Except Fault (Node α × PropertyValue)) =
        .ok (node, v)) : Fits g name element property typeName raw node v := by
  obtain ⟨found, looked, passed⟩ := ok_bind_iff.1 passed
  obtain ⟨u, checked, passed⟩ := ok_bind_iff.1 passed
  obtain ⟨w, read, passed⟩ := ok_bind_iff.1 passed
  cases passed
  obtain ⟨known, steady⟩ := checkProperty_ok checked
  exact ⟨node_eq_ok_iff.1 looked, known, steady, readValue_ok read⟩

omit [Number α] in
theorem Fits.valid {g : Graph α} {name element property typeName raw : String} {node : Node α}
    {v : PropertyValue} (fits : Fits g name element property typeName raw node v) :
    v.type.name = typeName ∧ v.Valid := by
  obtain ⟨type, found, read⟩ := fits.read
  obtain ⟨rfl, valid⟩ := PropertyType.valid_of_read read
  exact ⟨PropertyType.name_of_ofName? found, valid⟩

theorem retypes_setProperty (name element property typeName raw : String) :
    (setProperty name element property typeName raw : Act (Graph α) PropertyValue).Keeps Retypes := by
  intro g
  rw [eval_setProperty_eq]
  split
  · exact refl_of Retypes g
  · next node v passed =>
    have fits := fits_of_ok passed
    obtain ⟨named, valid⟩ := fits.valid
    have told : g.Retypes (g.told (.setProperty node.handle element property v)) :=
      retypes_of_nodes rfl fun _ => rfl
    split
    · exact told
    · refine trans_of Retypes told (retypes_modifyNode (fun other live typed => ?_) fun other live => ?_)
      · obtain rfl := Option.some.inj (fits.live.symm.trans live)
        exact typed.set fits.known valid
      · obtain rfl := Option.some.inj (fits.live.symm.trans live)
        -- The property itself had its type checked, and the others stay as they are.
        intro element' property' current given
        show ∃ v', (node.properties.set element property v).get? element' property' = some v' ∧ _
        rw [Settings.get?_set_apply]
        split
        · next same =>
          obtain ⟨rfl, rfl⟩ := same
          have same := named.trans (fits.steady current given).symm
          exact ⟨v, rfl, PropertyType.name_injective same⟩
        · exact ⟨current, given, rfl⟩

/-! Creating a node -/

theorem typed_assignAll {g : Graph α} (typed : g.Typed) (name : String) (handle : Handle)
    {entries : List (String × String × PropertyValue)}
    (fit : ∀ node, g.nodes.get? name = some node → ∀ entry ∈ entries,
      entry.1 ∈ node.template.layout.names ∧ entry.2.2.Valid) :
    ((assignAll name handle entries).eval g).2.Typed := by
  induction entries generalizing g with
  | nil => exact typed
  | cons entry rest ih =>
    obtain ⟨element, property, v⟩ := entry
    simp only [assignAll, assignProperty, Act.eval_bind, eval_issue_eq]
    cases g.backend.reply g.journal (.setProperty handle element property v) with
    | failed text => exact typed
    | done | refused =>
      simp only [Reply.answer, Act.eval_modify]
      -- Whether the backend wants it or not, the value is entered.
      refine ih (fun other node live => ?_) fun node live => ?_
      · rw [modifyNode, Table.get?_modify] at live
        split at live
        · next same =>
          subst same
          obtain ⟨earlier, here, rfl⟩ := Option.map_eq_some_iff.1 live
          obtain ⟨known, valid⟩ := fit earlier here _ List.mem_cons_self
          exact (typed _ earlier here).set known valid
        · exact typed other node live
      · have set := (Call.Changes.property (α := α) (h := handle) element property v).same
        obtain ⟨earlier, here, same⟩ := live_modifyNode set live
        rw [same.template]
        exact fun entry member => fit earlier here entry (List.mem_cons_of_mem _ member)

theorem typed_instantiate {g : Graph α} (compiled : g.library.Compiled) (typed : g.Typed)
    (templateName name : String) (arguments : List String) :
    ((instantiate templateName name arguments).eval g).2.Typed := by
  obtain same | ⟨-, x, expanded, told | ⟨node, made, -, entered⟩⟩ :=
    instantiate_cases g templateName name arguments
  · rw [same]
    exact typed
  · rw [told]
    exact typed
  · obtain ⟨window, rfl, -, -⟩ := eq_of_ofExpansion made
    rw [entered]
    -- The node has no properties when it is entered.
    refine typed_assignAll (fun other node live => ?_) name _ fun node live entry member => ?_
    · rw [Table.get?_insert] at live
      split at live
      · cases live
        exact Settings.typed_empty _
      · exact typed other node live
    · rw [Table.get?_insert_self] at live
      cases live
      exact compiled.typed expanded _ _ _ (Settings.get?_of_mem_entries member)

theorem retypes_instantiate (templateName name : String) (arguments : List String) :
    (instantiate templateName name arguments : Act (Graph α) (Table String Port)).Keeps Retypes := by
  intro g
  have chain := chain_instantiate g templateName name arguments
  refine ⟨(chain_fixed chain).1, fun compiled typed => ?_, fun other node live => ?_⟩
  · exact typed_instantiate compiled typed templateName name arguments
  · by_cases same : some name = some other
    -- The name of a node that is there is taken, so that nothing is done.
    · obtain rfl := Option.some.inj same
      have taken : g.nodes.contains name = true := Option.isSome_iff_exists.2 ⟨node, live⟩
      simp only [instantiate, Act.eval_bind, Act.eval_get, if_pos taken, Act.eval_throw]
      exact ⟨node, live, Node.retypes_of_properties rfl⟩
    · exact ⟨node, (chain_frame chain same).trans live, Node.retypes_of_properties rfl⟩

/-! Runs -/

theorem retypes_act (operation : Operation α) : operation.act.Keeps Retypes := by
  cases operation with
  | instantiate template name arguments =>
    exact Act.keeps_bind (retypes_instantiate template name arguments) fun _ => Act.keeps_pure ()
  | plug source target =>
    refine fun g => retypes_of_nodes ?_ fun name => ?_
    · exact (chain_fixed (chain_act (.plug source target) g)).1
    · exact chain_frame (chain_act (.plug source target) g) nofun
  | unplug target =>
    refine fun g => retypes_of_nodes ?_ fun name => ?_
    · exact (chain_fixed (chain_act (.unplug target) g)).1
    · exact chain_frame (chain_act (.unplug target) g) nofun
  | transport name verb arguments =>
    exact Act.keeps_bind (Act.keeps_ofExcept _) fun verb =>
      Act.keeps_bind (retypes_setTransport name verb arguments) fun _ => Act.keeps_pure ()
  | property name element key type raw =>
    exact Act.keeps_bind (retypes_setProperty name element key type raw) fun _ => Act.keeps_pure ()
  | showWindow name => exact retypes_showWindow name
  | moveWindow name x y => exact retypes_moveWindow name x y

/-- What happens to a graph: an operation, or the report of a clock. -/
inductive Event (α : Type) where
  | operation (operation : Operation α)
  | progress (clock : String) (value : Option α)

def Event.act : Event α → Act (Graph α) Unit
  | operation performed => performed.act
  | progress clock value => recordProgress clock value

/-- The graph after events, whether the operations return or not. -/
def onward (g : Graph α) (events : List (Event α)) : Graph α :=
  events.foldl (fun g event => (event.act.eval g).2) g

theorem retypes_onward (g : Graph α) (events : List (Event α)) : g.Retypes (g.onward events) := by
  induction events generalizing g with
  | nil => exact refl_of Retypes g
  | cons event rest ih =>
    have step : event.act.Keeps Retypes := by
      cases event with
      | operation operation => exact retypes_act operation
      | progress clock value => exact retypes_recordProgress clock value
    exact trans_of Retypes (step g) (ih _)

/-- The value may not be given to the property. -/
def Unfit (node : Node α) (element property typeName raw : String) : Prop :=
  element ∉ node.template.layout.names ∨
  (∃ v, node.properties.get? element property = some v ∧ v.type.name ≠ typeName) ∨
  ∀ type, PropertyType.ofName? typeName = some type → ∀ v, type.read raw ≠ .ok v

theorem eval_setProperty_of_unfit {g : Graph α} {name : String} {node : Node α}
    (live : g.nodes.get? name = some node) {element property typeName raw : String}
    (unfit : Unfit node element property typeName raw) :
    ∃ fault, (setProperty name element property typeName raw).eval g = (.error fault, g) := by
  rw [eval_setProperty_eq]
  split
  · next fault _ => exact ⟨fault, rfl⟩
  · next found v passed =>
    have fits := fits_of_ok passed
    obtain rfl := Option.some.inj (fits.live.symm.trans live)
    obtain unknown | ⟨current, given, other⟩ | unreadable := unfit
    · exact absurd fits.known unknown
    · exact absurd (fits.steady current given) other
    · obtain ⟨type, found, read⟩ := fits.read
      exact absurd read (unreadable type found v)

/-- From the start on, the properties of a node belong to elements of its template and have values in
range. They keep their types through whatever happens, and a value that does not go with them is
turned down before the backend is told of it. -/
theorem properties_keep_their_types {library : Library} (compiled : library.Compiled)
    (rewiring : Rewiring) (backend : Backend α) (events : List (Event α)) :
    let g := (start library rewiring backend).onward events
    (∀ name node, g.nodes.get? name = some node → ∀ element property v,
      node.properties.get? element property = some v →
        element ∈ node.template.layout.names ∧ v.Valid) ∧
    (∀ later name node, g.nodes.get? name = some node → ∀ element property v,
      node.properties.get? element property = some v →
        ∃ node' v', (g.onward later).nodes.get? name = some node' ∧
          node'.properties.get? element property = some v' ∧ v'.type = v.type) ∧
    ∀ name node element property typeName raw, g.nodes.get? name = some node →
      Unfit node element property typeName raw →
        ∃ fault, (setProperty name element property typeName raw).eval g = (.error fault, g) := by
  intro g
  refine ⟨?_, fun later name node live element property v given => ?_, ?_⟩
  · exact (retypes_onward (start library rewiring backend) events).typed compiled
      fun name node live => by cases live
  · obtain ⟨node', live, retypes⟩ := (retypes_onward g later).keeps name node live
    obtain ⟨v', given, same⟩ := retypes element property v given
    exact ⟨node', v', live, given, same⟩
  · exact fun name node element property typeName raw live unfit =>
      eval_setProperty_of_unfit live unfit

end Graph

namespace Sample

/-- The bindings do not agree on the type of the property, and the later one counts. -/
def tuned : String :=
  "raw w 0 fakesrc name=s\ns freq string low\ns freq int $1=440\nwar\n"

/-- A backend that breaks down once, at the third command. -/
def faltering : Backend ℚ where
  reply journal _ := if journal.length = 2 then .failed "busy" else .done
  handleFor _ := .name

/-- A change that the backend does not survive, one of another type, and one that is fine. -/
def retuning : List (Graph.Event ℚ) :=
  [.operation (.instantiate "w" "a" []), .progress "a" (some 1),
    .operation (.property "a" "s" "freq" "int" "7"),
    .operation (.property "a" "s" "freq" "string" "high"),
    .operation (.property "a" "s" "freq" "int" "8")]

end Sample

set_option maxRecDepth 20000 in
theorem Graph.properties_keep_their_types_sample :
    let library := (Script.programOf Sample.tuned : Program ℚ).templates
    let g := (start library .replace Sample.faltering).onward Sample.retuning
    library.Compiled ∧ ∃ node, g.nodes.get? "a" = some node ∧
      (node.properties.get? "s" "freq").map PropertyValue.text = some "int:8" ∧
      (∀ later element property v, node.properties.get? element property = some v →
        ∃ node' v', (g.onward later).nodes.get? "a" = some node' ∧
          node'.properties.get? element property = some v' ∧ v'.type = v.type) ∧
      ∃ fault, (setProperty "a" "s" "freq" "string" "high").eval g = (.error fault, g) := by
  intro library g
  have checks : ((Script.compile Sample.tuned :
        Act Library (Program ℚ)).eval .empty).1.isOk = true ∧
      (g.nodes.get? "a").map (fun node =>
        (node.properties.get? "s" "freq").map fun v => (v.text, v.type)) =
          some (some ("int:8", .int)) := by
    decide +kernel
  have compiled : library.Compiled := by
    obtain ⟨p, returned⟩ := Act.exists_returns_of_isOk checks.1
    have same : Script.programOf Sample.tuned = p := by rw [Script.programOf, returned]
    have read := Script.compiled_of_compile Library.compiled_empty returned
    rwa [← same] at read
  obtain ⟨node, live, state⟩ := Option.map_eq_some_iff.1 checks.2
  obtain ⟨v, given, state⟩ := Option.map_eq_some_iff.1 state
  obtain ⟨text, type⟩ := Prod.mk.inj state
  have law := properties_keep_their_types compiled .replace Sample.faltering Sample.retuning
  refine ⟨compiled, node, live, ?_, fun later => law.2.1 later "a" node live, ?_⟩
  · rw [given, Option.map_some, text]
  · refine law.2.2 "a" node "s" "freq" "string" "high" live (.inr (.inl ⟨v, given, ?_⟩))
    rw [type]
    decide

end ShowControl
