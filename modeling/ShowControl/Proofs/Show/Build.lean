import ShowControl.Proofs.Graph.Agreement
import ShowControl.Proofs.Graph.Effect
import ShowControl.Proofs.Property

/-! Building a show: all of it or nothing.

The check of a program foresees every fault of its statements but one: the place and the size of a
window are settings like others, and are made integers when the node is created. -/

set_option autoImplicit false
namespace ShowControl

variable {α : Type}

/-! Windows that can be made -/

def Expansion.Measured (x : Expansion) : Prop :=
  x.template.hasWindow = true → ∃ w, Window.ofSettings x.node = .ok w

def Statement.Measured (library : Library) : Statement → Prop
  | .node templateName _ arguments _ =>
    ∀ x, library.expand templateName arguments = .ok x → x.Measured
  | .plug .. => True

def Program.Measured (p : Program α) : Prop :=
  ∀ statement ∈ p.statements, statement.Measured p.templates

theorem Expansion.measured_of_ok {x : Expansion} {name : String} {h : Handle} {node : Node α}
    (made : Node.ofExpansion name h x = .ok node) : x.Measured := by
  intro windowed
  obtain ⟨window, -, has, described⟩ := Graph.eq_of_ofExpansion made
  obtain ⟨w, given⟩ := Option.isSome_iff_exists.1 (has.trans windowed)
  exact ⟨w, described w given⟩

theorem Expansion.not_measured_of_error {x : Expansion} {name : String} {h : Handle}
    {host : HostFault} (failed : Node.ofExpansion (α := α) name h x = .error host) :
    ¬x.Measured := by
  intro measured
  rw [Node.ofExpansion] at failed
  split at failed
  · next windowed =>
    obtain ⟨w, described⟩ := measured windowed
    rw [described] at failed
    cases failed
  · cases failed

def Window.extents : List String := ["x", "y", "width", "height"]

def Template.Measurable (t : Template) : Prop :=
  ∀ b ∈ t.bindings, b.onNode = true → b.property ∈ Window.extents →
    b.type = .int ∨ b.type = .float

theorem Scalar.truncate_of_isFinite {x : Scalar} (finite : x.isFinite = true) :
    ∃ n, x.truncate = .ok n := by
  rw [isFinite] at finite
  rw [truncate]
  split at finite
  · next same => exact ⟨_, by rw [same]⟩
  · cases finite

theorem PropertyType.toInteger_of_read {type : PropertyType} (number : type = .int ∨ type = .float)
    {raw : String} {v : PropertyValue} (read : type.read raw = .ok v) :
    ∃ n, v.toInteger = .ok n := by
  obtain ⟨same, valid⟩ := valid_of_read read
  cases v with
  | int n => exact ⟨n, rfl⟩
  | float x =>
    obtain ⟨n, truncated⟩ := Scalar.truncate_of_isFinite valid
    exact ⟨n, by rw [PropertyValue.toInteger, truncated]; rfl⟩
  | string | orientation =>
    subst same
    rcases number with number | number <;> cases number

def Expansion.Placed (x : Expansion) : Prop :=
  ∀ name ∈ Window.extents, ∀ v, x.node.get? name = some v → ∃ n, v.toInteger = .ok n

theorem Expansion.Placed.measured {x : Expansion} (placed : x.Placed) : x.Measured := by
  intro _
  have measured (name : String) (member : name ∈ Window.extents) :
      ∃ n, Window.measure x.node name = .ok n := by
    rw [Window.measure]
    split
    · next v given => exact placed name member v given
    · exact ⟨0, rfl⟩
  obtain ⟨left, atLeft⟩ := measured "x" (by simp [Window.extents])
  obtain ⟨top, atTop⟩ := measured "y" (by simp [Window.extents])
  obtain ⟨width, wide⟩ := measured "width" (by simp [Window.extents])
  obtain ⟨height, high⟩ := measured "height" (by simp [Window.extents])
  exact ⟨⟨left, top, width, height, false⟩, by rw [Window.ofSettings, atLeft, atTop, wide, high]; rfl⟩

theorem Expansion.Placed.add {x y : Expansion} (placed : x.Placed) {b : Binding}
    (number : b.onNode = true → b.property ∈ Window.extents → b.type = .int ∨ b.type = .float)
    (added : x.add b = .ok y) : y.Placed := by
  rw [Expansion.add] at added
  split at added
  · cases added
  next v read =>
  split at added
  · next onNode =>
    cases added
    intro name extent w given
    rw [Table.get?_insert] at given
    split at given
    · next same =>
      cases given
      exact PropertyType.toInteger_of_read (number onNode (same ▸ extent)) read
    · exact placed name extent w given
  · cases added
    exact placed

theorem Template.Measurable.measured {t : Template} (measurable : t.Measurable)
    {arguments : List String} {x : Expansion} (expanded : t.expand arguments = .ok x) :
    x.Measured := by
  obtain ⟨bound, -, added⟩ := ok_bind_iff.1 expanded
  -- The bindings are entered one after the other, and each one leaves the window placed.
  suffices placed : ∀ (bindings : List Binding) (first : Expansion), bindings ⊆ t.bindings →
      first.Placed → bindings.foldlM Expansion.add first = .ok x → x.Placed from
    (placed t.bindings _ (List.Subset.refl _) (fun _ _ _ given => by cases given) added).measured
  intro bindings
  induction bindings with
  | nil =>
    intro first _ placed same
    cases same
    exact placed
  | cons b rest ih =>
    intro first within placed added
    obtain ⟨inner, within⟩ := List.cons_subset.1 within
    rw [List.foldlM_cons] at added
    obtain ⟨next, once, added⟩ := ok_bind_iff.1 added
    exact ih next within (placed.add (measurable b inner) once) added

/-! What a graph has of a program -/

def Node.MadeOf (node : Node α) (name : String) (x : Expansion) : Prop :=
  ∃ h made, ofExpansion name h x = .ok made ∧ node = made.dress x.elements.entries

def Graph.Has (g : Graph α) : Statement → Prop
  | .node templateName name arguments _ => ∃ node x, g.nodes.get? name = some node ∧
      g.library.expand templateName arguments = .ok x ∧ node.MadeOf name x
  | .plug .. => True

def Statement.feeds? (target : PortRef) : Statement → Option PortRef
  | .plug source t _ => if t = target then some source else none
  | .node .. => none

/-- All that a program declares: its nodes, and the last source of each input. -/
structure Graph.Realizes (g : Graph α) (p : Program α) : Prop where
  names : g.nodes.keys = p.nodeNames
  nodes (statement : Statement) : statement ∈ p.statements → g.Has statement
  sources (target : PortRef) : g.sourceOf target =
    (p.statements.filterMap (Statement.feeds? target)).getLast?

def Graph.Extends (g g' : Graph α) : Prop :=
  ∀ name node, g.nodes.get? name = some node → g'.nodes.get? name = some node

theorem Graph.Has.extend {g g' : Graph α} {statement : Statement} (has : g.Has statement)
    (kept : g.Extends g') (library : g'.library = g.library) : g'.Has statement := by
  cases statement with
  | node templateName name arguments line =>
    obtain ⟨node, x, live, expanded, made⟩ := has
    exact ⟨node, x, kept name node live, by rw [library, expanded], made⟩
  | plug => exact trivial

theorem Blueprint.sources_enter {library : Library} {rewiring : Rewiring} {b b' : Blueprint}
    {statement : Statement} (entered : b.enter library rewiring statement = .ok b')
    (target : PortRef) :
    b'.sources.get? target = (statement.feeds? target).or (b.sources.get? target) := by
  cases statement with
  | node templateName name arguments line =>
    rw [enter, declare_eq] at entered
    cases made : library.expandFresh (b.declared.contains name) templateName name arguments with
    | error fault =>
      rw [made] at entered
      cases entered
    | ok x =>
      rw [made] at entered
      cases entered
      rfl
  | plug source t line =>
    rw [enter, ok_mapError_iff] at entered
    obtain ⟨-, rfl⟩ := plug_eq_ok_iff.1 entered
    rw [Table.get?_insert, Statement.feeds?]
    by_cases here : t = target
    · rw [if_pos here, if_pos here.symm]
      rfl
    · rw [if_neg here, if_neg (Ne.symm here)]
      rfl

theorem Blueprint.sources_enterAll {library : Library} {rewiring : Rewiring} {b b' : Blueprint}
    {statements : List Statement} (checked : b.enterAll library rewiring statements = .ok b')
    (target : PortRef) : b'.sources.get? target =
      (statements.filterMap (Statement.feeds? target)).getLast?.or (b.sources.get? target) := by
  induction statements generalizing b with
  | nil =>
    cases checked
    rfl
  | cons statement rest ih =>
    rw [enterAll, List.foldlM_cons] at checked
    obtain ⟨b₁, entered, checked⟩ := ok_bind_iff.1 checked
    rw [ok_mapError_iff] at entered
    rw [ih checked, sources_enter entered, List.filterMap_cons]
    cases statement.feeds? target with
    | none => rfl
    | some source =>
      rw [List.getLast?_cons]
      cases (rest.filterMap (Statement.feeds? target)).getLast? <;> rfl

section Tracks

variable [Number α] {library : Library} {rewiring : Rewiring} {b : Blueprint} {g : Graph α}

/-- A statement that passes the check is carried out, or its window cannot be made. -/
theorem Tracks.carry (tracks : Tracks library rewiring b g) {statement : Statement} {b' : Blueprint}
    (entered : b.enter library rewiring statement = .ok b') :
    (statement.Measured library ∧ ∃ g', (Graph.enter statement).Returns g () g' ∧
      Tracks library rewiring b' g' ∧ g.Extends g' ∧ g'.Has statement) ∨
    (¬statement.Measured library ∧ ∃ host g',
      (Graph.enter statement).eval g = (.error (.host host), g') ∧ g'.journal ≠ []) := by
  cases statement with
  | node templateName name arguments line =>
    rw [Blueprint.enter, Blueprint.declare_eq, ← tracks.contains, ← tracks.library] at entered
    cases fresh : g.library.expandFresh (g.nodes.contains name) templateName name arguments with
    | error fault =>
      rw [fresh] at entered
      cases entered
    | ok x =>
      rw [fresh] at entered
      cases entered
      have expanded := (Library.expandFresh_eq_ok_iff.1 fresh).2
      have measured : (Statement.node templateName name arguments line).Measured library ↔
          x.Measured := by
        rw [Statement.Measured, ← tracks.library, expanded]
        exact ⟨fun all => all x rfl, fun measured y same => Except.ok.inj same ▸ measured⟩
      obtain ⟨free, outcome⟩ := Graph.eval_instantiate_of_ok tracks.connects.steady fresh
      simp only [Graph.enter, Act.Returns, Act.eval_bind]
      -- The check has passed, so the window is all that can fail.
      split at outcome
      · next host failed =>
        rw [outcome]
        refine .inr ⟨mt measured.1 (Expansion.not_measured_of_error failed), host, _, rfl, ?_⟩
        exact List.append_ne_nil_of_right_ne_nil _ (List.cons_ne_nil _ _)
      · next node made =>
        obtain ⟨ports, g', created, adds, live⟩ := outcome
        have chain := Graph.chain_instantiate g templateName name arguments
        rw [created] at chain ⊢
        refine .inl ⟨measured.2 (Expansion.measured_of_ok made), g', rfl, tracks.adds free adds,
          fun other node' live' => ?_, ?_⟩
        · refine (Graph.chain_frame chain fun same => free ?_).trans live'
          rw [Option.some.inj same]
          exact Table.mem_keys_iff.2 ⟨node', live'⟩
        · exact ⟨_, x, live, by rw [adds.library, expanded], _, node, made, rfl⟩
  | plug source target line =>
    rw [Blueprint.enter, ok_mapError_iff] at entered
    obtain ⟨admitted, rfl⟩ := Blueprint.plug_eq_ok_iff.1 entered
    rw [← tracks.port?, ← tracks.port?, ← tracks.rewiring, ← tracks.sources] at admitted
    rcases Graph.eval_plug tracks.connects source target with
      ⟨fault, -, -, refused⟩ | ⟨changed, journal, plugs, plugged, sources, -⟩
    · exact absurd admitted refused
    · simp only [Graph.enter, Act.Returns, Act.eval_bind]
      rw [plugged]
      exact .inl ⟨trivial, _, rfl, tracks.plugs sources, fun _ _ live => live, trivial⟩

theorem Tracks.carryAll {statements : List Statement} {b' : Blueprint}
    (tracks : Tracks library rewiring b g)
    (checked : b.enterAll library rewiring statements = .ok b') :
    ((∀ statement ∈ statements, statement.Measured library) ∧ ∃ g',
      (Graph.enterAll statements).Returns g () g' ∧ Tracks library rewiring b' g' ∧
        g.Extends g' ∧ ∀ statement ∈ statements, g'.Has statement) ∨
    (¬(∀ statement ∈ statements, statement.Measured library) ∧ ∃ fault g',
      (Graph.enterAll statements).eval g = (.error fault, g') ∧ g'.journal ≠ []) := by
  induction statements generalizing b g with
  | nil =>
    cases checked
    exact .inl ⟨nofun, g, rfl, tracks, fun _ _ live => live, nofun⟩
  | cons statement rest ih =>
    rw [Blueprint.enterAll, List.foldlM_cons] at checked
    obtain ⟨b₁, entered, checked⟩ := ok_bind_iff.1 checked
    rw [ok_mapError_iff] at entered
    simp only [Act.Returns, Graph.enterAll, Act.eval_bind]
    rcases tracks.carry entered with
      ⟨measured, g₁, returned, tracks₁, kept, has⟩ | ⟨unmeasured, host, g₁, failed, told⟩
    · rw [returned]
      rcases ih tracks₁ checked with
        ⟨others, g', created, tracks', kept', have_⟩ | ⟨unmeasured, fault, g', failed, told⟩
      -- What the first statement has put there is there at the end.
      · refine .inl ⟨List.forall_mem_cons.2 ⟨measured, others⟩, g', created, tracks',
          fun name node live => kept' name node (kept name node live), ?_⟩
        have library : g'.library = g₁.library := tracks'.library.trans tracks₁.library.symm
        exact List.forall_mem_cons.2 ⟨has.extend kept' library, have_⟩
      · exact .inr ⟨fun all => unmeasured (List.forall_mem_cons.1 all).2, fault, g', failed, told⟩
    · rw [failed]
      exact .inr ⟨fun all => unmeasured (List.forall_mem_cons.1 all).1, .host host, g₁, rfl, told⟩

end Tracks

/-! Building -/

namespace Show

variable [Number α]

def withGraph (s : Show α) (g : Graph α) : Show α := { s with desk := { s.desk with graph := g } }

omit [Number α] in
theorem eval_onGraph {β : Type} (x : Act (Graph α) β) (s : Show α) :
    (onGraph x).eval s = ((x.eval s.graph).1, s.withGraph (x.eval s.graph).2) := rfl

theorem eval_createAll (statements : List Statement) (s : Show α) :
    (createAll statements).eval s = (((Graph.enterAll statements).eval s.graph).1,
      s.withGraph ((Graph.enterAll statements).eval s.graph).2) := by
  induction statements generalizing s with
  | nil => rfl
  | cons statement rest ih =>
    cases statement with
    | node templateName name arguments line =>
      simp only [createAll, Graph.enterAll, Graph.enter, Act.eval_bind, eval_onGraph]
      rcases (Graph.instantiate templateName name arguments).eval s.graph with ⟨fault | ports, g⟩
      · rfl
      · exact ih (s.withGraph g)
    | plug source target line =>
      simp only [createAll, Graph.enterAll, Graph.enter, Act.eval_bind, eval_onGraph]
      rcases (Graph.plug source target).eval s.graph with ⟨fault | changed, g⟩
      · rfl
      · exact ih (s.withGraph g)

section Build

variable {program : Program α} {config : Config α} (backend : Backend α)

theorem eval_build_of_error {fault : Fault}
    (refused : program.check config.rewiring = .error fault) :
    build.eval (ofProgram program config backend) =
      (.error fault, ofProgram program config backend) := by
  simp only [build, Program.validate, Act.eval_bind, Act.eval_get, ofProgram, Act.eval_ofExcept,
    refused]

theorem eval_build_of_ok {report : Report}
    (checked : program.check config.rewiring = .ok report) :
    build.eval (ofProgram program config backend) =
      match (Graph.enterAll program.statements).eval
        (Graph.start program.templates config.rewiring backend) with
      | (.error fault, g) => (.error fault, (ofProgram program config backend).withGraph g)
      | (.ok _, g) => (.ok report,
          { (ofProgram program config backend).withGraph g with report := some report }) := by
  simp only [build, Program.validate, Act.eval_bind, Act.eval_get, ofProgram, Act.eval_ofExcept,
    checked, Act.eval_info, Act.eval_pure, eval_createAll, graph]
  rcases (Graph.enterAll program.statements).eval
    (Graph.start program.templates config.rewiring backend) with ⟨fault | _, g⟩
  · rfl
  · rfl

end Build

/-- Building fails before the backend is told anything and without a node, or all is there. -/
def BuildsWhole (program : Program α) (config : Config α) (backend : Backend α) : Prop :=
  let s := ofProgram program config backend
  (∃ fault t, build.eval s = (.error fault, t) ∧ t.graph.journal = [] ∧ t.graph.nodes.keys = []) ∨
    ∃ report t, build.Returns s report t ∧ t.graph.Realizes program

end Show

theorem Program.nodeNames_eq (p : Program α) :
    p.nodeNames = (p.statements.filterMap Statement.declares?).map Prod.fst := by
  rw [nodeNames, List.map_filterMap]
  congr 1
  funext statement
  cases statement <;> rfl

theorem Program.measured_of_measurable {p : Program α}
    (measurable : ∀ t ∈ p.templates.values, t.Measurable) : p.Measured := by
  intro statement _
  cases statement with
  | plug => exact trivial
  | node templateName name arguments line =>
    intro x expanded
    obtain ⟨t, found, expanded⟩ := ok_bind_iff.1 expanded
    rw [Library.find] at found
    split at found
    · next present =>
      cases found
      exact (measurable t (Table.mem_values_iff.2 ⟨templateName, present⟩)).measured expanded
    · cases found

section BuildsWhole

variable [Number α] (program : Program α) (config : Config α) {backend : Backend α}

theorem builds_whole_of_measured (connects : backend.Connects)
    (measured : ∀ report, program.check config.rewiring = .ok report → program.Measured) :
    Show.BuildsWhole program config backend := by
  cases checked : program.check config.rewiring with
  | error fault => exact .inl ⟨fault, _, Show.eval_build_of_error backend checked, rfl, rfl⟩
  | ok report =>
    obtain ⟨b, entered, -, -⟩ := Program.blueprint_of_check checked
    have built := Show.eval_build_of_ok backend checked
    rcases (tracks_start connects).carryAll entered with
      ⟨-, g, created, tracks, -, has⟩ | ⟨unmeasured, -⟩
    · rw [created] at built
      refine .inr ⟨report, _, built, ?_, has, fun target => ?_⟩
      · exact (tracks.names.trans (Blueprint.keys_enterAll entered)).trans program.nodeNames_eq.symm
      · refine (tracks.sources target).trans ((Blueprint.sources_enterAll entered target).trans ?_)
        exact Option.or_none
    · exact absurd (measured report checked) unmeasured

theorem measured_of_builds_whole (connects : backend.Connects)
    (whole : Show.BuildsWhole program config backend) {report : Report}
    (checked : program.check config.rewiring = .ok report) : program.Measured := by
  by_contra unmeasured
  obtain ⟨b, entered, -, -⟩ := Program.blueprint_of_check checked
  have built := Show.eval_build_of_ok backend checked
  rcases (tracks_start connects).carryAll entered with
    ⟨measured, -⟩ | ⟨-, fault, g, failed, told⟩
  · exact unmeasured measured
  · rw [failed] at built
    rcases whole with ⟨fault', t, stopped, silent, -⟩ | ⟨report', t, returned, -⟩
    -- The backend has been told to create the node whose window cannot be made.
    · cases stopped.symm.trans built
      exact told silent
    · cases returned.symm.trans built

/-- With a backend that connects whatever it is told to, a program is built as a whole or not at all
just if each window of a program that passes the check can be made. That is so if the settings that
place windows are declared as numbers. -/
theorem builds_whole_iff_measured (connects : backend.Connects) :
    (Show.BuildsWhole program config backend ↔
      ∀ report, program.check config.rewiring = .ok report → program.Measured) ∧
    ((∀ t ∈ program.templates.values, t.Measurable) →
      Show.BuildsWhole program config backend) := by
  refine ⟨⟨fun whole _ checked => ?_, builds_whole_of_measured program config connects⟩,
    fun measurable => ?_⟩
  · exact measured_of_builds_whole program config connects whole checked
  · refine builds_whole_of_measured program config connects fun _ _ => ?_
    exact Program.measured_of_measurable measurable

end BuildsWhole

namespace Sample

def placed : String :=
  "raw p 0 fakesrc\nwar\nraw w 0 fakesrc\nraw gtktag string window\nraw x int 5\nwar\n" ++
  "new p a\nnew w b\n"

def misplaced : String :=
  "raw p 0 fakesrc\nwar\nraw w 0 fakesrc\nraw gtktag string window\nraw x string wide\nwar\n" ++
  "new p a\nnew w b\n"

end Sample

theorem builds_whole_iff_measured_sample :
    let program : Program Scalar := Script.programOf Sample.placed
    (Backend.obliging : Backend Scalar).Connects ∧ (program.check .replace).isOk = true ∧
      (∀ t ∈ program.templates.values, t.Measurable) ∧
      (Show.BuildsWhole program .standard .obliging ↔
        ∀ report, program.check .replace = .ok report → program.Measured) ∧
      Show.BuildsWhole program .standard .obliging := by
  intro program
  have checks : (program.check .replace).isOk = true ∧
      ∀ t ∈ program.templates.values, t.Measurable := by
    unfold Template.Measurable
    decide +kernel
  obtain ⟨checked, measurable⟩ := checks
  have law := builds_whole_iff_measured program .standard Backend.connects_obliging
  exact ⟨Backend.connects_obliging, checked, measurable, law.1, law.2 measurable⟩

set_option maxRecDepth 20000 in
/-- The sample with a word compiles and passes the check, but building it stops at the second node,
which the backend has created by then. -/
theorem not_builds_whole_misplaced :
    let program : Program Scalar := Script.programOf Sample.misplaced
    program.Compiled ∧ (Backend.obliging : Backend Scalar).Connects ∧
      (program.check .replace).isOk = true ∧ ¬Show.BuildsWhole program .standard .obliging := by
  intro program
  have checks : ((Script.compile Sample.misplaced :
        Act Library (Program Scalar)).eval .empty).1.isOk = true ∧
      (program.check .replace).isOk = true ∧
      (Show.build.eval (Show.ofProgram program .standard .obliging)).1.isOk = false ∧
      (Show.build.eval (Show.ofProgram program .standard .obliging)).2.graph.journal.length = 2 := by
    decide +kernel
  obtain ⟨compiles, checked, stops⟩ := checks
  refine ⟨Script.compiled_programOf compiles, Backend.connects_obliging, checked, ?_⟩
  rintro (⟨fault, t, stopped, silent, -⟩ | ⟨report, t, returned, -⟩)
  · rw [stopped, silent] at stops
    cases stops.2
  · rw [returned] at stops
    cases stops.1

end ShowControl
