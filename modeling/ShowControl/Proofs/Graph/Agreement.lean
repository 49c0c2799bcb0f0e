import ShowControl.Proofs.Graph.Wiring
import ShowControl.Proofs.Show.Run

/-! The check of a program and the live graph agree, statement by statement. -/

set_option autoImplicit false
namespace ShowControl

variable {α : Type}

/-! The check -/

namespace Blueprint

def port? (b : Blueprint) (r : PortRef) : Option Port :=
  (b.declared.get? r.node).bind fun t => t.ports.get? r.port

theorem template_eq_ok_iff {b : Blueprint} {name : String} {t : Template} :
    b.template name = .ok t ↔ b.declared.get? name = some t := by
  rw [template]
  cases b.declared.get? name <;> simp

theorem port_eq_ok_iff {t : Template} {r : PortRef} {p : Port} :
    port t r = .ok p ↔ t.ports.get? r.port = some p := by
  rw [port]
  cases t.ports.get? r.port <;> simp

theorem checkPorts_eq_ok_iff {source target : PortRef} {a b : Port} {u : Unit} :
    checkPorts source target a b = .ok u ↔
      a.direction = .output ∧ b.direction = .input ∧ a.compatible b = true := by
  rw [checkPorts, Port.compatible]
  by_cases outward : a.direction = .output
  · by_cases inward : b.direction = .input
    · rw [if_neg (by simp [outward, inward])]
      cases a.medium <;> cases b.medium <;> simp [outward, inward]
    · rw [if_pos (.inr inward)]
      simp [inward]
  · rw [if_pos (.inl outward)]
    simp [outward]

/-- The first half of a plug: its two ends. -/
def checkEnds (b : Blueprint) (source target : PortRef) : Except DeskCause Unit := do
  let s ← b.template source.node
  let t ← b.template target.node
  let a ← port s source
  let c ← port t target
  checkPorts source target a c

/-- The second half of a plug: the source that the input has. -/
def feed (rewiring : Rewiring) (b : Blueprint) (source target : PortRef) :
    Except DeskCause Blueprint := do
  if let some previous := b.sources.get? target then
    if previous ≠ source ∧ rewiring = .refuse then throw (.occupied target previous)
  return { b with sources := b.sources.insert target source }

theorem plug_eq (rewiring : Rewiring) (b : Blueprint) (source target : PortRef) :
    b.plug rewiring source target =
      b.checkEnds source target >>= fun _ => b.feed rewiring source target := by
  simp only [checkEnds, bind_assoc]
  rfl

theorem checkEnds_eq_ok_iff {b : Blueprint} {source target : PortRef} {u : Unit} :
    b.checkEnds source target = .ok u ↔ Joinable (b.port? source) (b.port? target) := by
  simp only [checkEnds, ok_bind_iff, template_eq_ok_iff, port_eq_ok_iff, checkPorts_eq_ok_iff,
    Joinable, port?, Option.bind_eq_some_iff]
  constructor
  · rintro ⟨s, first, t, second, a, here, c, there, ports⟩
    exact ⟨a, c, ⟨s, first, here⟩, ⟨t, second, there⟩, ports⟩
  · rintro ⟨a, c, ⟨s, first, here⟩, ⟨t, second, there⟩, ports⟩
    exact ⟨s, first, t, second, a, here, c, there, ports⟩

theorem feed_eq_ok_iff {rewiring : Rewiring} {b b' : Blueprint} {source target : PortRef} :
    b.feed rewiring source target = .ok b' ↔ rewiring.Allows (b.sources.get? target) source ∧
      { b with sources := b.sources.insert target source } = b' := by
  rw [feed]
  cases b.sources.get? target with
  | none =>
    exact ⟨fun fed => ⟨rewiring.allows_none source, Except.ok.inj fed⟩,
      fun fed => congrArg Except.ok fed.2⟩
  | some previous =>
    by_cases refused : previous ≠ source ∧ rewiring = .refuse
    · simp only [if_pos refused]
      refine ⟨fun failed => (nomatch failed), fun fed => absurd fed.1 ?_⟩
      rw [refused.2]
      exact Rewiring.not_allows refused.1
    · simp only [if_neg refused]
      refine ⟨fun fed => ⟨?_, Except.ok.inj fed⟩, fun fed => congrArg Except.ok fed.2⟩
      rintro _ ⟨⟩ differs refuses
      exact refused ⟨differs, refuses⟩

theorem plug_eq_ok_iff {rewiring : Rewiring} {b b' : Blueprint} {source target : PortRef} :
    b.plug rewiring source target = .ok b' ↔
      (Joinable (b.port? source) (b.port? target) ∧
        rewiring.Allows (b.sources.get? target) source) ∧
      { b with sources := b.sources.insert target source } = b' := by
  rw [plug_eq, ok_bind_iff]
  simp only [checkEnds_eq_ok_iff, feed_eq_ok_iff, exists_const, and_assoc]

theorem declare_eq (library : Library) (b : Blueprint) (templateName name : String)
    (arguments : List String) : b.declare library templateName name arguments =
      (library.expandFresh (b.declared.contains name) templateName name arguments).map fun x =>
        { b with declared := b.declared.insert name x.template } := by
  rw [declare, Library.expandFresh]
  cases b.declared.contains name with
  | true => rfl
  | false => cases library.expand templateName arguments <;> rfl

end Blueprint

/-! The live graph -/

namespace Graph

variable [Number α]

def enter : Statement → Act (Graph α) Unit
  | .node templateName name arguments _ => do
    let _ ← instantiate templateName name arguments
  | .plug source target _ => do
    let _ ← plug source target

def enterAll : List Statement → Act (Graph α) Unit
  | [] => return ()
  | statement :: rest => do
    enter statement
    enterAll rest

end Graph

/-- The same nodes of the same templates, and the same source of each input. -/
structure Corresponds (b : Blueprint) (g : Graph α) : Prop where
  names : g.nodes.keys = b.declared.keys
  templates (name : String) : g.template? name = b.declared.get? name
  sources (target : PortRef) : g.plugs.get? target = b.sources.get? target

structure Tracks (library : Library) (rewiring : Rewiring) (b : Blueprint) (g : Graph α) :
    Prop extends Corresponds b g where
  library : g.library = library
  rewiring : g.rewiring = rewiring
  connects : g.backend.Connects

section Tracks

variable {library : Library} {rewiring : Rewiring} {b : Blueprint} {g : Graph α}

theorem tracks_start {backend : Backend α} (connects : backend.Connects) :
    Tracks library rewiring .empty (Graph.start library rewiring backend) where
  names := rfl
  templates _ := rfl
  sources _ := rfl
  library := rfl
  rewiring := rfl
  connects := connects

theorem Corresponds.port? (alike : Corresponds b g) (r : PortRef) : g.port? r = b.port? r := by
  rw [Graph.port?, alike.templates, Blueprint.port?]

theorem Corresponds.contains (alike : Corresponds b g) (name : String) :
    g.nodes.contains name = b.declared.contains name := by
  rw [Bool.eq_iff_iff, Table.contains_iff, Table.contains_iff, alike.names]

theorem Tracks.adds (tracks : Tracks library rewiring b g) {name : String} {t : Template}
    (free : name ∉ g.nodes.keys) {g' : Graph α} (adds : Graph.Adds name t g g') :
    Tracks library rewiring { b with declared := b.declared.insert name t } g' where
  names := by
    rw [adds.names, Table.keys_insert, ← tracks.names, if_neg free]
  templates other := by rw [adds.templates, tracks.templates, Table.get?_insert]
  sources target := by rw [adds.plugs, tracks.sources]
  library := adds.library.trans tracks.library
  rewiring := adds.rewiring.trans tracks.rewiring
  connects := by
    rw [adds.backend]
    exact tracks.connects

theorem Tracks.plugs (tracks : Tracks library rewiring b g) {source target : PortRef}
    {journal : List (Exchange α)} {plugs : Table PortRef PortRef}
    (plugged : ∀ r, plugs.get? r = if r = target then some source else g.plugs.get? r) :
    Tracks library rewiring { b with sources := b.sources.insert target source }
      { g with journal, plugs } where
  names := tracks.names
  templates := tracks.templates
  sources r := by rw [plugged, tracks.sources, Table.get?_insert]
  library := tracks.library
  rewiring := tracks.rewiring
  connects := tracks.connects

variable [Number α]

/-- What a statement comes to on both sides: a fault on both, or the same change, which a fault from
outside may keep the graph from. -/
theorem Tracks.enter (tracks : Tracks library rewiring b g) (statement : Statement) :
    (∃ fault fault' g', b.enter library rewiring statement = .error fault ∧
      (Graph.enter statement).eval g = (.error fault', g') ∧ fault'.Own) ∨
    ∃ b', b.enter library rewiring statement = .ok b' ∧
      ((∃ host g', (Graph.enter statement).eval g = (.error (.host host), g')) ∨
        ∃ g', (Graph.enter statement).Returns g () g' ∧ Tracks library rewiring b' g') := by
  simp only [Act.Returns]
  cases statement with
  | node templateName name arguments line =>
    simp only [Blueprint.enter, Blueprint.declare_eq, ← tracks.contains, Graph.enter, Act.eval_bind]
    cases expanded : library.expandFresh (g.nodes.contains name) templateName name arguments with
    | error fault =>
      rw [← tracks.library] at expanded
      rw [Graph.eval_instantiate_of_error expanded]
      exact .inl ⟨fault, fault, g, rfl, rfl, Library.owned_expandFresh _ _ _ _ _ fault expanded⟩
    | ok x =>
      rw [← tracks.library] at expanded
      obtain ⟨free, outcome⟩ := Graph.eval_instantiate_of_ok tracks.connects.steady expanded
      split at outcome
      · rw [outcome]
        exact .inr ⟨_, rfl, .inl ⟨_, _, rfl⟩⟩
      · obtain ⟨ports, g', created, adds, -⟩ := outcome
        rw [created]
        exact .inr ⟨_, rfl, .inr ⟨g', rfl, tracks.adds free adds⟩⟩
  | plug source target line =>
    simp only [Blueprint.enter, Graph.enter, Act.eval_bind]
    rcases Graph.eval_plug tracks.connects source target with
      ⟨fault, failed, own, refused⟩ | ⟨changed, journal, plugs, plugged, sources, admitted⟩
    -- What the graph looks at to settle a plug is the same in the blueprint.
    · rw [tracks.port?, tracks.port?, tracks.rewiring, tracks.sources] at refused
      rw [failed]
      cases checked : b.plug rewiring source target with
      | error cause => exact .inl ⟨_, fault, g, rfl, rfl, own⟩
      | ok b' => exact absurd (Blueprint.plug_eq_ok_iff.1 checked).1 refused
    · rw [tracks.port?, tracks.port?, tracks.rewiring, tracks.sources] at admitted
      rw [Blueprint.plug_eq_ok_iff.2 ⟨admitted, rfl⟩, plugged]
      exact .inr ⟨_, rfl, .inr ⟨_, rfl, tracks.plugs sources⟩⟩

theorem Tracks.enterAll {statements : List Statement} {b' : Blueprint} {g' : Graph α}
    (tracks : Tracks library rewiring b g)
    (checked : b.enterAll library rewiring statements = .ok b')
    (created : (Graph.enterAll statements).Returns g () g') : Tracks library rewiring b' g' := by
  -- Both sides take the first statement, and a fault on either of them is ruled out.
  induction statements generalizing b g with
  | nil =>
    cases checked
    cases created
    exact tracks
  | cons statement rest ih =>
    rw [Blueprint.enterAll, List.foldlM_cons] at checked
    obtain ⟨b₁, entered, checked⟩ := ok_bind_iff.1 checked
    rw [ok_mapError_iff] at entered
    rw [Graph.enterAll, Act.returns_bind] at created
    obtain ⟨_, g₁, returned, created⟩ := created
    obtain ⟨_, _, _, failed, -⟩ | ⟨b₂, passed, ⟨host, _, failed⟩ | ⟨g₂, created₂, tracks₂⟩⟩ :=
      tracks.enter statement
    · rw [failed] at entered
      cases entered
    · rw [Act.Returns, failed] at returned
      cases returned
    · obtain rfl := Except.ok.inj (entered.symm.trans passed)
      obtain ⟨-, rfl⟩ := returned.determined created₂
      exact ih tracks₂ checked created

theorem Tracks.rejects (tracks : Tracks library rewiring b g) (statement : Statement) :
    (∃ fault, b.enter library rewiring statement = .error fault) ↔
      ∃ fault g', (Graph.enter statement).eval g = (.error fault, g') ∧ fault.Own := by
  obtain ⟨fault, fault', g', refused, failed, own⟩ | ⟨b', passed, outcome⟩ := tracks.enter statement
  · exact ⟨fun _ => ⟨fault', g', failed, own⟩, fun _ => ⟨fault, refused⟩⟩
  · refine ⟨fun ⟨fault, refused⟩ => ?_, fun ⟨fault, g', failed, own⟩ => ?_⟩
    · cases passed.symm.trans refused
    · obtain ⟨host, _, foreign⟩ | ⟨_, returned, -⟩ := outcome
      · cases failed.symm.trans foreign
        exact absurd rfl (own host)
      · cases failed.symm.trans returned

end Tracks

/-! Building a show -/

def Statement.declares? : Statement → Option (String × String)
  | .node templateName name _ _ => some (name, templateName)
  | .plug .. => none

theorem Blueprint.keys_enter {library : Library} {rewiring : Rewiring} {b b' : Blueprint}
    {statement : Statement} (entered : b.enter library rewiring statement = .ok b') :
    b'.declared.keys = b.declared.keys ++ (statement.declares?.map Prod.fst).toList := by
  cases statement with
  | node templateName name arguments line =>
    simp only [enter, declare_eq, Library.expandFresh] at entered
    split at entered
    · cases entered
    · next free =>
      cases expanded : library.expand templateName arguments with
      | error fault =>
        rw [expanded] at entered
        cases entered
      | ok x =>
        rw [expanded] at entered
        cases entered
        exact (Table.keys_insert ..).trans (if_neg (mt Table.contains_iff.2 free))
  | plug source target line =>
    rw [enter, ok_mapError_iff] at entered
    obtain ⟨-, rfl⟩ := plug_eq_ok_iff.1 entered
    exact (List.append_nil _).symm

theorem Blueprint.keys_enterAll {library : Library} {rewiring : Rewiring} {b b' : Blueprint}
    {statements : List Statement} (checked : b.enterAll library rewiring statements = .ok b') :
    b'.declared.keys =
      b.declared.keys ++ (statements.filterMap Statement.declares?).map Prod.fst := by
  induction statements generalizing b with
  | nil =>
    cases checked
    exact (List.append_nil _).symm
  | cons statement rest ih =>
    rw [enterAll, List.foldlM_cons] at checked
    obtain ⟨b₁, entered, checked⟩ := ok_bind_iff.1 checked
    rw [ok_mapError_iff] at entered
    rw [ih checked, keys_enter entered, List.append_assoc, List.filterMap_cons]
    cases statement.declares? <;> rfl

variable [Number α]

theorem Show.returns_createAll_cons {statement : Statement} {rest : List Statement}
    {s t : Show α} (created : (createAll (statement :: rest)).Returns s () t) :
    ∃ s₁, (Graph.enter statement).Returns s.graph () s₁.graph ∧
      (createAll rest).Returns s₁ () t := by
  cases statement with
  | node templateName name arguments line =>
    simp only [createAll, onGraph, onDesk, Desk.onGraph, Act.returns_bind, Act.returns_zoom]
      at created
    obtain ⟨ports, s₁, ⟨d, ⟨g, returned, rfl⟩, rfl⟩, created⟩ := created
    refine ⟨_, ?_, created⟩
    rw [Graph.enter, Act.returns_bind]
    exact ⟨ports, g, returned, rfl⟩
  | plug source target line =>
    simp only [createAll, onGraph, onDesk, Desk.onGraph, Act.returns_bind, Act.returns_zoom]
      at created
    obtain ⟨changed, s₁, ⟨d, ⟨g, returned, rfl⟩, rfl⟩, created⟩ := created
    refine ⟨_, ?_, created⟩
    rw [Graph.enter, Act.returns_bind]
    exact ⟨changed, g, returned, rfl⟩

theorem Show.returns_createAll {statements : List Statement} {s t : Show α}
    (created : (createAll statements).Returns s () t) :
    (Graph.enterAll statements).Returns s.graph () t.graph := by
  induction statements generalizing s with
  | nil =>
    cases created
    rfl
  | cons statement rest ih =>
    obtain ⟨s₁, first, more⟩ := returns_createAll_cons created
    rw [Graph.enterAll, Act.returns_bind]
    exact ⟨(), s₁.graph, first, ih more⟩

omit [Number α] in
theorem Program.blueprint_of_check {program : Program α} {rewiring : Rewiring} {report : Report}
    (checked : program.check rewiring = .ok report) :
    ∃ b, Blueprint.empty.enterAll program.templates rewiring program.statements = .ok b ∧
      report.plugs = b.sources.toList.map Prod.swap ∧
      report.nodes = program.statements.filterMap Statement.declares? := by
  obtain ⟨b, entered, checked⟩ := ok_bind_iff.1 checked
  obtain ⟨clocks, -, checked⟩ := ok_bind_iff.1 checked
  cases checked
  refine ⟨b, entered, rfl, ?_⟩
  exact congrArg (fun f => program.statements.filterMap f) (funext fun statement => by
    cases statement <;> rfl)

theorem Show.built_of_build {program : Program α} {config : Config α} {backend : Backend α}
    {report : Report} {s : Show α}
    (built : build.Returns (ofProgram program config backend) report s) :
    program.check config.rewiring = .ok report ∧
      (Graph.enterAll program.statements).Returns
        (Graph.start program.templates config.rewiring backend) () s.graph := by
  simp only [build, Act.returns_bind, Act.returns_get] at built
  obtain ⟨_, _, ⟨rfl, rfl⟩, built⟩ := built
  simp only [ofProgram, Program.validate, Act.returns_bind, Act.returns_ofExcept, Act.returns_info,
    Act.returns_pure, Act.returns_modify] at built
  obtain ⟨_, _, ⟨_, _, ⟨checked, rfl⟩, _, _, rfl, rfl, rfl⟩, _, t, created, _, _, rfl, rfl, rfl⟩ :=
    built
  exact ⟨checked, returns_createAll created⟩

/-- The check of a program and the live graph agree. After any statements that pass on both sides,
both have the same nodes of the same templates and the same plugs, and they reject the same
statements next. So the report of a build tells the nodes and the plugs of the graph. -/
theorem checks_agree_with_graph (program : Program α) (config : Config α) {backend : Backend α}
    (connects : backend.Connects) :
    (∀ statements b g,
      Blueprint.empty.enterAll program.templates config.rewiring statements = .ok b →
      (Graph.enterAll statements).Returns
        (Graph.start program.templates config.rewiring backend) () g →
      Corresponds b g ∧ ∀ statement,
        (∃ fault, b.enter program.templates config.rewiring statement = .error fault) ↔
          ∃ fault g', (Graph.enter statement).eval g = (.error fault, g') ∧ fault.Own) ∧
    ∀ report s, Show.build.Returns (Show.ofProgram program config backend) report s →
      s.graph.edges.Perm report.plugs ∧ s.graph.nodes.keys = report.nodes.map Prod.fst := by
  refine ⟨fun statements b g checked created => ?_, fun report s built => ?_⟩
  · have tracks := (tracks_start connects).enterAll checked created
    exact ⟨tracks.toCorresponds, tracks.rejects⟩
  · obtain ⟨checked, created⟩ := Show.built_of_build built
    obtain ⟨b, entered, plugs, nodes⟩ := Program.blueprint_of_check checked
    have tracks := (tracks_start connects).enterAll entered created
    refine ⟨?_, ?_⟩
    -- A rewired input has moved to the end of the graph's table, so only the order may differ.
    · rw [plugs]
      exact (Table.toList_perm tracks.sources).map Prod.swap
    · rw [nodes, tracks.names, Blueprint.keys_enterAll entered]
      rfl

namespace Sample

def plugging : Program Scalar :=
  let layout : Pipeline.Layout := ⟨"", [], []⟩
  let output := Table.empty.insert "out" ⟨"out", .output, some .video⟩
  let input := Table.empty.insert "in" ⟨"in", .input, none⟩
  ⟨.ofList [("p", ⟨"p", 1, layout, [], output, .empty, false⟩),
      ("q", ⟨"q", 1, layout, [], input, .empty, false⟩)],
    [.node "p" "a" [] 1, .node "p" "b" [] 2, .node "q" "c" [] 3,
      .plug ⟨"a", "out"⟩ ⟨"c", "in"⟩ 4, .plug ⟨"b", "out"⟩ ⟨"c", "in"⟩ 5], []⟩

end Sample

theorem checks_agree_with_graph_sample :
    let p := Sample.plugging
    let backend : Backend Scalar := .obliging
    backend.Connects ∧
      (∃ b g,
        Blueprint.empty.enterAll p.templates .replace p.statements = .ok b ∧
        (Graph.enterAll p.statements).Returns (Graph.start p.templates .replace backend) () g ∧
        Corresponds b g ∧ ∀ statement,
          (∃ fault, b.enter p.templates .replace statement = .error fault) ↔
            ∃ fault g', (Graph.enter statement).eval g = (.error fault, g') ∧ fault.Own) ∧
      ∃ report s, Show.build.Returns (Show.ofProgram p .standard backend) report s ∧
        s.graph.edges.Perm report.plugs ∧ s.graph.nodes.keys = report.nodes.map Prod.fst := by
  intro p backend
  have connects : backend.Connects := Backend.connects_obliging
  have checks : ((Blueprint.empty.enterAll p.templates .replace p.statements).isOk &&
      ((Graph.enterAll p.statements).eval (Graph.start p.templates .replace backend)).1.isOk &&
      (Show.build.eval (Show.ofProgram p .standard backend)).1.isOk) = true := by
    decide +kernel
  simp only [Bool.and_eq_true] at checks
  obtain ⟨⟨passed, created⟩, built⟩ := checks
  obtain ⟨_, created⟩ := Act.exists_returns_of_isOk created
  obtain ⟨report, built⟩ := Act.exists_returns_of_isOk built
  have law := checks_agree_with_graph p .standard connects
  cases checked : Blueprint.empty.enterAll p.templates .replace p.statements with
  | error fault =>
    rw [checked] at passed
    cases passed
  | ok b =>
    exact ⟨connects, ⟨b, _, rfl, created, law.1 _ b _ checked created⟩, report, _, built,
      law.2 report _ built⟩

end ShowControl
