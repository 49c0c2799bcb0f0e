import ShowControl.Proofs.Graph.Effect

/-! The plugs of a graph and the connections of the backend mirror each other. -/

set_option autoImplicit false
namespace ShowControl

variable {α : Type}

namespace Graph

variable {who : Option String} {g g' : Graph α}

/-- The end of a plug that the backend means by a socket. -/
def named (g : Graph α) (s : Socket) : Option PortRef :=
  (g.resolve s.handle).map fun name => ⟨name, s.port⟩

def wires (g : Graph α) : List (Socket × Socket) :=
  g.edges.map fun e => (g.socket e.1, g.socket e.2)

theorem mem_edges_iff {source target : PortRef} :
    (source, target) ∈ g.edges ↔ g.plugs.get? target = some source := by
  rw [← Table.mem_toList_iff, edges, List.mem_map]
  constructor
  · rintro ⟨⟨t, s⟩, member, same⟩
    cases same
    exact member
  · intro member
    exact ⟨(target, source), member, rfl⟩

theorem nodup_edges (g : Graph α) : (g.edges.map Prod.snd).Nodup := by
  rw [edges, List.map_map]
  exact g.plugs.distinct

theorem live_of_port {r : PortRef} {p : Port} (has : g.port? r = some p) :
    ∃ node, g.nodes.get? r.node = some node := by
  obtain ⟨t, template, -⟩ := Option.bind_eq_some_iff.1 has
  obtain ⟨node, live, -⟩ := Option.map_eq_some_iff.1 template
  exact ⟨node, live⟩

theorem live_of_joinable {source target : PortRef}
    (joinable : Joinable (g.port? source) (g.port? target)) :
    (∃ node, g.nodes.get? source.node = some node) ∧
      ∃ node, g.nodes.get? target.node = some node := by
  obtain ⟨a, b, out, into, -⟩ := joinable
  exact ⟨live_of_port out, live_of_port into⟩

theorem socket_of_live {r : PortRef} {node : Node α} (live : g.nodes.get? r.node = some node) :
    g.socket r = ⟨node.handle, r.port⟩ := by
  rw [socket, live]

/-! What is there stays -/

namespace Effect

variable (effect : Effect who g g')
include effect

theorem socket {r : PortRef} (live : ∃ node, g.nodes.get? r.node = some node) :
    g'.socket r = g.socket r := by
  obtain ⟨node, live⟩ := live
  obtain ⟨later, stays, same⟩ := effect.stays live
  rw [socket_of_live live, socket_of_live stays, same.handle]

theorem port {r : PortRef} {p : Port} (has : g.port? r = some p) : g'.port? r = some p := by
  obtain ⟨node, live⟩ := live_of_port has
  obtain ⟨later, stays, same⟩ := effect.stays live
  rw [port?, template?, live] at has
  rw [port?, template?, stays]
  show later.template.ports.get? r.port = some p
  rw [same.template]
  exact has

theorem joinable {source target : PortRef} (joinable : Joinable (g.port? source) (g.port? target)) :
    Joinable (g'.port? source) (g'.port? target) := by
  obtain ⟨a, b, out, into, media⟩ := joinable
  exact ⟨a, b, effect.port out, effect.port into, media⟩

end Effect

namespace Named

theorem socket_inj (named : Named g) {r r' : PortRef} (live : ∃ node, g.nodes.get? r.node = some node)
    (live' : ∃ node, g.nodes.get? r'.node = some node) (same : g.socket r = g.socket r') :
    r = r' := by
  obtain ⟨node, live⟩ := live
  obtain ⟨node', live'⟩ := live'
  rw [socket_of_live live, socket_of_live live', Socket.mk.injEq] at same
  obtain ⟨name, port⟩ := r
  obtain ⟨name', port'⟩ := r'
  obtain rfl : name = name' := named.unique live live' same.1
  exact congrArg _ same.2

theorem named_socket (named : Named g) {r : PortRef} (live : ∃ node, g.nodes.get? r.node = some node) :
    g.named (g.socket r) = some r := by
  obtain ⟨node, live⟩ := live
  rw [socket_of_live live]
  simp only [Graph.named, resolve, named.found r.node node live, Option.map_some]

end Named

/-! The mirror -/

/-- Each plug joins two ports that go together, and the backend, which was told nothing unfit, has
connected just the plugs. -/
structure Mirrored (g : Graph α) : Prop extends Named g where
  steady : g.backend.Steady
  joinable (source target : PortRef) : (source, target) ∈ g.edges →
    Joinable (g.port? source) (g.port? target)
  connected : connections g.journal = g.wires
  lawful : Lawful g.journal

theorem mirrored_start {library : Library} {rewiring : Rewiring} {backend : Backend α}
    (steady : backend.Steady) (distinct : backend.Distinct) :
    Mirrored (start library rewiring backend) where
  toNamed := named_start distinct
  steady := steady
  joinable source target member := by cases member
  connected := rfl
  lawful := lawful_nil

theorem Mirrored.wires_eq (mirrored : Mirrored g) (effect : Effect who g g')
    (kept : g'.edges = g.edges) : g'.wires = g.wires := by
  rw [wires, wires, kept]
  refine List.map_congr_left fun e member => ?_
  obtain ⟨live, live'⟩ := live_of_joinable (mirrored.joinable e.1 e.2 member)
  rw [effect.socket live, effect.socket live']

theorem Mirrored.quiet (mirrored : Mirrored g) (effect : Effect who g g') (kept : g'.edges = g.edges)
    {e : Exchange α} (told : g'.journal = g.journal ++ [e]) (fits : e.Fits g.wires)
    (quiet : ∀ live, e.rewire live = live) : Mirrored g' where
  toNamed := mirrored.toNamed.effect effect
  steady := by
    rw [effect.backend]
    exact mirrored.steady
  joinable source target member := by
    rw [kept] at member
    exact effect.joinable (mirrored.joinable source target member)
  connected := by
    rw [told, connections_append, quiet, mirrored.connected, mirrored.wires_eq effect kept]
  lawful := by
    rw [told]
    refine mirrored.lawful.append ?_
    rw [mirrored.connected]
    exact fits

theorem Mirrored.connects (mirrored : Mirrored g) {source target : PortRef}
    (joinable : Joinable (g.port? source) (g.port? target)) (free : g.plugs.get? target = none)
    (done : g.backend.reply g.journal (.connect (g.socket source) (g.socket target)) = .done) :
    Mirrored ((g.told (.connect (g.socket source) (g.socket target))).replug
      (g.plugs.insert target source)) := by
  have effect : Effect none g _ := .connects joinable free done
  have edges : ((g.told (.connect (g.socket source) (g.socket target))).replug
      (g.plugs.insert target source)).edges = g.edges ++ [(source, target)] := by
    rw [Graph.edges, replug, Table.toList_insert_of_free free, List.map_append]
    rfl
  -- An input without a plug has no connection, since sockets tell the inputs apart.
  have unfed : g.socket target ∉ g.wires.map Prod.snd := by
    intro member
    rw [wires, List.map_map] at member
    obtain ⟨⟨source', target'⟩, fed, same⟩ := List.mem_map.1 member
    have live := (live_of_joinable joinable).2
    have live' := (live_of_joinable (mirrored.joinable source' target' fed)).2
    obtain rfl : target' = target := mirrored.socket_inj live' live same
    rw [mem_edges_iff, free] at fed
    cases fed
  refine ⟨mirrored.toNamed.effect effect, mirrored.steady, fun source' target' member => ?_, ?_, ?_⟩
  · rw [edges, List.mem_append, List.mem_singleton] at member
    rcases member with before | now
    · exact mirrored.joinable source' target' before
    · cases now
      exact joinable
  · show connections (g.journal ++ [_]) = _
    rw [connections_append, mirrored.connected, wires, wires, edges, List.map_append]
    exact if_pos done
  · refine mirrored.lawful.append fun _ => ?_
    rw [mirrored.connected]
    exact ⟨fun member => unfed (List.mem_map.2 ⟨_, member, rfl⟩), unfed⟩

theorem Mirrored.disconnects (mirrored : Mirrored g) {source target : PortRef}
    (plugged : g.plugs.get? target = some source) :
    Mirrored ((g.told (.disconnect (g.socket source) (g.socket target))).replug
      (g.plugs.erase target)) := by
  have effect : Effect none g _ := .disconnects plugged
  have fed : (source, target) ∈ g.edges := mem_edges_iff.2 plugged
  have live := (live_of_joinable (mirrored.joinable source target fed)).2
  have edges : ((g.told (.disconnect (g.socket source) (g.socket target))).replug
      (g.plugs.erase target)).edges = g.edges.filter fun e => e.2 ≠ target := by
    rw [Graph.edges, Graph.edges, List.filter_map]
    rfl
  refine ⟨mirrored.toNamed.effect effect, mirrored.steady, fun source' target' member => ?_, ?_, ?_⟩
  · rw [edges] at member
    exact mirrored.joinable source' target' (List.mem_filter.1 member).1
  · show connections (g.journal ++ [_]) = _
    rw [connections_append, mirrored.connected, wires, wires, edges]
    refine (if_pos (mirrored.steady.returned _ _)).trans ?_
    rw [List.filter_map]
    refine congrArg _ (List.filter_congr fun ⟨source', target'⟩ member => ?_)
    -- The connection of a plug is the one that is taken apart if the plug is.
    have same : (g.socket source', g.socket target') = (g.socket source, g.socket target) ↔
        target' = target := by
      constructor
      · intro same
        have live' := (live_of_joinable (mirrored.joinable source' target' member)).2
        exact mirrored.socket_inj live' live (congrArg Prod.snd same)
      · rintro rfl
        rw [mem_edges_iff, plugged] at member
        cases member
        rfl
    exact decide_eq_decide.2 (not_congr same)
  · refine mirrored.lawful.append ?_
    rw [mirrored.connected]
    exact List.mem_map.2 ⟨_, fed, rfl⟩

theorem Mirrored.effect (effect : Effect who g g') (mirrored : Mirrored g) : Mirrored g' := by
  have made := effect
  cases effect with
  | fails call failed =>
    rw [mirrored.steady.returned] at failed
    cases failed
  | @changes name node call change own live changes returned =>
    have fits : (⟨call, g.backend.reply g.journal call⟩ : Exchange α).Fits g.wires := by
      cases changes <;> exact trivial
    refine mirrored.quiet made rfl rfl fits fun _ => ?_
    cases changes <;> rfl
  | creates | spoils => exact mirrored.quiet made rfl rfl trivial fun _ => rfl
  | refuses refused =>
    refine mirrored.quiet made rfl rfl (fun done => ?_) fun _ => if_neg fun done => ?_
    · rw [refused] at done
      cases done
    · rw [refused] at done
      cases done
  | connects joinable free done => exact mirrored.connects joinable free done
  | disconnects plugged => exact mirrored.disconnects plugged

end Graph

variable [Number α]

/-- Whatever a graph is told to do, each plug joins an output to an input that it goes with, and no
input has two sources. The connections that the backend accepted, less those that it was told to take
apart, are just the plugs; and no command was unfit when it was given. -/
theorem plugs_mirror_connections (library : Library) (rewiring : Rewiring) {backend : Backend α}
    (steady : backend.Steady) (distinct : backend.Distinct)
    (operations : List (Graph.Operation α)) :
    let g := (Graph.start library rewiring backend).after operations
    (∀ source target, (source, target) ∈ g.edges → Joinable (g.port? source) (g.port? target)) ∧
      (g.edges.map Prod.snd).Nodup ∧
      (connections g.journal).map (fun c => (g.named c.1, g.named c.2)) =
        g.edges.map (fun e => (some e.1, some e.2)) ∧
      (∀ before after, g.journal = before ++ after →
        ((connections before).map Prod.snd).Nodup) ∧ Lawful g.journal := by
  intro g
  have mirrored : g.Mirrored := Graph.after_preserves operations
    (fun _ _ _ effect held => held.effect effect) (Graph.mirrored_start steady distinct)
  refine ⟨mirrored.joinable, g.nodup_edges, ?_, fun before after split => ?_, mirrored.lawful⟩
  · rw [mirrored.connected, Graph.wires, List.map_map]
    refine List.map_congr_left fun e member => ?_
    obtain ⟨live, live'⟩ := Graph.live_of_joinable (mirrored.joinable e.1 e.2 member)
    exact Prod.ext (mirrored.named_socket live) (mirrored.named_socket live')
  · have lawful := mirrored.lawful
    rw [split] at lawful
    exact lawful.of_append.nodup

namespace Sample

def choosy : Backend Scalar where
  reply _ call := match call with
    | .connect ⟨.name "b", _⟩ _ => .refused
    | _ => .done
  handleFor _ := .name

def jacks : Library :=
  let output := Table.empty.insert "out" ⟨"out", .output, some .video⟩
  let input := Table.empty.insert "in" ⟨"in", .input, none⟩
  .ofList [("p", ⟨"p", 1, ⟨"", [], []⟩, [], output, .empty, false⟩),
    ("q", ⟨"q", 1, ⟨"", [], []⟩, [], input, .empty, false⟩)]

def patching : List (Graph.Operation Scalar) :=
  [.instantiate "p" "a" [], .instantiate "p" "b" [], .instantiate "q" "c" [],
    .plug ⟨"a", "out"⟩ ⟨"c", "in"⟩, .plug ⟨"b", "out"⟩ ⟨"c", "in"⟩, .plug ⟨"a", "out"⟩ ⟨"c", "in"⟩]

end Sample

/-- The sample input with the backend that refuses one of its sources. -/
theorem plugs_mirror_connections_sample :
    let g := (Graph.start Sample.jacks .replace Sample.choosy).after Sample.patching
    Sample.choosy.Steady ∧ Sample.choosy.Distinct ∧
      (g.edges = [(⟨"a", "out"⟩, ⟨"c", "in"⟩)] ∧ g.journal.length = 7) ∧
      (∀ source target, (source, target) ∈ g.edges →
        Joinable (g.port? source) (g.port? target)) ∧
      (g.edges.map Prod.snd).Nodup ∧
      (connections g.journal).map (fun c => (g.named c.1, g.named c.2)) =
        g.edges.map (fun e => (some e.1, some e.2)) ∧
      (∀ before after, g.journal = before ++ after →
        ((connections before).map Prod.snd).Nodup) ∧ Lawful g.journal := by
  intro g
  have steady : Sample.choosy.Steady := by
    intro journal call text
    dsimp only [Sample.choosy]
    split <;> exact nofun
  have distinct : Sample.choosy.Distinct := Backend.distinct_of_name fun _ _ => rfl
  exact ⟨steady, distinct, by decide +kernel,
    plugs_mirror_connections Sample.jacks .replace steady distinct Sample.patching⟩

end ShowControl
