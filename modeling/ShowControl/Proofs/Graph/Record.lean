import ShowControl.Proofs.Graph.Effect

/-! The state of each node is what the commands make it that the backend took. -/

set_option autoImplicit false
namespace ShowControl

variable {α : Type}

def segment? : List α → Option (α × α)
  | [start, stop] => some (start, stop)
  | _ => none

/-- A window that was placed and shown by these commands, and was first as the settings say. -/
structure Window.Follows (h : Handle) (journal : List (Exchange α)) (first w : Window) : Prop where
  place : (w.x, w.y) = (lastTaken (Call.place? h) journal).getD (first.x, first.y)
  width : w.width = first.width
  height : w.height = first.height
  visible : w.visible = true ↔ .showWindow h ∈ taken journal

structure Node.Follows (node : Node α) (journal : List (Exchange α)) : Prop where
  transport : node.transport =
    (lastTaken (Call.state? node.handle) journal).getD .stopped
  segment : node.segment = (lastTaken (Call.seek? node.handle) journal).bind segment?
  properties (element property : String) : node.properties.get? element property =
    lastTaken (Call.value? node.handle element property) journal
  window (w : Window) : node.window = some w →
    ∃ first, Window.ofSettings node.settings = .ok first ∧
      Window.Follows node.handle journal first w

theorem visible_of_ofSettings {settings : Table String PropertyValue} {w : Window}
    (described : Window.ofSettings settings = .ok w) : w.visible = false := by
  obtain ⟨x, -, described⟩ := ok_bind_iff.1 described
  obtain ⟨y, -, described⟩ := ok_bind_iff.1 described
  obtain ⟨width, -, described⟩ := ok_bind_iff.1 described
  obtain ⟨height, -, described⟩ := ok_bind_iff.1 described
  cases described
  rfl

theorem Window.Follows.pass {h : Handle} {journal : List (Exchange α)} {first w : Window}
    (follows : Window.Follows h journal first w) {e : Exchange α} (other :
      e.reply.returned = true → Call.place? h e.call = none ∧ e.call ≠ .showWindow h) :
    Window.Follows h (journal ++ [e]) first w := by
  refine ⟨?_, follows.width, follows.height, ?_⟩
  · rw [lastTaken_pass journal fun returned => (other returned).1]
    exact follows.place
  · rw [taken_append, follows.visible]
    split
    · next returned => simp [(other returned).2.symm]
    · rfl

namespace Node

theorem follows_of_ofExpansion {name : String} {h : Handle} {x : Expansion} {node : Node α}
    (made : ofExpansion name h x = .ok node) {journal : List (Exchange α)}
    (silent : ∀ call ∈ taken journal, call.addressee? ≠ some h) : node.Follows journal := by
  obtain ⟨window, rfl, -, described⟩ := Graph.eq_of_ofExpansion made
  have unsaid {β : Type} {read : Call α → Option β} (about : Call.About h read) :
      lastTaken read journal = none :=
    lastTaken_of_silent fun call took => about call (silent call took)
  constructor
  · rw [unsaid (Call.about_state? h)]
    rfl
  · rw [unsaid (Call.about_seek? h)]
    rfl
  · intro element property
    rw [unsaid (Call.about_value? h element property)]
    rfl
  · intro w given
    refine ⟨w, described w given, ?_, rfl, rfl, ?_⟩
    · rw [unsaid (Call.about_place? h)]
      rfl
    · rw [visible_of_ofSettings (described w given)]
      exact ⟨nofun, fun took => absurd rfl (silent _ took)⟩

namespace Follows

variable {node : Node α} {journal : List (Exchange α)} (follows : node.Follows journal)
include follows

/-! What a command that says nothing of a part leaves of it -/

section Pass

variable {e : Exchange α}

theorem transport_pass (silent : e.reply.returned = true → Call.state? node.handle e.call = none) :
    node.transport =
      (lastTaken (Call.state? node.handle) (journal ++ [e])).getD .stopped := by
  rw [lastTaken_pass journal silent]
  exact follows.transport

theorem segment_pass (silent : e.reply.returned = true → Call.seek? node.handle e.call = none) :
    node.segment = (lastTaken (Call.seek? node.handle) (journal ++ [e])).bind segment? := by
  rw [lastTaken_pass journal silent]
  exact follows.segment

theorem properties_pass {element property : String} (silent :
      e.reply.returned = true → Call.value? node.handle element property e.call = none) :
    node.properties.get? element property =
      lastTaken (Call.value? node.handle element property) (journal ++ [e]) := by
  rw [lastTaken_pass journal silent]
  exact follows.properties element property

theorem window_pass (silent : e.reply.returned = true →
      Call.place? node.handle e.call = none ∧ e.call ≠ .showWindow node.handle)
    (w : Window) (given : node.window = some w) :
    ∃ first, Window.ofSettings node.settings = .ok first ∧
      Window.Follows node.handle (journal ++ [e]) first w := by
  obtain ⟨first, described, placed⟩ := follows.window w given
  exact ⟨first, described, placed.pass silent⟩

theorem pass (other : e.reply.returned = true → e.call.addressee? ≠ some node.handle) :
    node.Follows (journal ++ [e]) := by
  have silent {β : Type} {read : Call α → Option β} (about : Call.About node.handle read)
      (returned : e.reply.returned = true) : read e.call = none :=
    about e.call (other returned)
  refine ⟨follows.transport_pass (silent (Call.about_state? _)),
    follows.segment_pass (silent (Call.about_seek? _)),
    fun element property => follows.properties_pass (silent (Call.about_value? _ _ _)),
    follows.window_pass fun returned => ⟨silent (Call.about_place? _) returned, fun same => ?_⟩⟩
  refine other returned ?_
  rw [same]
  rfl

end Pass

/-! What a command to the node makes of it -/

section Obey

variable {reply : Reply} (returned : reply.returned = true)
include returned

theorem command (verb : Verb) (arguments : List α) : (node.command verb arguments).Follows
    (journal ++ [⟨.transport node.handle verb arguments, reply⟩]) := by
  cases verb with
  | seek =>
    refine ⟨follows.transport_pass fun _ => if_pos rfl, ?_,
      fun _ _ => follows.properties_pass fun _ => rfl, follows.window_pass fun _ => ⟨rfl, nofun⟩⟩
    show segment? arguments = (lastTaken (Call.seek? node.handle) _).bind segment?
    rw [lastTaken_of_returned _ journal returned, Call.seek?, if_pos rfl]
    rfl
  | start | pause | stop =>
    refine ⟨?_, follows.segment_pass fun _ => rfl,
      fun _ _ => follows.properties_pass fun _ => rfl, follows.window_pass fun _ => ⟨rfl, nofun⟩⟩
    show _ = (lastTaken (Call.state? node.handle) _).getD .stopped
    rw [lastTaken_of_returned _ journal returned, Call.state?, if_pos rfl]
    rfl

theorem setProperty (element property : String) (v : PropertyValue) :
    (node.setProperty element property v).Follows
      (journal ++ [⟨.setProperty node.handle element property v, reply⟩]) := by
  refine ⟨follows.transport_pass fun _ => rfl, follows.segment_pass fun _ => rfl, fun e p => ?_,
    follows.window_pass fun _ => ⟨rfl, nofun⟩⟩
  show (node.properties.set element property v).get? e p =
    lastTaken (Call.value? node.handle e p) _
  rw [lastTaken_of_returned _ journal returned, Settings.get?_set, Call.value?]
  by_cases same : element = e ∧ property = p
  · obtain ⟨rfl, rfl⟩ := same
    rw [if_pos ⟨rfl, rfl, rfl⟩, Function.update_self, Function.update_self]
    rfl
  · rw [if_neg fun here => same here.2, Option.none_or, ← follows.properties e p]
    by_cases inside : e = element
    · subst inside
      rw [Function.update_self, Function.update_of_ne fun here => same ⟨rfl, here.symm⟩]
    · rw [Function.update_of_ne inside]

theorem showWindow : node.showWindow.Follows (journal ++ [⟨.showWindow node.handle, reply⟩]) := by
  refine ⟨follows.transport_pass fun _ => rfl, follows.segment_pass fun _ => rfl,
    fun _ _ => follows.properties_pass fun _ => rfl, fun w given => ?_⟩
  obtain ⟨before, had, rfl⟩ := Option.map_eq_some_iff.1 given
  obtain ⟨first, described, placed⟩ := follows.window before had
  refine ⟨first, described, ?_, placed.width, placed.height, ?_⟩
  · show _ = (lastTaken (Call.place? node.handle) _).getD _
    rw [lastTaken_pass journal fun _ => rfl]
    exact placed.place
  · show true = true ↔ Call.showWindow node.handle ∈ _
    rw [taken_append, if_pos returned]
    simp

theorem moveWindow (x y : Int) :
    (node.moveWindow x y).Follows (journal ++ [⟨.moveWindow node.handle x y, reply⟩]) := by
  refine ⟨follows.transport_pass fun _ => rfl, follows.segment_pass fun _ => rfl,
    fun _ _ => follows.properties_pass fun _ => rfl, fun w given => ?_⟩
  obtain ⟨before, had, rfl⟩ := Option.map_eq_some_iff.1 given
  obtain ⟨first, described, placed⟩ := follows.window before had
  refine ⟨first, described, ?_, placed.width, placed.height, ?_⟩
  · show (x, y) = (lastTaken (Call.place? node.handle) _).getD _
    rw [lastTaken_of_returned _ journal returned, Call.place?, if_pos rfl]
    rfl
  · show before.visible = true ↔ Call.showWindow node.handle ∈ _
    rw [taken_append, if_pos returned, placed.visible]
    simp

theorem obey {call : Call α} {change : Node α → Node α}
    (changes : call.Changes node.handle change) :
    (change node).Follows (journal ++ [⟨call, reply⟩]) := by
  cases changes with
  | transport verb arguments => exact follows.command returned verb arguments
  | property element property v => exact follows.setProperty returned element property v
  | «show» => exact follows.showWindow returned
  | move x y => exact follows.moveWindow returned x y

end Obey

end Follows

end Node

/-! Graphs -/

namespace Graph

def Created (g : Graph α) (node : Node α) : Prop :=
  ∃ template arguments x, g.library.expand template arguments = .ok x ∧
    .create node.name template x.template.layout.description ∈ taken g.journal ∧
    node.template = x.template ∧ node.arguments = x.arguments ∧ node.settings = x.node ∧
    node.window.isSome = x.template.hasWindow

/-- Each node is as it was created but for the commands that the backend took. -/
structure Recorded (g : Graph α) : Prop extends Named g where
  created (name : String) (node : Node α) : g.nodes.get? name = some node →
    node.name = name ∧ g.Created node
  follows (name : String) (node : Node α) : g.nodes.get? name = some node → node.Follows g.journal
  addressed (call : Call α) (h : Handle) : call ∈ taken g.journal → call.addressee? = some h →
    ∃ name node, g.nodes.get? name = some node ∧ node.handle = h

theorem recorded_start {library : Library} {rewiring : Rewiring} {backend : Backend α}
    (distinct : backend.Distinct) : Recorded (start library rewiring backend) where
  toNamed := named_start distinct
  created name node live := by cases live
  follows name node live := by cases live
  addressed call h took := by cases took

theorem mem_taken_of_mem {journal : List (Exchange α)} {call : Call α} (took : call ∈ taken journal)
    (e : Exchange α) : call ∈ taken (journal ++ [e]) := by
  rw [taken_append]
  split
  · exact List.mem_append_left _ took
  · exact took

theorem Created.told {g : Graph α} {node : Node α} (created : g.Created node) (call : Call α) :
    (g.told call).Created node := by
  obtain ⟨template, arguments, x, expanded, took, made⟩ := created
  exact ⟨template, arguments, x, expanded, mem_taken_of_mem took _, made⟩

theorem Created.same {g : Graph α} {node node' : Node α} (created : g.Created node)
    (same : node.Same node') : g.Created node' := by
  obtain ⟨template, arguments, x, expanded, took, made⟩ := created
  refine ⟨template, arguments, x, expanded, ?_, ?_⟩
  · rw [same.name]
    exact took
  · rw [same.template, same.arguments, same.settings, same.windowed]
    exact made

theorem Recorded.told {g : Graph α} (recorded : Recorded g) (call : Call α)
    (idle : (g.backend.reply g.journal call).returned = true → call.addressee? = none) :
    Recorded (g.told call) where
  toNamed := recorded.toNamed.told call
  created name node live :=
    ⟨(recorded.created name node live).1, (recorded.created name node live).2.told call⟩
  follows name node live := by
    refine (recorded.follows name node live).pass fun returned => ?_
    rw [idle returned]
    exact nofun
  addressed call' h took own := by
    simp only [Graph.told, taken_append] at took
    split at took
    · next returned =>
      rcases List.mem_append.1 took with before | now
      · exact recorded.addressed call' h before own
      -- The new command is for no node.
      · rw [List.mem_singleton.1 now, idle returned] at own
        cases own
    · exact recorded.addressed call' h took own

theorem Recorded.changes {g : Graph α} (recorded : Recorded g) {name : String} {node : Node α}
    {call : Call α} {change : Node α → Node α} (live : g.nodes.get? name = some node)
    (changes : call.Changes node.handle change)
    (returned : (g.backend.reply g.journal call).returned = true) :
    Recorded ((g.told call).modifyNode name change) where
  toNamed := (recorded.toNamed.told call).modifyNode name changes.same
  created other node' live' := by
    obtain ⟨earlier, here, same⟩ := live_modifyNode changes.same live'
    obtain ⟨own, created⟩ := recorded.created other earlier here
    exact ⟨same.name.trans own, (created.told call).same same⟩
  follows other node' live' := by
    -- The node itself obeys. Another node has another handle, and the command passes it by.
    by_cases here : other = name
    · subst here
      have changed := Table.get?_modify g.nodes other other change
      rw [if_pos rfl, live] at changed
      obtain rfl : change node = node' := Option.some.inj (changed.symm.trans live')
      exact (recorded.follows other node live).obey returned changes
    · have kept := Table.get?_modify g.nodes name other change
      rw [if_neg here] at kept
      have live' : g.nodes.get? other = some node' := kept.symm.trans live'
      refine (recorded.follows other node' live').pass fun _ same => here ?_
      rw [changes.addressee] at same
      exact recorded.unique live' live (Option.some.inj same).symm
  addressed call' h took own := by
    have earlier : ∃ other node, g.nodes.get? other = some node ∧ node.handle = h := by
      replace took : call' ∈ taken (g.journal ++ [_]) := took
      rw [taken_append, if_pos returned] at took
      rcases List.mem_append.1 took with before | now
      · exact recorded.addressed call' h before own
      · rw [List.mem_singleton.1 now, changes.addressee] at own
        exact ⟨name, node, live, Option.some.inj own⟩
    obtain ⟨other, node', live', own⟩ := earlier
    obtain ⟨later, here, same⟩ := stays_modifyNode name changes.same live'
    exact ⟨other, later, here, same.handle.trans own⟩

theorem Recorded.creates {g : Graph α} (recorded : Recorded g) {name template : String}
    {arguments : List String} {x : Expansion} {node : Node α} (free : g.nodes.get? name = none)
    (expanded : g.library.expand template arguments = .ok x)
    (made : Node.ofExpansion name (g.backend.handleFor g.journal name) x = .ok node)
    (returned : (g.backend.reply g.journal
      (.create name template x.template.layout.description)).returned = true) :
    Recorded { g.told (.create name template x.template.layout.description) with
      nodes := g.nodes.insert name node
      handles := g.handles.insert (g.backend.handleFor g.journal name) name } where
  toNamed := recorded.toNamed.effect (.creates rfl free expanded made returned)
  created other node' live := by
    rw [Table.get?_insert] at live
    split at live
    · next here =>
      cases live
      obtain ⟨window, rfl, windowed, -⟩ := eq_of_ofExpansion made
      refine ⟨here.symm, template, arguments, x, expanded, ?_, rfl, rfl, rfl, windowed⟩
      show _ ∈ taken (g.journal ++ [_])
      rw [taken_append, if_pos returned]
      exact List.mem_append_right _ (List.mem_singleton_self _)
    · obtain ⟨own, created⟩ := recorded.created other node' live
      exact ⟨own, created.told _⟩
  follows other node' live := by
    rw [Table.get?_insert] at live
    split at live
    · cases live
      -- No command that was taken is for the handle that the node is given.
      refine Node.follows_of_ofExpansion made fun call took own => ?_
      replace took : call ∈ taken (g.journal ++ [_]) := took
      rw [taken_append, if_pos returned] at took
      rcases List.mem_append.1 took with before | now
      · obtain ⟨name', node', live', same⟩ := recorded.addressed call _ before own
        exact recorded.ne_handleFor free live' same
      · rw [List.mem_singleton.1 now] at own
        cases own
    · exact (recorded.follows other node' live).pass fun _ own => by cases own
  addressed call h took own := by
    replace took : call ∈ taken (g.journal ++ [_]) := took
    rw [taken_append, if_pos returned] at took
    rcases List.mem_append.1 took with before | now
    · obtain ⟨other, node', live, same⟩ := recorded.addressed call h before own
      refine ⟨other, node', ?_, same⟩
      rw [Table.get?_insert, if_neg ?_]
      · exact live
      · rintro rfl
        rw [free] at live
        cases live
    · rw [List.mem_singleton.1 now] at own
      cases own

theorem Recorded.replug {g : Graph α} (recorded : Recorded g) (plugs : Table PortRef PortRef) :
    Recorded (g.replug plugs) :=
  ⟨⟨recorded.distinct, recorded.gave, recorded.found⟩, recorded.created, recorded.follows,
    recorded.addressed⟩

theorem Recorded.effect {who : Option String} {g g' : Graph α} (effect : Effect who g g')
    (recorded : Recorded g) : Recorded g' := by
  cases effect with
  | fails call failed =>
    refine recorded.told call fun returned => ?_
    rw [failed] at returned
    cases returned
  | changes own live changes returned => exact recorded.changes live changes returned
  | creates own free expanded made returned => exact recorded.creates free expanded made returned
  | spoils | refuses => exact recorded.told _ fun _ => rfl
  | connects | disconnects => exact (recorded.told _ fun _ => rfl).replug _

end Graph

variable [Number α]

/-- Whatever a graph is told to do and wherever the backend breaks down, each node is in the state
that the commands make it that the backend took. So an operation changes no other node than the one
that it is for, and a command to a node that fails changes nothing. -/
theorem nodes_follow_taken_commands (library : Library) (rewiring : Rewiring) {backend : Backend α}
    (distinct : backend.Distinct) (operations : List (Graph.Operation α)) :
    let g := (Graph.start library rewiring backend).after operations
    (∀ name node, g.nodes.get? name = some node →
        g.Created node ∧ backend.Gave g.journal node.handle name ∧ node.Follows g.journal) ∧
      ∀ operation : Graph.Operation α,
        (∀ name, operation.target? ≠ some name →
          (operation.act.eval g).2.nodes.get? name = g.nodes.get? name) ∧
        ∀ name fault g', operation.commands? = some name →
          operation.act.eval g = (.error fault, g') → ∃ journal, g' = { g with journal } := by
  intro g
  have recorded : g.Recorded := Graph.after_preserves operations
    (fun _ _ _ effect held => held.effect effect) (Graph.recorded_start distinct)
  refine ⟨fun name node live => ?_, fun operation => ⟨fun name other => ?_, ?_⟩⟩
  · refine ⟨(recorded.created name node live).2, ?_, recorded.follows name node live⟩
    have same : g.backend = backend := Graph.backend_after _ operations
    rw [← same]
    exact recorded.gave name node live
  · exact Graph.chain_frame (Graph.chain_act operation g) other
  · intro name fault g' commands failed
    have commanded := Graph.commanded_act commands g
    rw [failed] at commanded
    cases commanded with
    | rejected => exact ⟨g.journal, rfl⟩
    | failed => exact ⟨_, rfl⟩

namespace Sample

def blind : Backend Scalar where
  reply _ call := match call with
    | .showWindow _ => .failed "no display"
    | _ => .done
  handleFor _ := .name

def screen : Template where
  name := "screen"
  portCount := 0
  layout := ⟨"fakesink name=e", [⟨"fakesink", "e", .empty⟩], []⟩
  bindings := [⟨"raw", "gtktag", .string, .literal "window"⟩, ⟨"raw", "x", .int, .literal "5"⟩,
    ⟨"e", "p", .string, .literal "v"⟩]
  ports := .empty
  defaults := .empty
  standard := false

def gestures : List (Graph.Operation Scalar) :=
  [.instantiate "screen" "a" [], .transport "a" "start" [], .showWindow "a", .moveWindow "a" 7 8]

end Sample

/-- The sample window with the backend that cannot show it. -/
theorem nodes_follow_taken_commands_sample :
    let library : Library := .ofList [("screen", Sample.screen)]
    let g := (Graph.start library .replace Sample.blind).after Sample.gestures
    Sample.blind.Distinct ∧ ∃ node, g.nodes.get? "a" = some node ∧
      (node.transport, node.window) = (.playing, some ⟨7, 8, 0, 0, false⟩) ∧
      (g.Created node ∧ Sample.blind.Gave g.journal node.handle "a" ∧ node.Follows g.journal) ∧
      ∀ operation : Graph.Operation Scalar,
        (∀ name, operation.target? ≠ some name →
          (operation.act.eval g).2.nodes.get? name = g.nodes.get? name) ∧
        ∀ name fault g', operation.commands? = some name →
          operation.act.eval g = (.error fault, g') → ∃ journal, g' = { g with journal } := by
  intro library g
  have distinct : Sample.blind.Distinct := Backend.distinct_of_name fun _ _ => rfl
  have state : (g.nodes.get? "a").map (fun node => (node.transport, node.window)) =
      some (.playing, some ⟨7, 8, 0, 0, false⟩) := by decide +kernel
  obtain ⟨node, live, state⟩ := Option.map_eq_some_iff.1 state
  have law := nodes_follow_taken_commands library .replace distinct Sample.gestures
  exact ⟨distinct, node, live, state, law.1 "a" node live, law.2⟩

end ShowControl
