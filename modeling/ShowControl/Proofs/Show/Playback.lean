import ShowControl.Proofs.Graph.Effect
import ShowControl.Proofs.Show.Clocks

/-! What the simulated clocks report while their nodes are commanded.

A step of the clocks comes to each node once. What it sees of a node is all that the clock of the node
has to go by, and the clock tells from that what has been commanded since the step before. The
observations of one node make up its stream. -/

set_option autoImplicit false
namespace ShowControl

variable {α : Type} [Number α]

/-! A clock and its node -/

namespace Clock

/-- The clock has seen no seek that its node has not had, and of the same seek the same segment. -/
structure Abreast (c : Clock α) (node : Node α) : Prop where
  seeks : c.seeks ≤ node.seeks
  segment : c.seeks = node.seeks → c.segment = none ∨ c.segment = node.segment

theorem abreast_start (node : Node α) : Abreast start node := ⟨Nat.zero_le _, fun _ => .inl rfl⟩

omit [Number α] in
/-- A seek is numbered, so that no clock takes it for one that it has seen. -/
theorem Abreast.command {c : Clock α} {node : Node α} (abreast : c.Abreast node) (verb : Verb)
    (arguments : List α) : c.Abreast (node.command verb arguments) := by
  cases verb with
  | seek =>
    have later : c.seeks < node.seeks + 1 := Nat.lt_succ_of_le abreast.seeks
    exact ⟨later.le, fun same => absurd same later.ne⟩
  | start | pause | stop => exact ⟨abreast.seeks, abreast.segment⟩

theorem seen_run (duration dt : α) (transport : Transport) (c : Clock α) :
    (c.run duration dt transport).1.segment = c.segment ∧
      (c.run duration dt transport).1.seeks = c.seeks := by
  cases transport with
  | stopped | paused => exact ⟨rfl, rfl⟩
  | playing =>
    rw [run]
    split <;> exact ⟨rfl, rfl⟩

section Equated

variable [Number.Equated α] {c : Clock α} {node : Node α}

theorem knows_of_seen (seen : c.segment = node.segment) : c.knows node = true := by
  rw [knows, seen]
  cases node.segment with
  | none => rfl
  | some segment =>
    simp only [Bool.or_eq_true, Bool.and_eq_true]
    exact .inr ⟨Number.Equated.same_iff.2 rfl, Number.Equated.same_iff.2 rfl⟩

theorem seen_of_knows (abreast : c.Abreast node) (knows : c.knows node = true) :
    c.segment = node.segment := by
  rw [Clock.knows] at knows
  split at knows
  · next nothing nothing' => rw [nothing, nothing']
  · next first second seen given =>
    rw [seen, given]
    rcases Bool.or_eq_true_iff.1 knows with counted | equal
    · rcases abreast.segment (of_decide_eq_true counted) with nothing | same
      · rw [seen] at nothing
        cases nothing
      · rw [← seen, same, given]
    · obtain ⟨starts, stops⟩ := Bool.and_eq_true_iff.1 equal
      rw [Prod.ext (Number.Equated.same_iff.1 starts) (Number.Equated.same_iff.1 stops)]
  · cases knows

theorem observe_of_seen (seen : c.segment = node.segment) (duration : α) :
    c.observe duration node = c := by
  rw [observe, if_pos (knows_of_seen seen)]

theorem observe_of_unseen (abreast : c.Abreast node) {start stop : α}
    (given : node.segment = some (start, stop)) (unseen : c.segment ≠ some (start, stop))
    (duration : α) : c.observe duration node =
      ⟨Number.atMost duration (Number.atLeast 0 start), some (start, stop), node.seeks, false⟩ := by
  have unknown : ¬c.knows node = true := fun knows =>
    unseen ((seen_of_knows abreast knows).trans given)
  rw [observe, if_neg unknown, given]

theorem segment_step (abreast : c.Abreast node) (duration dt : α) :
    (c.step duration dt node).1.segment = node.segment := by
  rw [step, (seen_run ..).1, observe]
  split
  · next knows => exact seen_of_knows abreast knows
  · cases node.segment with
    | none | some => rfl

theorem abreast_step (abreast : c.Abreast node) (duration dt : α) :
    (c.step duration dt node).1.Abreast node := by
  refine ⟨?_, fun _ => .inr (segment_step abreast duration dt)⟩
  rw [step, (seen_run ..).2, observe]
  split
  · exact abreast.seeks
  · cases node.segment with
    | none | some => exact Nat.le_refl _

end Equated

end Clock

/-! What happens -/

inductive Happening (α : Type) where
  | command (name : String) (verb : Verb) (arguments : List α)
  | step (dt : α)

def Happening.act : Happening α → Act (Rehearsal α) Unit
  | command name verb arguments => do
    let _ ← Rehearsal.onShow (Show.onGraph (Graph.setTransport name verb arguments))
  | step dt => Rehearsal.step dt

def Channel.sent (c : Channel α) (emissions : List (Emission α)) : Channel α :=
  emissions.foldl (fun c emission => (emission.act.eval c).2) c

namespace Rehearsal

/-- The rehearsal after all this. A fault of a command is for the one who gave it. -/
def after (r : Rehearsal α) (happenings : List (Happening α)) : Rehearsal α :=
  happenings.foldl (fun r happening => (happening.act.eval r).2) r

/-- The clock of a node. It starts when it is first stepped. -/
def clock (r : Rehearsal α) (name : String) : Clock α := (r.playback.get? name).getD .start

def stepped (r : Rehearsal α) (dt : α) (node : Node α) : Clock α × Option (Beat α) :=
  (r.clock node.name).step r.playing.config.simulatedSeconds dt node

def reports (r : Rehearsal α) (dt : α) (node : Node α) : List (Emission α) :=
  (r.stepped dt node).2.toList.flatMap (Beat.emissions node)

/-! A step comes to each node once -/

omit [Number α] in
theorem secures_put (signal : Signal α) :
    Act.Secures (fun _ => True) (Channel.put signal) fun _ => True := by
  refine Act.secures_get fun c _ => ?_
  have counted : Act.Secures (fun _ : Channel α => True)
      (modify fun c => { c with dropped := c.dropped + 1 }) fun _ => True :=
    Act.secures_modify fun _ _ => trivial
  split
  · exact Act.secures_bind counted fun _ _ => Act.secures_bind (Act.secures_log _ _) fun _ _ =>
      Act.secures_pure trivial
  split
  · exact Act.secures_bind counted fun _ _ => Act.secures_bind (Act.secures_log _ _) fun _ _ =>
      Act.secures_pure trivial
  · exact Act.secures_bind (Act.secures_modify fun _ _ => trivial) fun _ _ =>
      Act.secures_pure trivial

theorem returns_emission (emission : Emission α) (c : Channel α) :
    emission.act.Returns c () (emission.act.eval c).2 := by
  have secures : Act.Secures (fun _ => True) emission.act fun _ => True := by
    cases emission with
    | progress source value =>
      have put : Act.Secures (fun _ => True) (Channel.putProgress source value) fun _ => True := by
        unfold Channel.putProgress
        split
        · exact Act.secures_bind (Act.secures_log _ _) fun _ _ => Act.secures_pure trivial
        · exact secures_put _
      exact Act.secures_bind put fun _ _ => Act.secures_pure trivial
    | callback source event =>
      exact Act.secures_bind (secures_put _) fun _ _ => Act.secures_pure trivial
  obtain ⟨_, c', returned, -, -⟩ := secures c trivial
  rw [returned]
  exact returned

theorem returns_send (node : Node α) (beat : Beat α) (c : Channel α) :
    (send node beat).Returns c () (c.sent (beat.emissions node)) := by
  obtain ⟨_, first, progress, done⟩ :=
    (Act.returns_bind ..).1 (returns_emission (.progress node.handle beat.progress) c)
  obtain ⟨_, same⟩ := (Act.returns_pure ..).1 done
  refine (Act.returns_bind ..).2 ⟨_, first, progress, ?_⟩
  simp only [Channel.sent, Beat.emissions, List.foldl_cons, ← same]
  cases beat.atEnd with
  | false => rfl
  | true =>
    obtain ⟨_, second, callback, done⟩ := (Act.returns_bind ..).1
      (returns_emission (.callback node.handle (some "end")) first)
    simp only [if_true, List.foldl_cons, List.foldl_nil, Act.returns_bind, Act.returns_info]
    exact ⟨(), first, rfl, _, second, callback, done⟩

def sending (r : Rehearsal α) (emissions : List (Emission α)) : Show α :=
  { r.playing with channel := r.playing.channel.sent emissions }

def afterNode (r : Rehearsal α) (dt : α) (node : Node α) : Rehearsal α :=
  ⟨r.sending (r.reports dt node), r.playback.insert node.name (r.stepped dt node).1⟩

theorem returns_stepNode (r : Rehearsal α) (dt : α) (node : Node α) :
    (stepNode dt node).Returns r () (r.afterNode dt node) := by
  simp only [stepNode, Act.returns_bind, Act.returns_get, Act.returns_modify]
  refine ⟨r, r, ⟨rfl, rfl⟩, ⟨⟩, _, rfl, ?_⟩
  unfold afterNode reports stepped clock
  generalize Clock.step r.playing.config.simulatedSeconds dt node
    ((r.playback.get? node.name).getD .start) = outcome
  obtain ⟨clock, _ | beat⟩ := outcome
  · exact (Act.returns_pure ..).2 ⟨rfl, rfl⟩
  · refine (Act.returns_zoom ..).2 ⟨_, (Act.returns_zoom ..).2 ⟨_, returns_send node beat _, rfl⟩, ?_⟩
    simp only [Option.toList_some, List.flatMap_singleton]
    rfl

theorem stepped_afterNode (r : Rehearsal α) (dt : α) {node later : Node α}
    (other : later.name ≠ node.name) :
    (r.afterNode dt node).stepped dt later = r.stepped dt later := by
  unfold afterNode stepped clock
  dsimp only
  rw [Table.get?_insert, if_neg other]
  rfl

/-- As the nodes go by different names, the clock of each is as it was when its turn comes. -/
theorem returns_stepNodes (dt : α) {nodes : List (Node α)}
    (distinct : (nodes.map Node.name).Nodup) (r : Rehearsal α) :
    ∃ playback, (stepNodes dt nodes).Returns r ()
        ⟨r.sending (nodes.flatMap (r.reports dt)), playback⟩ ∧
      (∀ node ∈ nodes, playback.get? node.name = some (r.stepped dt node).1) ∧
      ∀ name, name ∉ nodes.map Node.name → playback.get? name = r.playback.get? name := by
  induction nodes generalizing r with
  | nil =>
    exact ⟨r.playback, (Act.returns_pure ..).2 ⟨rfl, rfl⟩, List.forall_mem_nil _, fun _ _ => rfl⟩
  | cons node rest ih =>
    obtain ⟨fresh, distinct⟩ := List.nodup_cons.1 distinct
    obtain ⟨playback, returned, each, others⟩ := ih distinct (r.afterNode dt node)
    have same (later : Node α) (member : later ∈ rest) :
        (r.afterNode dt node).stepped dt later = r.stepped dt later :=
      stepped_afterNode r dt fun equal => fresh (equal ▸ List.mem_map_of_mem member)
    refine ⟨playback, (Act.returns_bind ..).2 ⟨(), _, returns_stepNode r dt node, ?_⟩, ?_, ?_⟩
    · have reported : rest.flatMap ((r.afterNode dt node).reports dt) = rest.flatMap (r.reports dt) :=
        List.flatMap_congr fun later member => by rw [reports, same later member, reports]
      rw [reported] at returned
      rw [List.flatMap_cons, sending, Channel.sent, List.foldl_append]
      exact returned
    · intro later member
      rcases List.mem_cons.1 member with rfl | member
      · rw [others _ fresh]
        exact Table.get?_insert_self ..
      · rw [each later member, same later member]
    · intro name absent
      rw [List.map_cons, List.mem_cons, not_or] at absent
      rw [others name absent.2]
      exact (Table.get?_insert ..).trans (if_neg absent.1)

theorem returns_step {r : Rehearsal α} (keyed : r.playing.graph.Keyed) (dt : α) :
    ∃ playback, (step dt).Returns r ()
        ⟨r.sending (r.playing.graph.nodes.values.flatMap (r.reports dt)), playback⟩ ∧
      ∀ name, clock ⟨r.playing, playback⟩ name = match r.playing.graph.nodes.get? name with
        | some node => (r.stepped dt node).1
        | none => r.clock name := by
  have distinct : (r.playing.graph.nodes.values.map Node.name).Nodup := by
    rw [keyed.names]
    exact r.playing.graph.nodes.distinct
  obtain ⟨playback, returned, each, others⟩ := returns_stepNodes dt distinct r
  refine ⟨playback, (Act.returns_bind ..).2 ⟨r, r, (Act.returns_get ..).2 ⟨rfl, rfl⟩, returned⟩, ?_⟩
  intro name
  unfold clock
  cases live : r.playing.graph.nodes.get? name with
  | some node =>
    rw [← keyed name node live, each node (Table.mem_values_iff.2 ⟨name, live⟩)]
    rfl
  | none =>
    rw [others]
    rw [keyed.names, Table.mem_keys_iff]
    rintro ⟨node, present⟩
    rw [live] at present
    cases present

/-! A command comes to one node -/

def regraphed {α : Type} (r : Rehearsal α) (graph : Graph α) : Rehearsal α :=
  { r with playing := { r.playing with desk := { r.playing.desk with graph } } }

theorem returns_command {r r' : Rehearsal α} {name : String} {verb : Verb} {arguments : List α}
    (returned : (Happening.command name verb arguments).act.Returns r () r') :
    ∃ graph, r' = r.regraphed graph ∧
      graph.nodes = r.playing.graph.nodes.modify name fun node => node.command verb arguments := by
  obtain ⟨_, _, commanded, done⟩ := (Act.returns_bind ..).1 returned
  obtain ⟨_, onShow, rfl⟩ := (Act.returns_zoom ..).1 commanded
  obtain ⟨_, onDesk, rfl⟩ := (Act.returns_zoom ..).1 onShow
  obtain ⟨graph, onGraph, rfl⟩ := (Act.returns_zoom ..).1 onDesk
  obtain ⟨_, rfl⟩ := (Act.returns_pure ..).1 done
  have changes := Graph.nodes_setTransport r.playing.graph name verb arguments
  rw [show (Graph.setTransport name verb arguments).eval r.playing.graph = _ from onGraph] at changes
  exact ⟨graph, rfl, changes.2⟩

theorem state_command (r : Rehearsal α) (name : String) (verb : Verb) (arguments : List α) :
    ((Happening.command name verb arguments).act.eval r).2 =
      r.regraphed ((Graph.setTransport name verb arguments).eval r.playing.graph).2 := by
  rw [Happening.act, Act.state_bind _ fun _ _ => rfl]
  rfl

theorem live_command {r : Rehearsal α} {name other : String} {verb : Verb} {arguments : List α}
    {node : Node α} (live : ((Happening.command other verb arguments).act.eval
      r).2.playing.graph.nodes.get? name = some node) :
    r.playing.graph.nodes.get? name = some node ∨
        other = name ∧ ∃ earlier, r.playing.graph.nodes.get? name = some earlier ∧
          node = earlier.command verb arguments := by
  rw [state_command] at live
  change ((Graph.setTransport other verb arguments).eval r.playing.graph).2.nodes.get? name = _ at live
  have changes := Graph.nodes_setTransport r.playing.graph other verb arguments
  generalize (Graph.setTransport other verb arguments).eval r.playing.graph = outcome at live changes
  obtain ⟨_ | _, g⟩ := outcome
  · rw [show g.nodes = r.playing.graph.nodes from changes] at live
    exact .inl live
  · rw [changes.2, Table.get?_modify] at live
    split at live
    · next same =>
      obtain ⟨earlier, before, rfl⟩ := Option.map_eq_some_iff.1 live
      exact .inr ⟨same.symm, earlier, before, rfl⟩
    · exact .inl live

/-! What holds at all times -/

/-- Each node goes by its own name, and its clock is abreast of it. -/
structure Sound (r : Rehearsal α) : Prop where
  keyed : r.playing.graph.Keyed
  abreast (name : String) (node : Node α) : r.playing.graph.nodes.get? name = some node →
    (r.clock name).Abreast node

theorem sound_of_made {s : Show α} {library : Library} {rewiring : Rewiring} {backend : Backend α}
    {operations : List (Graph.Operation α)}
    (made : s.graph = (Graph.start library rewiring backend).after operations) :
    Sound ⟨s, .empty⟩ := by
  refine ⟨?_, fun _ node _ => Clock.abreast_start node⟩
  change s.graph.Keyed
  rw [made]
  exact Graph.keyed_after library rewiring backend operations

theorem Sound.command {r : Rehearsal α} (sound : r.Sound) (name : String) (verb : Verb)
    (arguments : List α) : Sound ((Happening.command name verb arguments).act.eval r).2 := by
  constructor
  · rw [state_command]
    exact Graph.keyed_setTransport sound.keyed name verb arguments
  · intro other node live
    rcases live_command live with before | ⟨-, earlier, before, rfl⟩
    · rw [state_command]
      exact sound.abreast other node before
    · rw [state_command]
      exact (sound.abreast other earlier before).command verb arguments

theorem Sound.step [Number.Equated α] {r : Rehearsal α} (sound : r.Sound) (dt : α) :
    Sound ((Happening.step dt).act.eval r).2 := by
  obtain ⟨playback, returned, clocks⟩ := returns_step sound.keyed dt
  rw [Happening.act, returned]
  constructor
  · exact sound.keyed
  · intro name node live
    change Clock.Abreast (clock ⟨r.playing, playback⟩ name) node
    rw [clocks, show r.playing.graph.nodes.get? name = some node from live]
    apply Clock.abreast_step
    rw [sound.keyed name node live]
    exact sound.abreast name node live

theorem Sound.act [Number.Equated α] {r : Rehearsal α} (sound : r.Sound)
    (happening : Happening α) : Sound (happening.act.eval r).2 := by
  cases happening with
  | command name verb arguments => exact sound.command name verb arguments
  | step dt => exact sound.step dt

theorem Sound.after [Number.Equated α] {r : Rehearsal α} (sound : r.Sound)
    (happenings : List (Happening α)) : (r.after happenings).Sound := by
  induction happenings generalizing r with
  | nil => exact sound
  | cons happening rest ih => exact ih (sound.act happening)

theorem Sound.config_after [Number.Equated α] {r : Rehearsal α} (sound : r.Sound)
    (happenings : List (Happening α)) : (r.after happenings).playing.config = r.playing.config := by
  induction happenings generalizing r with
  | nil => rfl
  | cons happening rest ih =>
    refine (ih (sound.act happening)).trans ?_
    cases happening with
    | command name verb arguments => rw [state_command]; rfl
    | step dt =>
      obtain ⟨playback, returned, -⟩ := returns_step sound.keyed dt
      rw [Happening.act, returned]
      rfl

end Rehearsal

/-! Streams -/

/-- What a step saw of a node, and what the clock of the node then reported. -/
structure Observation (α : Type) where
  dt : α
  node : Node α
  reports : List (Emission α)

namespace Rehearsal

def observation? (r : Rehearsal α) (name : String) : Happening α → Option (Observation α)
  | .command .. => none
  | .step dt => (r.playing.graph.nodes.get? name).map fun node => ⟨dt, node, r.reports dt node⟩

def stream (r : Rehearsal α) (name : String) : List (Happening α) → List (Observation α)
  | [] => []
  | happening :: rest =>
    (r.observation? name happening).toList ++ stream (happening.act.eval r).2 name rest

theorem stream_append (r : Rehearsal α) (name : String) (first second : List (Happening α)) :
    r.stream name (first ++ second) =
      r.stream name first ++ (r.after first).stream name second := by
  induction first generalizing r with
  | nil => rfl
  | cons happening rest ih =>
    rw [List.cons_append, stream, stream, ih, List.append_assoc]
    rfl

end Rehearsal

inductive Clock.Runs (duration : α) : Clock α → List (Observation α) → Prop where
  | nil (c : Clock α) : Runs duration c []
  | cons {c : Clock α} {observation : Observation α} {rest : List (Observation α)} :
    c.Abreast observation.node →
    observation.reports = (c.step duration observation.dt observation.node).2.toList.flatMap
      (Beat.emissions observation.node) →
    Runs duration (c.step duration observation.dt observation.node).1 rest →
    Runs duration c (observation :: rest)

theorem Rehearsal.runs_stream [Number.Equated α] {r : Rehearsal α} (sound : r.Sound) (name : String)
    (happenings : List (Happening α)) :
    Clock.Runs r.playing.config.simulatedSeconds (r.clock name) (r.stream name happenings) := by
  induction happenings generalizing r with
  | nil => exact .nil _
  | cons happening rest ih =>
    have later := ih (sound.act happening)
    cases happening with
    | command other verb arguments =>
      rw [stream, observation?]
      rw [state_command] at later ⊢
      exact later
    | step dt =>
      obtain ⟨playback, returned, clocks⟩ := returns_step sound.keyed dt
      rw [stream, observation?]
      rw [Happening.act, returned] at later ⊢
      change Clock.Runs r.playing.config.simulatedSeconds (clock ⟨r.playing, playback⟩ name) _ at later
      rw [clocks] at later
      cases live : r.playing.graph.nodes.get? name with
      | none =>
        rw [live] at later
        exact later
      | some node =>
        have own := sound.keyed name node live
        simp only [live, stepped, own] at later
        refine .cons (sound.abreast name node live) ?_ later
        simp only [reports, stepped, own]

end ShowControl
