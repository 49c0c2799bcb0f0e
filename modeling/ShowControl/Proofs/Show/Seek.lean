import ShowControl.Proofs.Show.Stream

/-! Seeks of simulated clocks.

A clock hears of a seek by the segment of its node, which it compares with the one that it saw last. So
it misses a seek to the segment that it has seen already, and a seek that a step finds while the node is
stopped is undone along with the rest. Every other seek is kept until the node plays, however many steps
come in between. -/

set_option autoImplicit false
namespace ShowControl

variable {α : Type} [Number α]

theorem Transport.paused_of_ne {transport : Transport} (unstopped : transport ≠ .stopped)
    (still : transport ≠ .playing) : transport = .paused := by
  cases transport with
  | stopped => exact absurd rfl unstopped
  | playing => exact absurd rfl still
  | paused => rfl

def Node.told (node : Node α) (duration elapsed : α) : List (Emission α) :=
  Beat.emissions node ⟨elapsed / duration, duration ≤ elapsed⟩

namespace Clock

def Stands (c : Clock α) (duration : α) (segment : α × α) (elapsed : α) (ended : Bool) : Prop :=
  ∀ node : Node α, c.Abreast node → node.segment = some segment →
    (c.observe duration node).elapsed = elapsed ∧ (c.observe duration node).ended = ended

variable [Number.Equated α] {c : Clock α} {duration : α} {segment : α × α}

theorem stands_of_seen (seen : c.segment = some segment) :
    c.Stands duration segment c.elapsed c.ended := by
  intro node _ given
  rw [observe_of_seen (seen.trans given.symm)]
  exact ⟨rfl, rfl⟩

theorem stands_of_unseen (unseen : c.segment ≠ some segment) : c.Stands duration segment
    (Number.atMost duration (Number.atLeast 0 segment.1)) false := by
  intro node abreast given
  rw [observe_of_unseen abreast given unseen]
  exact ⟨rfl, rfl⟩

section Stands

variable {elapsed : α} {ended : Bool} {node : Node α} (abreast : c.Abreast node)
  (given : node.segment = some segment) (dt : α)
include abreast given

theorem stands_of_stop (stopped : node.transport = .stopped) :
    (c.step duration dt node).1.Stands duration segment 0 false := by
  have seen := (segment_step abreast duration dt).trans given
  rw [step, stopped] at seen ⊢
  exact stands_of_seen seen

theorem Stands.pause (stands : c.Stands duration segment elapsed ended)
    (paused : node.transport = .paused) :
    (c.step duration dt node).1.Stands duration segment elapsed ended := by
  obtain ⟨here, whether⟩ := stands node abreast given
  have seen := (segment_step abreast duration dt).trans given
  rw [step, paused] at seen ⊢
  rw [← here, ← whether]
  exact stands_of_seen seen

omit [Number.Equated α] in
theorem Stands.play (stands : c.Stands duration segment elapsed ended)
    (playing : node.transport = .playing) :
    (c.step duration dt node).2.toList.flatMap (Beat.emissions node) =
      if ended then [] else node.told duration (Number.atMost duration (elapsed + dt)) := by
  obtain ⟨here, whether⟩ := stands node abreast given
  rw [step, playing, run]
  dsimp only
  rw [here, whether]
  cases ended with
  | true => rfl
  | false => exact List.flatMap_singleton _ _

end Stands

theorem Runs.kept {between : List (Observation α)} {last : Observation α}
    (runs : Runs duration c (between ++ [last]))
    (given : ∀ o ∈ between ++ [last], o.node.segment = some segment)
    (paused : ∀ o ∈ between, o.node.transport = .paused) (playing : last.node.transport = .playing)
    {elapsed : α} {ended : Bool} (stands : c.Stands duration segment elapsed ended) :
    last.reports =
      if ended then [] else last.node.told duration (Number.atMost duration (elapsed + last.dt)) := by
  induction between generalizing c with
  | nil =>
    cases runs with
    | cons abreast reported _ =>
      rw [reported, stands.play abreast (given last List.mem_cons_self) last.dt playing]
  | cons first rest ih =>
    obtain ⟨here, given⟩ := List.forall_mem_cons.1 given
    obtain ⟨pause, paused⟩ := List.forall_mem_cons.1 paused
    cases runs with
    | cons abreast _ runs =>
      exact ih runs given paused (stands.pause abreast here first.dt pause)

/-- After the last stop that a step finds, there are only pauses. -/
theorem Runs.undone {between : List (Observation α)} {last : Observation α}
    (runs : Runs duration c (between ++ [last]))
    (given : ∀ o ∈ between ++ [last], o.node.segment = some segment)
    (still : ∀ o ∈ between, o.node.transport ≠ .playing) (playing : last.node.transport = .playing)
    (stops : ∃ o ∈ between, o.node.transport = .stopped) :
    last.reports = last.node.told duration (Number.atMost duration (0 + last.dt)) := by
  induction between generalizing c with
  | nil =>
    obtain ⟨_, member, _⟩ := stops
    cases member
  | cons first rest ih =>
    obtain ⟨here, given⟩ := List.forall_mem_cons.1 given
    obtain ⟨_, still⟩ := List.forall_mem_cons.1 still
    cases runs with
    | cons abreast _ runs =>
      by_cases again : ∃ o ∈ rest, o.node.transport = .stopped
      · exact ih runs given still again
      · have paused : ∀ o ∈ rest, o.node.transport = .paused := fun o member =>
          Transport.paused_of_ne (fun stopped => again ⟨o, member, stopped⟩) (still o member)
        have stopped : first.node.transport = .stopped := by
          obtain ⟨o, member, stopped⟩ := stops
          rcases List.mem_cons.1 member with rfl | member
          · exact stopped
          · exact absurd ⟨o, member, stopped⟩ again
        exact runs.kept given paused playing (stands_of_stop abreast here first.dt stopped)

end Clock

namespace Rehearsal

theorem segment_stream [Number.Equated α] {r : Rehearsal α} (sound : r.Sound) {name : String}
    {happenings : List (Happening α)} {segment : Option (α × α)}
    (held : ∀ node, r.playing.graph.nodes.get? name = some node → node.segment = segment)
    (unsought : ∀ arguments, .command name .seek arguments ∉ happenings) :
    ∀ m ∈ r.stream name happenings, m.node.segment = segment := by
  induction happenings generalizing r with
  | nil => exact List.forall_mem_nil _
  | cons happening rest ih =>
    have later : ∀ arguments, Happening.command name .seek arguments ∉ rest :=
      fun arguments member => unsought arguments (List.mem_cons_of_mem _ member)
    intro m member
    rcases List.mem_append.1 member with here | there
    · cases happening with
      | command => cases here
      | step dt =>
        obtain ⟨node, live, rfl⟩ := Option.map_eq_some_iff.1 (Option.mem_toList.1 here)
        exact held node live
    · refine ih (sound.act happening) (fun node live => ?_) later m there
      cases happening with
      | step dt =>
        obtain ⟨playback, returned, -⟩ := returns_step sound.keyed dt
        rw [Happening.act, returned] at live
        exact held node live
      | command other verb arguments =>
        rcases live_command live with before | ⟨rfl, earlier, before, rfl⟩
        · exact held node before
        · cases verb with
          | seek => exact absurd List.mem_cons_self (unsought arguments)
          | start | pause | stop => exact held earlier before

theorem segment_of_seek {r r' : Rehearsal α} {name : String} {a b : α}
    (seeks : (Happening.command name .seek [a, b]).act.Returns r () r') {node : Node α}
    (live : r'.playing.graph.nodes.get? name = some node) : node.segment = some (a, b) := by
  obtain ⟨graph, rfl, nodes⟩ := returns_command seeks
  change graph.nodes.get? name = some node at live
  rw [nodes, Table.get?_modify, if_pos rfl] at live
  obtain ⟨earlier, -, rfl⟩ := Option.map_eq_some_iff.1 live
  rfl

end Rehearsal

section Exact

open Number.Exact

variable [Number.Exact α]

theorem Channel.sent_of_open {c : Channel α} (opened : c.closed = false) (boundless : c.capacity = 0)
    (emissions : List (Emission α)) :
    c.sent emissions = { c with queue := c.queue ++ emissions.map Emission.signal } := by
  induction emissions generalizing c with
  | nil => simp [sent]
  | cons emission rest ih =>
    have first : c.sent (emission :: rest) =
        sent { c with queue := c.queue ++ [emission.signal] } rest := by
      rw [sent, List.foldl_cons, Interplay.eval_emission opened boundless]
      rfl
    have later := ih (c := { c with queue := c.queue ++ [emission.signal] }) opened boundless
    rw [first, later, List.map_cons]
    simp only [List.append_assoc, List.singleton_append]

theorem clamp_comm {duration : α} (positive : 0 < duration) (a : α) :
    Number.atMost duration (Number.atLeast 0 a) = Number.atLeast 0 (Number.atMost duration a) := by
  apply injective
  rw [lt_iff, zero] at positive
  rw [value_atMost, value_atLeast, value_atLeast, value_atMost, zero, min_max_distrib_left,
    min_eq_right positive.le]

end Exact

/-- The first step that finds a node playing after a seek reports as from the start of the seek, however
many steps have come in between. It does not if one of these has found the node stopped: then it reports
as from the beginning. Nor does it if the clock had seen the same segment already: then the clock goes
on as if there had been no seek. -/
theorem seek_kept_unless_missed [Number.Exact α] [Number.Equated α] {s : Show α} {library : Library}
    {rewiring : Rewiring} {backend : Backend α} {operations : List (Graph.Operation α)}
    (made : s.graph = (Graph.start library rewiring backend).after operations)
    (positive : 0 < s.config.simulatedSeconds) {earlier between : List (Happening α)} {name : String}
    {a b dt : α} {sought : Rehearsal α} (seeks : (Happening.command name .seek [a, b]).act.Returns
      (Rehearsal.after ⟨s, .empty⟩ earlier) () sought)
    (unsought : ∀ arguments, .command name .seek arguments ∉ between)
    (still : ∀ o ∈ sought.stream name between, o.node.transport ≠ .playing) {node : Node α}
    (live : (sought.after between).playing.graph.nodes.get? name = some node)
    (playing : node.transport = .playing) :
    let duration := s.config.simulatedSeconds
    let clock := (Rehearsal.after ⟨s, .empty⟩ earlier).clock name
    let r := sought.after between
    (∃ r', (Rehearsal.step dt).Returns r () r' ∧ (r.playing.channel.closed = false →
      r.playing.channel.capacity = 0 → r'.playing.channel.queue = r.playing.channel.queue ++
        (r.playing.graph.nodes.values.flatMap (r.reports dt)).map Emission.signal)) ∧
    ((∃ o ∈ sought.stream name between, o.node.transport = .stopped) →
      r.reports dt node = node.told duration (Number.atMost duration (0 + dt))) ∧
    ((∀ o ∈ sought.stream name between, o.node.transport ≠ .stopped) →
      (clock.segment = some (a, b) → r.reports dt node = if clock.ended then [] else
        node.told duration (Number.atMost duration (clock.elapsed + dt))) ∧
      (clock.segment ≠ some (a, b) → r.reports dt node = node.told duration
        (Number.atMost duration (Number.atLeast 0 (Number.atMost duration a) + dt)))) := by
  intro duration clock r
  have empty : Rehearsal.Sound ⟨s, .empty⟩ := Rehearsal.sound_of_made made
  have before : (Rehearsal.after ⟨s, .empty⟩ earlier).Sound := empty.after earlier
  have sound : sought.Sound := by
    have acted := before.act (.command name .seek [a, b])
    rwa [seeks] at acted
  obtain ⟨graph, same, -⟩ := Rehearsal.returns_command seeks
  have config : sought.playing.config = s.config := by
    rw [same]
    exact empty.config_after earlier
  have clocks : sought.clock name = clock := by rw [same]; rfl
  -- The step that finds the node playing is the last one of the stream.
  have last : sought.stream name (between ++ [.step dt]) =
      sought.stream name between ++ [⟨dt, node, r.reports dt node⟩] := by
    rw [Rehearsal.stream_append, Rehearsal.stream, Rehearsal.observation?, live]
    rfl
  have runs := Rehearsal.runs_stream sound name (between ++ [.step dt])
  have held : ∀ o ∈ sought.stream name (between ++ [.step dt]), o.node.segment = some (a, b) := by
    refine Rehearsal.segment_stream sound (fun _ => Rehearsal.segment_of_seek seeks) ?_
    simpa using unsought
  rw [last, clocks, config] at runs
  rw [last] at held
  refine ⟨?_, fun stops => runs.undone held still playing stops, fun unstopped => ?_⟩
  · obtain ⟨playback, returned, -⟩ := Rehearsal.returns_step (sound.after between).keyed dt
    refine ⟨_, returned, fun opened boundless => ?_⟩
    rw [Rehearsal.sending, Channel.sent_of_open opened boundless]
  · have paused : ∀ o ∈ sought.stream name between, o.node.transport = .paused := fun o member =>
      Transport.paused_of_ne (unstopped o member) (still o member)
    constructor
    · intro seen
      exact runs.kept held paused playing (Clock.stands_of_seen seen)
    · intro unseen
      rw [← clamp_comm positive]
      exact runs.kept held paused playing (Clock.stands_of_unseen unseen)

namespace Sample

def pausedMidway : List (Happening ℚ) :=
  [.command "a" .start [], .step 1, .command "a" .pause []]

def soughtInPause : Rehearsal ℚ :=
  ((Happening.command "a" .seek [5, 8]).act.eval (Rehearsal.after ⟨watch, .empty⟩ pausedMidway)).2

end Sample

/-- A seek in a pause is kept over a step. -/
theorem seek_kept_unless_missed_sample :
    let between : List (Happening ℚ) := [.step 1, .command "a" .start []]
    let r := Sample.soughtInPause.after between
    (Happening.command "a" .seek [5, 8]).act.Returns
        (Rehearsal.after ⟨Sample.watch, .empty⟩ Sample.pausedMidway) () Sample.soughtInPause ∧
      (∀ arguments, .command "a" .seek arguments ∉ between) ∧
      (∀ o ∈ Sample.soughtInPause.stream "a" between, o.node.transport = .paused) ∧
      ∃ node, r.playing.graph.nodes.get? "a" = some node ∧ node.transport = .playing ∧
        r.reports 1 node =
          node.told 10 (Number.atMost 10 (Number.atLeast 0 (Number.atMost 10 5) + 1)) := by
  intro between r
  have checks : ((Happening.command "a" .seek [5, 8]).act.eval
      (Rehearsal.after ⟨Sample.watch, .empty⟩ Sample.pausedMidway)).1.isOk = true ∧
      (∀ o ∈ Sample.soughtInPause.stream "a" between, o.node.transport = .paused) ∧
      (r.playing.graph.nodes.get? "a").map Node.transport = some .playing ∧
      ((Rehearsal.after ⟨Sample.watch, .empty⟩ Sample.pausedMidway).clock "a").segment ≠
        some (5, 8) := by
    decide +kernel
  obtain ⟨ok, paused, found, unseen⟩ := checks
  obtain ⟨⟨⟩, seeks⟩ := Act.exists_returns_of_isOk ok
  obtain ⟨node, live, playing⟩ := Option.map_eq_some_iff.1 found
  have unsought : ∀ arguments, .command "a" .seek arguments ∉ between := by simp [between]
  have duration : Sample.watch.config.simulatedSeconds = 10 := by decide +kernel
  have positive : 0 < Sample.watch.config.simulatedSeconds := by decide +kernel
  obtain ⟨-, -, kept⟩ := seek_kept_unless_missed rfl positive seeks unsought
    (fun o member => by simp [paused o member]) live playing
  have reports : r.reports 1 node = _ := (kept fun o member => by simp [paused o member]).2 unseen
  rw [duration] at reports
  exact ⟨seeks, unsought, paused, node, live, playing, reports⟩

/-- A second seek to the same segment is missed while the clock plays, and a step while the node is
stopped undoes a seek. In either case the last step does not report from the start of the seek. -/
theorem not_seek_kept :
    let r : Rehearsal ℚ := ⟨Sample.watch, .empty⟩
    let kept := some (Number.atMost 10 (Number.atLeast 0 (Number.atMost 10 5) + 1) / 10)
    let again : List (Happening ℚ) := [.command "a" .start [], .command "a" .seek [5, 8], .step 1,
      .command "a" .seek [5, 8], .step 1]
    let stopped : List (Happening ℚ) :=
      [.command "a" .seek [5, 8], .step 1, .command "a" .start [], .step 1]
    (r.stream "a" again).map Observation.value? = [kept, some (7 / 10)] ∧
      (r.stream "a" stopped).map Observation.value? = [none, some (1 / 10)] ∧
      kept ≠ some (7 / 10) ∧ kept ≠ some (1 / 10) := by
  decide +kernel

end ShowControl
