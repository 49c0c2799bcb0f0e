import Mathlib.Logic.Relation
import ShowControl.Proofs.Number.Exact
import ShowControl.Proofs.Show.Firing
import ShowControl.Proofs.Show.Loop
import ShowControl.Show.Playback

/-! Simulated clocks, the channel and the loop.

The clocks and the loop of a show go on side by side. A clock moves on and then sends its reports one
after the other, while the loop takes one signal out of the channel and handles it later; and ticks
and other operations come in between. In every such course the progress that takes a clock to its end
is handled before the end is, so that no cue up to there is lost. -/

set_option autoImplicit false
namespace ShowControl

variable {α : Type}

structure Interplay (α : Type) extends Rehearsal α where
  /-- The signal that the loop has taken out of the channel and has yet to handle. -/
  held : Option (Signal α)
  unsent : List (Emission α)

variable [Number α]

def Emission.signal : Emission α → Signal α
  | progress source value => .progress source (some (Number.atLeast 0 value))
  | callback source event => .callback source event

def Beat.emissions (node : Node α) (beat : Beat α) : List (Emission α) :=
  .progress node.handle beat.progress ::
    if beat.atEnd then [.callback node.handle (some "end")] else []

namespace Interplay

/-- The signals that are on their way, in the order in which they will be handled. -/
def inFlight (x : Interplay α) : List (Signal α) :=
  x.held.toList ++ x.playing.channel.queue ++ x.unsent.map Emission.signal

/-- What may happen next, if nothing is cut short. The clocks are the only ones to send signals. -/
inductive Plays : Interplay α → Interplay α → Prop where
  | operates {x : Interplay α} {t : Show α} (operation : Operation α) :
      (∀ signal, operation ≠ .handle signal) → operation.act.Returns x.playing () t →
      Plays x { x with playing := t }
  | takes {x : Interplay α} {t : Show α} {signal : Signal α} : x.playing.running = true →
      x.held = none → (Show.onChannel Channel.take).Returns x.playing (some signal) t →
      Plays x { x with playing := t, held := some signal }
  | handles {x : Interplay α} {t : Show α} {signal : Signal α} : x.held = some signal →
      (Show.handle signal).Returns x.playing () t →
      Plays x { x with playing := t, held := none }
  | beats {x : Interplay α} {node : Node α} {dt : α} {clock : Clock α} {beat : Option (Beat α)} :
      x.unsent = [] → node ∈ x.playing.graph.nodes.values →
      Clock.step x.playing.config.simulatedSeconds dt node
        ((x.playback.get? node.name).getD .start) = (clock, beat) →
      Plays x { x with
        playback := x.playback.insert node.name clock
        unsent := beat.toList.flatMap (Beat.emissions node) }
  | sends {x : Interplay α} {t : Show α} {emission : Emission α} {rest : List (Emission α)} :
      x.unsent = emission :: rest → (Show.onChannel emission.act).Returns x.playing () t →
      Plays x { x with playing := t, unsent := rest }

end Interplay

/-! A step of all clocks is a course of such events -/

namespace Rehearsal

open Interplay Relation

def heard {α : Type} (r : Rehearsal α) (channel : Channel α) : Rehearsal α :=
  { r with playing := { r.playing with channel } }

omit [Number α] in
theorem returns_onChannel {β : Type} {x : Act (Channel α) β} {r r' : Rehearsal α} {b : β}
    (returned : (onShow (Show.onChannel x)).Returns r b r') :
    ∃ channel, x.Returns r.playing.channel b channel ∧ r' = r.heard channel := by
  obtain ⟨_, inner, rfl⟩ := (Act.returns_zoom ..).1 returned
  obtain ⟨channel, put, rfl⟩ := (Act.returns_zoom ..).1 inner
  exact ⟨channel, put, rfl⟩

theorem plays_emission {r : Rehearsal α} {held : Option (Signal α)} {emission : Emission α}
    {rest : List (Emission α)} {channel : Channel α}
    (returned : emission.act.Returns r.playing.channel () channel) :
    Plays ⟨r, held, emission :: rest⟩ ⟨r.heard channel, held, rest⟩ :=
  .sends rfl ((Act.returns_zoom ..).2 ⟨channel, returned, rfl⟩)

theorem plays_send {r : Rehearsal α} {node : Node α} {beat : Beat α} {channel : Channel α}
    (held : Option (Signal α)) (returned : (send node beat).Returns r.playing.channel () channel) :
    ReflTransGen Plays ⟨r, held, beat.emissions node⟩ ⟨r.heard channel, held, []⟩ := by
  simp only [send, Act.returns_bind] at returned
  obtain ⟨_, first, progress, returned⟩ := returned
  have sent : (Emission.progress node.handle beat.progress).act.Returns r.playing.channel () first :=
    (Act.returns_bind ..).2 ⟨_, first, progress, rfl⟩
  refine .head (plays_emission sent) ?_
  cases atEnd : beat.atEnd with
  | false =>
    simp only [atEnd, Bool.false_eq_true, if_false, Act.returns_pure, true_and] at returned ⊢
    rw [returned]
  | true =>
    simp only [atEnd, if_true, Act.returns_bind, Act.returns_info] at returned
    obtain ⟨_, _, rfl, _, second, ended, _, rfl⟩ := returned
    have sent : (Emission.callback node.handle (some "end")).act.Returns first () second :=
      (Act.returns_bind ..).2 ⟨_, second, ended, rfl⟩
    exact .single (plays_emission (r := r.heard first) sent)

theorem plays_stepNode {r r' : Rehearsal α} {node : Node α} {dt : α} (held : Option (Signal α))
    (live : node ∈ r.playing.graph.nodes.values)
    (returned : (stepNode dt node).Returns r () r') :
    ReflTransGen Plays ⟨r, held, []⟩ ⟨r', held, []⟩ ∧ r'.playing.graph = r.playing.graph := by
  simp only [stepNode, Act.returns_bind, Act.returns_get, Act.returns_modify] at returned
  obtain ⟨_, _, ⟨rfl, rfl⟩, _, moved, rfl, returned⟩ := returned
  generalize stepped : Clock.step r.playing.config.simulatedSeconds dt node
    ((r.playback.get? node.name).getD .start) = outcome at returned
  obtain ⟨clock, beat⟩ := outcome
  have moves : Plays ⟨r, held, []⟩ _ := .beats rfl live stepped
  cases beat with
  | none =>
    obtain ⟨_, rfl⟩ := (Act.returns_pure ..).1 returned
    exact ⟨.single moves, rfl⟩
  | some beat =>
    obtain ⟨channel, sent, rfl⟩ := returns_onChannel returned
    refine ⟨.head moves ?_, rfl⟩
    simp only [Option.toList_some, List.flatMap_singleton]
    exact plays_send held sent

theorem plays_step {r r' : Rehearsal α} {dt : α} (held : Option (Signal α))
    (returned : (step dt).Returns r () r') :
    ReflTransGen Plays ⟨r, held, []⟩ ⟨r', held, []⟩ := by
  have along {nodes : List (Node α)} {r : Rehearsal α}
      (live : ∀ node ∈ nodes, node ∈ r.playing.graph.nodes.values)
      (returned : (stepNodes dt nodes).Returns r () r') :
      ReflTransGen Plays ⟨r, held, []⟩ ⟨r', held, []⟩ := by
    induction nodes generalizing r with
    | nil =>
      obtain ⟨_, rfl⟩ := (Act.returns_pure ..).1 returned
      exact .refl
    | cons node rest ih =>
      obtain ⟨_, _, first, returned⟩ := (Act.returns_bind ..).1 returned
      obtain ⟨plays, same⟩ := plays_stepNode held (live node List.mem_cons_self) first
      refine plays.trans (ih (fun other member => ?_) returned)
      rw [same]
      exact live other (List.mem_cons_of_mem _ member)
  simp only [step, Act.returns_bind, Act.returns_get] at returned
  obtain ⟨_, _, ⟨rfl, rfl⟩, returned⟩ := returned
  exact along (fun _ member => member) returned

end Rehearsal

/-! Ends are heralded by the progress that leads to them -/

/-- Before each end there is the progress that leads to it, unless that has been handled. -/
def Heralded (handled : Handle → Prop) (signals : List (Signal α)) : Prop :=
  ∀ earlier source later, signals = earlier ++ .callback source (some "end") :: later →
    handled source ∨ ∃ value, 1 ≤ value ∧ .progress source (some value) ∈ earlier

section
variable {handled handled' : Handle → Prop}

theorem heralded_nil : Heralded handled ([] : List (Signal α)) := by
  intro earlier source later split
  simp at split

theorem Heralded.mono {signals : List (Signal α)} (heralded : Heralded handled signals)
    (more : ∀ source, handled source → handled' source) : Heralded handled' signals :=
  fun earlier source later split => (heralded earlier source later split).imp_left (more source)

theorem Heralded.tail {signal : Signal α} {rest : List (Signal α)}
    (heralded : Heralded handled (signal :: rest))
    (more : ∀ source, handled source → handled' source)
    (full : ∀ source value, signal = .progress source (some value) → 1 ≤ value → handled' source) :
    Heralded handled' rest := by
  rintro earlier source later rfl
  rcases heralded (signal :: earlier) source later rfl with before | ⟨value, come, member⟩
  · exact .inl (more source before)
  · rcases List.mem_cons.1 member with rfl | member
    · exact .inl (full source value rfl come)
    · exact .inr ⟨value, come, member⟩

theorem Heralded.append {first second : List (Signal α)} (before : Heralded handled first)
    (later : Heralded (fun _ => False) second) : Heralded handled (first ++ second) := by
  intro earlier source rest split
  rcases List.append_eq_append_iff.1 split with ⟨between, rfl, behind⟩ | ⟨between, ahead, behind⟩
  · obtain ⟨value, come, member⟩ := (later between source rest behind).resolve_left id
    exact .inr ⟨value, come, List.mem_append_right first member⟩
  · cases between with
    -- The end is the first one of the later signals.
    | nil =>
      obtain ⟨value, _, member⟩ := (later [] source rest behind.symm).resolve_left id
      cases member
    | cons signal between =>
      obtain ⟨rfl, _⟩ := List.cons.inj behind
      exact before earlier source between ahead

end

section
variable [Number.Exact α]

theorem Clock.progress_of_atEnd {duration dt : α} (positive : 0 < duration) {node : Node α}
    {clock clock' : Clock α} {beat : Beat α}
    (stepped : clock.step duration dt node = (clock', some beat)) (atEnd : beat.atEnd = true) :
    beat.progress = 1 := by
  simp only [Clock.step, Clock.run] at stepped
  split at stepped
  · cases stepped
  · cases stepped
  · split at stepped
    · cases stepped
    · obtain rfl := Option.some.inj (Prod.mk.inj stepped).2
      simp only at atEnd ⊢
      rw [Number.Exact.atMost_eq (of_decide_eq_true atEnd), Number.Exact.quotient_self positive]

theorem heralded_emissions {node : Node α} {beat : Beat α}
    (full : beat.atEnd = true → beat.progress = 1) :
    Heralded (fun _ => False) ((beat.emissions node).map Emission.signal) := by
  have alone (value : α) :
      Heralded (fun _ => False) [Signal.progress node.handle (some value)] := by
    intro earlier source later split
    obtain _ | ⟨_, rest⟩ := earlier <;> simp at split
  cases atEnd : beat.atEnd with
  | false => simpa [Beat.emissions, atEnd, Emission.signal] using alone _
  | true =>
    intro earlier source later split
    simp only [Beat.emissions, atEnd, if_true, full atEnd, List.map_cons, List.map_nil,
      Emission.signal] at split
    obtain _ | ⟨signal, _ | ⟨other, rest⟩⟩ := earlier
    · simp at split
    · simp only [List.cons_append, List.nil_append, List.cons.injEq, Signal.callback.injEq,
        and_true] at split
      obtain ⟨rfl, rfl, _⟩ := split
      refine .inr ⟨Number.atLeast 0 1, ?_, List.mem_cons_self⟩
      rw [Number.atLeast, if_pos Number.Exact.positive_one]
      exact Number.Exact.comparable 1
    · simp at split

end

/-! What holds in every course -/

namespace Show

def CaughtUp (s : Show α) (source : Handle) : Prop :=
  ∀ node, s.graph.resolve source = some node → ∀ cue ∈ s.program.cues, ∀ threshold,
    cue.trigger = .progress node threshold → threshold ≤ 1 → cue ∈ s.dispatched

structure Carries (s t : Show α) : Prop where
  program : t.program = s.program
  config : t.config = s.config
  resolve (handle : Handle) : t.graph.resolve handle = s.graph.resolve handle
  signals : t.isOver = false → s.isOver = false ∧ t.channel = s.channel
  idle : t.phase = .idle → s.phase = .idle
  dispatched : s.dispatched <+: t.dispatched
  known : (∀ cue ∈ s.dispatched, cue ∈ s.program.cues) → ∀ cue ∈ t.dispatched, cue ∈ s.program.cues

theorem carries_of_returns {s t : Show α} (operation : Operation α)
    (numbered : s.program.Numbered) (returned : operation.act.Returns s () t) : Carries s t := by
  have does := does_of_returns numbered returned
  have attends : Attends s t := (attends_act operation).of_returns returned
  obtain ⟨fired, first, dispatched, _⟩ := does.dispatches
  refine ⟨does.keeps.1, does.keeps.2, attends.resolve, attends.signals,
    fun idle => does.eq_of_idle idle ▸ idle, ?_, fun known => ?_⟩
  · rw [dispatched]
    exact List.prefix_append _ _
  · intro cue member
    rw [dispatched] at member
    rcases List.mem_append.1 member with before | now
    · exact known cue before
    · exact (mem_released (first.subset now)).1

theorem Carries.caughtUp {s t : Show α} (carries : Carries s t) (source : Handle)
    (before : s.CaughtUp source) : t.CaughtUp source := by
  intro node found cue present threshold trigger small
  rw [carries.resolve] at found
  rw [carries.program] at present
  exact carries.dispatched.subset (before node found cue present threshold trigger small)

/-- Full progress fires all cues up to the end of the clock, unless one ends the show. -/
theorem caughtUp_of_progress [Number.Exact α] {s t : Show α} (numbered : s.program.Numbered)
    (comparable : s.program.Comparable) (known : ∀ cue ∈ s.dispatched, cue ∈ s.program.cues)
    {source : Handle} {value : α} (full : 1 ≤ value)
    (returned : (handle (.progress source (some value))).Returns s () t)
    (running : t.running = true) : t.CaughtUp source := by
  have carries := carries_of_returns (.handle (.progress source (some value))) numbered returned
  intro node found cue present threshold trigger small
  rw [carries.resolve] at found
  rw [carries.program] at present
  cases does_handle numbered returned with
  | deaf _ deaf => simp [deaf] at running
  | lost _ lost => exact absurd (lost.symm.trans found) nofun
  | hears _ found' releases =>
    obtain rfl := Option.some.inj (found'.symm.trans found)
    obtain ⟨fired, _, dispatched, all⟩ := releases.dispatched
    rw [dispatched, all running]
    cases before : s.hasFired cue with
    -- The numbering is by cue, so what has fired under its number is the cue itself.
    | true =>
      obtain ⟨other, member, same⟩ := List.mem_map.1 (hasFired_iff.1 before)
      obtain rfl := numbered.eq_of_order (known other member) present same
      exact List.mem_append_left _ member
    | false =>
      refine List.mem_append_right _ (mem_due numbered comparable ?_ present trigger ?_ before)
      · exact Number.Exact.comparable value
      · exact Number.Ordered.le_trans small full

end Show

namespace Interplay

open Show

variable {p : Program α}

structure Sound (p : Program α) (x : Interplay α) : Prop where
  program : x.playing.program = p
  duration : 0 < x.playing.config.simulatedSeconds
  known : ∀ cue ∈ x.playing.dispatched, cue ∈ p.cues
  begun : x.held ≠ none → x.playing.phase ≠ .idle
  boundless : x.playing.isOver = false →
    x.playing.channel.closed = false ∧ x.playing.channel.capacity = 0
  heralded : x.playing.isOver = false → Heralded x.playing.CaughtUp x.inFlight

theorem Sound.operate {x : Interplay α} (sound : x.Sound p) {t : Show α}
    (carries : Carries x.playing t) : Sound p { x with playing := t } where
  program := carries.program.trans sound.program
  duration := by
    rw [carries.config]
    exact sound.duration
  known := by
    rw [← sound.program]
    exact carries.known (sound.program ▸ sound.known)
  begun holds idle := sound.begun holds (carries.idle idle)
  boundless notOver := by
    obtain ⟨before, same⟩ := carries.signals notOver
    rw [same]
    exact sound.boundless before
  heralded notOver := by
    obtain ⟨before, same⟩ := carries.signals notOver
    have signals : inFlight { x with playing := t } = x.inFlight := by
      simp only [inFlight, same]
    rw [signals]
    exact (sound.heralded before).mono carries.caughtUp

variable [Number.Exact α]

theorem Sound.handle {x : Interplay α} (sound : x.Sound p) (numbered : p.Numbered)
    (comparable : p.Comparable) {signal : Signal α} (held : x.held = some signal) {t : Show α}
    (returned : (handle signal).Returns x.playing () t) :
    Sound p { x with playing := t, held := none } := by
  have carries := carries_of_returns (.handle signal) (sound.program ▸ numbered) returned
  have kept := sound.operate carries
  refine ⟨kept.program, kept.duration, kept.known, nofun, kept.boundless, fun notOver => ?_⟩
  obtain ⟨before, same⟩ := carries.signals notOver
  have signals : x.inFlight = signal :: inFlight { x with playing := t, held := none } := by
    simp only [inFlight, held, same]
    rfl
  refine (signals ▸ sound.heralded before).tail carries.caughtUp ?_
  rintro source value rfl full
  have program := sound.program
  -- The signal was taken from a show that had begun, and that is not over now.
  have running : t.running = true := by
    refine running_iff_phase.2 ((isOver_eq_false.1 notOver).resolve_left fun idle => ?_)
    exact sound.begun (by simp [held]) (carries.idle idle)
  exact caughtUp_of_progress (program ▸ numbered) (program ▸ comparable)
    (program ▸ sound.known) full returned running

omit [Number.Exact α] in
theorem Sound.take {x : Interplay α} (sound : x.Sound p) (running : x.playing.running = true)
    (free : x.held = none) {signal : Signal α} {t : Show α}
    (returned : (onChannel Channel.take).Returns x.playing (some signal) t) :
    Sound p { x with playing := t, held := some signal } := by
  rw [Act.Returns] at returned
  cases queue : x.playing.channel.queue with
  | nil =>
    rw [eval_take_nil queue] at returned
    cases returned
  | cons first rest =>
    rw [eval_take_cons queue, Prod.mk.injEq, Except.ok.injEq, Option.some.injEq] at returned
    obtain ⟨rfl, rfl⟩ := returned
    refine ⟨sound.program, sound.duration, sound.known, fun _ idle => ?_, sound.boundless,
      fun notOver => ?_⟩
    · have idle : x.playing.phase = .idle := idle
      simp [running_iff_phase, idle] at running
    · have same : inFlight { x with
          playing := x.playing.leaving rest, held := some first } = x.inFlight := by
        simp only [inFlight, free, queue]
        rfl
      rw [same]
      exact sound.heralded notOver

theorem Sound.beat {x : Interplay α} (sound : x.Sound p) (still : x.unsent = []) {node : Node α}
    {dt : α} {clock clock' : Clock α} {beat : Option (Beat α)}
    (stepped : clock.step x.playing.config.simulatedSeconds dt node = (clock', beat)) :
    Sound p { x with
      playback := x.playback.insert node.name clock'
      unsent := beat.toList.flatMap (Beat.emissions node) } := by
  refine ⟨sound.program, sound.duration, sound.known, sound.begun, sound.boundless,
    fun notOver => ?_⟩
  have before := sound.heralded notOver
  simp only [inFlight, still, List.map_nil, List.append_nil] at before
  refine before.append ?_
  -- What the clock is about to send comes behind all other signals.
  cases beat with
  | none => exact heralded_nil
  | some beat =>
    rw [Option.toList_some, List.flatMap_singleton]
    exact heralded_emissions (Clock.progress_of_atEnd sound.duration stepped)

theorem eval_emission {c : Channel α} (closed : c.closed = false) (boundless : c.capacity = 0)
    (emission : Emission α) :
    emission.act.eval c = (.ok (), { c with queue := c.queue ++ [emission.signal] }) := by
  have room : c.full = false := by simp [Channel.full, boundless]
  cases emission with
  | progress source value =>
    simp only [Emission.act, Channel.putProgress, Number.Exact.defined, Channel.put, closed, room,
      Act.eval_bind, Act.eval_get, Act.eval_modify, Act.eval_pure, Bool.false_eq_true, if_false,
      Emission.signal]
  | callback source event =>
    simp only [Emission.act, Channel.putCallback, Channel.put, closed, room, Act.eval_bind,
      Act.eval_get, Act.eval_modify, Act.eval_pure, Bool.false_eq_true, if_false, Emission.signal]

theorem Sound.send {x : Interplay α} (sound : x.Sound p) {emission : Emission α}
    {rest : List (Emission α)} (next : x.unsent = emission :: rest) {t : Show α}
    (returned : (onChannel emission.act).Returns x.playing () t) :
    Sound p { x with playing := t, unsent := rest } := by
  obtain ⟨channel, put, rfl⟩ := (Act.returns_zoom ..).1 returned
  have taken (notOver : x.playing.isOver = false) : channel = { x.playing.channel with
      queue := x.playing.channel.queue ++ [emission.signal] } := by
    obtain ⟨closed, boundless⟩ := sound.boundless notOver
    rw [Act.Returns, eval_emission closed boundless] at put
    exact (Prod.mk.inj put).2.symm
  refine ⟨sound.program, sound.duration, sound.known, sound.begun, fun notOver => ?_,
    fun notOver => ?_⟩
  · rw [taken notOver]
    exact sound.boundless notOver
  · have same : inFlight { x with
        playing := { x.playing with channel }, unsent := rest } = x.inFlight := by
      simp only [inFlight, taken notOver, next, List.map_cons, List.append_assoc,
        List.singleton_append]
    rw [same]
    exact sound.heralded notOver

theorem Sound.plays {x y : Interplay α} (sound : x.Sound p) (numbered : p.Numbered)
    (comparable : p.Comparable) (plays : Plays x y) : y.Sound p := by
  cases plays with
  | operates operation _ returned =>
    exact sound.operate (carries_of_returns _ (sound.program ▸ numbered) returned)
  | takes running free returned => exact sound.take running free returned
  | handles held returned => exact sound.handle numbered comparable held returned
  | beats still _ stepped => exact sound.beat still stepped
  | sends next returned => exact sound.send next returned

theorem Sound.course {x y : Interplay α} (sound : x.Sound p) (numbered : p.Numbered)
    (comparable : p.Comparable) (course : Relation.ReflTransGen Plays x y) : y.Sound p := by
  induction course with
  | refl => exact sound
  | tail _ plays ih => exact ih.plays numbered comparable plays

omit [Number.Exact α] in
theorem sound_of_build {config : Config α} {backend : Backend α} {report : Report} {s : Show α}
    (positive : 0 < config.simulatedSeconds)
    (built : build.Returns (ofProgram p config backend) report s) :
    Sound p ⟨⟨s, .empty⟩, none, []⟩ := by
  have same : Builds (ofProgram p config backend) s := builds_build.of_returns built
  rw [same]
  refine ⟨rfl, positive, fun _ member => (nomatch member), fun holds => absurd rfl holds,
    fun _ => ⟨rfl, rfl⟩, fun _ => heralded_nil⟩

end Interplay

/-- In every course of simulated clocks, ticks and the loop, all cues on the progress of a node have
fired when its end is handled, and the cues on the end fire behind them. -/
theorem thresholds_fire_before_end [Number.Exact α] {program : Program α} {config : Config α}
    {backend : Backend α} {report : Report} {s t : Show α} {x : Interplay α}
    (compiled : program.Compiled) (positive : 0 < config.simulatedSeconds)
    (built : Show.build.Returns (Show.ofProgram program config backend) report s)
    (course : Relation.ReflTransGen Interplay.Plays ⟨⟨s, .empty⟩, none, []⟩ x)
    {source : Handle} {node : String} (held : x.held = some (.callback source (some "end")))
    (running : x.playing.running = true) (found : x.playing.graph.resolve source = some node)
    (returned : (Show.handle (.callback source (some "end"))).Returns x.playing () t) :
    (∀ cue ∈ program.cues, ∀ threshold, cue.trigger = .progress node threshold →
      threshold ≤ 1 → cue ∈ x.playing.dispatched) ∧
    ∃ fired, fired <+: program.callbackCuesOn node "end" ∧
      t.dispatched = x.playing.dispatched ++ fired := by
  have sound : x.Sound program := (Interplay.sound_of_build positive built).course
    compiled.numbered compiled.comparable course
  have same := sound.program
  constructor
  · have heralded := sound.heralded (Show.isOver_of_running running)
    have ahead : x.inFlight = [] ++ .callback source (some "end") ::
        (x.playing.channel.queue ++ x.unsent.map Emission.signal) := by
      simp only [Interplay.inFlight, held]
      rfl
    -- Nothing is ahead of the signal in hand, so its progress has been handled.
    rcases heralded _ _ _ ahead with caughtUp | ⟨_, _, member⟩
    · rw [← same]
      exact caughtUp node found
    · cases member
  · have does := Show.does_handle (same ▸ compiled.numbered) returned
    obtain ⟨fired, first, dispatched, _⟩ := does.dispatches
    refine ⟨fired, first.trans ?_, dispatched⟩
    simp only [Show.released, Show.hears?, Show.reports?, running, found, if_true, Option.map_some,
      same]
    split
    · exact List.nil_prefix
    · exact List.prefix_rfl

/-! A clock that comes to its end in one step -/

deriving instance DecidableEq for Signal

namespace Sample

def clockwork : String :=
  "raw w 0 fakesrc\nwar\nnew w a\non pre act a play start\non callback a end act a play stop\n" ++
  "on progress a 1 act a play pause\n"

def wound : Show ℚ := Show.ready (Script.programOf clockwork) .standard

def opened : Show ℚ := (Show.begin.eval wound).2

def clocked : Rehearsal ℚ := ((Rehearsal.step 10).eval ⟨opened, .empty⟩).2

def full : Signal ℚ := .progress (.name "a") (some 1)

def runOut : Signal ℚ := .callback (.name "a") (some "end")

def caught : Show ℚ := ((Show.handle full).eval (clocked.playing.leaving [runOut])).2

end Sample

set_option maxRecDepth 20000 in
/-- The clock sends its progress and its end in one step, and the cue on the progress fires before
the end is handled. -/
theorem thresholds_fire_before_end_sample :
    let x : Interplay ℚ :=
      ⟨⟨Sample.caught.leaving [], Sample.clocked.playback⟩, some Sample.runOut, []⟩
    (Script.programOf Sample.clockwork : Program ℚ).Compiled ∧
      Relation.ReflTransGen Interplay.Plays ⟨⟨Sample.wound, .empty⟩, none, []⟩ x ∧
      x.playing.running = true ∧ x.playing.graph.resolve (.name "a") = some "a" ∧
      (∀ cue ∈ (Script.programOf Sample.clockwork : Program ℚ).cues, ∀ threshold,
        cue.trigger = .progress "a" threshold → threshold ≤ 1 → cue ∈ x.playing.dispatched) ∧
      x.playing.dispatched.map Cue.order = [0, 2] := by
  intro x
  have compiled : (Script.programOf Sample.clockwork : Program ℚ).Compiled :=
    Script.compiled_programOf (by decide +kernel)
  have checks : (((Show.build.eval (Show.ofProgram (Script.programOf Sample.clockwork)
        (.standard : Config ℚ) .obliging)).1.isOk &&
      (Show.begin.eval Sample.wound).1.isOk &&
      ((Rehearsal.step 10).eval ⟨Sample.opened, .empty⟩).1.isOk &&
      ((Show.handle Sample.full).eval (Sample.clocked.playing.leaving [Sample.runOut])).1.isOk &&
      ((Show.handle Sample.runOut).eval x.playing).1.isOk) &&
      decide (Sample.opened.running = true ∧ Sample.clocked.playing.running = true ∧
        Sample.clocked.playing.channel.queue = [Sample.full, Sample.runOut] ∧
        Sample.caught.channel.queue = [Sample.runOut] ∧ Sample.caught.running = true ∧
        x.playing.graph.resolve (.name "a") = some "a" ∧
        x.playing.dispatched.map Cue.order = [0, 2])) = true := by
    decide +kernel
  simp only [Bool.and_eq_true, decide_eq_true_eq] at checks
  obtain ⟨⟨⟨⟨⟨builds, begins⟩, steps⟩, handles⟩, ends⟩, opened, clocked, sent, left, running, found,
    fired⟩ := checks
  obtain ⟨report, built⟩ := Act.exists_returns_of_isOk builds
  obtain ⟨_, begun⟩ := Act.exists_returns_of_isOk begins
  obtain ⟨_, stepped⟩ := Act.exists_returns_of_isOk steps
  obtain ⟨_, handled⟩ := Act.exists_returns_of_isOk handles
  obtain ⟨_, ended⟩ := Act.exists_returns_of_isOk ends
  have course : Relation.ReflTransGen Interplay.Plays ⟨⟨Sample.wound, .empty⟩, none, []⟩ x := by
    refine .head (.operates .begin nofun begun) (.trans (Rehearsal.plays_step none stepped) ?_)
    refine .head (.takes clocked rfl (Show.eval_take_cons sent)) ?_
    refine .head (.handles rfl handled) ?_
    exact .single (.takes running rfl (Show.eval_take_cons left))
  have law := thresholds_fire_before_end compiled (by decide +kernel) built course rfl running found
    ended
  exact ⟨compiled, course, running, found, law.1, fired⟩

end ShowControl
