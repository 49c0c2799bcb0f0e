import ShowControl.Proofs.Script.Compiled
import ShowControl.Proofs.Show.Loop

/-! The end of a show is final.

Whatever happens to a show, inside of its loop or outside, and whether faults come up or not, its
phase only goes forward. Where a show comes to its last phase, its channel is closed and empty and
nothing moves any more; and from there on nothing that it has done changes. -/

set_option autoImplicit false
namespace ShowControl

variable {α : Type}

namespace Phase

def rank : Phase → Nat
  | idle => 0
  | running => 1
  | draining => 2
  | terminated => 3

/-- A way through phases each of which comes later than the one before. -/
inductive Leads : Phase → List Phase → Phase → Prop where
  | stays (p : Phase) : Leads p [] p
  | enters {p q r : Phase} {entered : List Phase} : p.rank < q.rank → Leads q entered r →
      Leads p (q :: entered) r

theorem Leads.append {p q r : Phase} {first second : List Phase} (before : Leads p first q)
    (later : Leads q second r) : Leads p (first ++ second) r := by
  induction before with
  | stays => exact later
  | enters forward _ ih => exact .enters forward (ih later)

theorem Leads.rank_le {p q : Phase} {entered : List Phase} (leads : Leads p entered q) :
    p.rank ≤ q.rank := by
  induction leads with
  | stays => exact Nat.le_refl _
  | enters forward _ ih => exact Nat.le_trans (Nat.le_of_lt forward) ih

theorem Leads.of_terminated {q : Phase} {entered : List Phase}
    (leads : Leads .terminated entered q) : q = .terminated := by
  have last := leads.rank_le
  cases q <;> first | rfl | exact absurd last (by decide)

theorem Leads.ne_idle {p q : Phase} {entered : List Phase} (leads : Leads p entered q)
    (begun : p ≠ .idle) : q ≠ .idle := by
  rintro rfl
  have first := leads.rank_le
  cases p <;> first | exact begun rfl | exact absurd first (by decide)

end Phase

namespace Channel

/-- No signal waits, and none will be taken. -/
def Shut (c : Channel α) : Prop := c.closed = true ∧ c.queue = []

def StaysShut (c d : Channel α) : Prop := c.Shut → d.Shut

instance : IsPreorder (Channel α) StaysShut where
  refl _ := id
  trans _ _ _ first second := second ∘ first

theorem shut_put (signal : Signal α) : (put signal).Keeps StaysShut := by
  intro c shut
  have turnedAway : (put signal).eval c = (.ok false, { c with dropped := c.dropped + 1 }) := by
    simp only [put, Act.eval_bind, Act.eval_get, shut.1, if_true, Act.eval_modify, Act.eval_debug,
      Act.eval_pure]
  rw [turnedAway]
  exact shut

theorem shut_take : (take : Act (Channel α) (Option (Signal α))).Keeps StaysShut := by
  intro c shut
  have nothing : take.eval c = (.ok none, c) := by
    simp only [take, Act.eval_bind, Act.eval_get, shut.2, Act.eval_pure]
  rw [nothing]
  exact shut

theorem shut_emission [Number α] (emission : Emission α) : emission.act.Keeps StaysShut := by
  cases emission with
  | progress source value =>
    refine Act.keeps_bind ?_ fun _ => Act.keeps_pure _
    rw [putProgress]
    split
    · exact Act.keeps_bind (Act.keeps_log _ _) fun _ => Act.keeps_pure _
    · exact shut_put _
  | callback source event => exact Act.keeps_bind (shut_put _) fun _ => Act.keeps_pure _

end Channel

namespace Show

/-- No operation leaves a show between its end and its last phase, and in that phase its channel is
closed and empty, and nothing moves. -/
structure Tidy (s : Show α) : Prop where
  settled : s.phase ≠ .draining
  shut : s.phase = .terminated → s.channel.Shut
  still : s.phase = .terminated → s.desk.animator.count = 0

/-- What may become of a show. -/
structure Onward (s t : Show α) : Prop where
  forward : ∃ entered, t.phases = s.phases ++ entered ∧ Phase.Leads s.phase entered t.phase
  tidy : s.Tidy → t.Tidy
  desk : s.phase = .terminated → t.desk = s.desk
  cues : s.phase = .terminated → t.dispatched = s.dispatched ∧ t.completed = s.completed
  reason : s.phase = .terminated → t.reason = s.reason

theorem Onward.terminated {s t : Show α} (onward : Onward s t) (ended : s.phase = .terminated) :
    t.phase = .terminated := by
  obtain ⟨entered, _, leads⟩ := onward.forward
  rw [ended] at leads
  exact leads.of_terminated

instance : IsPreorder (Show α) Onward where
  refl s := ⟨⟨[], (List.append_nil _).symm, .stays _⟩, id, fun _ => rfl, fun _ => ⟨rfl, rfl⟩,
    fun _ => rfl⟩
  trans s t u first second := by
    obtain ⟨entered, phases, leads⟩ := first.forward
    obtain ⟨entered', phases', leads'⟩ := second.forward
    refine ⟨⟨entered ++ entered', ?_, leads.append leads'⟩, second.tidy ∘ first.tidy, ?_, ?_, ?_⟩
    · rw [phases', phases, List.append_assoc]
    -- What is over stays over, so that the second way changes nothing either.
    all_goals intro ended; have ended' := first.terminated ended
    · exact (second.desk ended').trans (first.desk ended)
    · exact ⟨(second.cues ended').1.trans (first.cues ended).1,
        (second.cues ended').2.trans (first.cues ended).2⟩
    · exact (second.reason ended').trans (first.reason ended)

/-- As long as a show runs on, anything else may change. -/
theorem onward_of_running {s t : Show α} (running : s.running = true) (phase : t.phase = s.phase)
    (phases : t.phases = s.phases) : Onward s t := by
  have runs := running_iff_phase.1 running
  have notEnded : s.phase ≠ .terminated := by simp [runs]
  refine ⟨⟨[], ?_, ?_⟩, fun _ => ⟨?_, ?_, ?_⟩, ?_, ?_, ?_⟩
  · rw [phases, List.append_nil]
  · rw [phase]
    exact .stays _
  · simp [phase, runs]
  · exact fun ended => absurd (phase ▸ ended) notEnded
  · exact fun ended => absurd (phase ▸ ended) notEnded
  all_goals exact fun ended => absurd ended notEnded

/-- What is not asked for after the end of a show may change at any time. -/
theorem onward_of_same {s t : Show α} (phase : t.phase = s.phase ∧ t.phases = s.phases)
    (desk : t.desk = s.desk) (cues : t.dispatched = s.dispatched ∧ t.completed = s.completed)
    (reason : t.reason = s.reason) (channel : Channel.StaysShut s.channel t.channel) :
    Onward s t := by
  refine ⟨⟨[], ?_, ?_⟩, fun tidy => ⟨?_, ?_, ?_⟩, fun _ => desk, fun _ => cues, fun _ => reason⟩
  · rw [phase.2, List.append_nil]
  · rw [phase.1]
    exact .stays _
  · rw [phase.1]
    exact tidy.settled
  · rw [phase.1]
    exact fun ended => channel (tidy.shut ended)
  · rw [phase.1, desk]
    exact tidy.still

theorem onward_finished {s : Show α} (notEnded : s.phase ≠ .terminated) (reason : String)
    {cancel : Bool} (still : cancel = true ∨ s.desk.animator.count = 0) :
    Onward s (s.finished reason cancel) := by
  refine ⟨⟨(if s.phase = .draining then [] else [.draining]) ++ [.terminated], ?_, ?_⟩,
    fun _ => ⟨?_, fun _ => ⟨rfl, rfl⟩, fun _ => ?_⟩, ?_, ?_, ?_⟩
  · exact List.append_assoc ..
  · show Phase.Leads s.phase _ .terminated
    cases phase : s.phase with
    | terminated => exact absurd phase notEnded
    | draining => exact .enters (by decide) (.stays _)
    -- From any other phase the end leads through `draining`.
    | _ => exact .enters (by decide) (.enters (by decide) (.stays _))
  · exact fun draining => nomatch draining
  · cases cancel with
    | true => rfl
    | false => exact still.resolve_left Bool.false_ne_true
  all_goals exact fun ended => absurd ended notEnded

theorem not_terminated_of_isOver {s : Show α} (notOver : s.isOver = false) :
    s.phase ≠ .terminated := by
  rcases isOver_eq_false.1 notOver with idle | running <;> simp [*]

theorem onward_entered {s : Show α} (idle : s.phase = .idle) : Onward s (s.entered .running) := by
  have notEnded : s.phase ≠ .terminated := by simp [idle]
  refine ⟨⟨[.running], rfl, ?_⟩, fun _ => ⟨nofun, nofun, nofun⟩, ?_, ?_, ?_⟩
  · rw [idle]
    exact .enters (by decide) (.stays _)
  all_goals exact fun ended => absurd ended notEnded

theorem Alters.onward {s t : Show α} (alters : Alters s t) : Onward s t := by
  cases alters with
  | begins idle => exact onward_entered idle
  | ends notOver still => exact onward_finished (not_terminated_of_isOver notOver) _ still
  | fires running | completes running | hears running | reports running | advances running =>
    exact onward_of_running running rfl rfl

theorem Becomes.onward {s t : Show α} (becomes : Becomes s t) : Onward s t :=
  becomes.preserves fun _ _ => Alters.onward

variable [Number α]

/-- Once a show has been told to begin, it is not idle any more. -/
theorem not_idle_of_begin (s : Show α) : (begin.eval s).2.phase ≠ .idle := by
  by_cases idle : s.phase = .idle
  · rw [eval_begin_of_idle idle]
    obtain ⟨_, _, leads⟩ := (becomes_opening (s.entered .running)).onward.forward
    exact leads.ne_idle nofun
  · obtain ⟨_, _, leads⟩ := (becomes_begin s).onward.forward
    exact leads.ne_idle idle

/-! Signals and faults -/

omit [Number α] in
theorem onward_onChannel {β : Type} {x : Act (Channel α) β} (shut : x.Keeps Channel.StaysShut) :
    (onChannel x).Keeps Onward :=
  Act.keeps_zoom shut fun _ _ kept => onward_of_same ⟨rfl, rfl⟩ rfl ⟨rfl, rfl⟩ rfl kept

theorem onward_intervention (intervention : Intervention α) :
    intervention.act.Keeps Onward := by
  rcases intervention with operation | emission | ⟨_ | _, reason⟩
  · exact fun s => (becomes_act operation s).onward
  · exact onward_onChannel (Channel.shut_emission emission)
  · exact fun s => (becomes_terminate reason s).onward
  · exact Act.keeps_bind (onward_onChannel (Channel.shut_put _)) fun _ => Act.keeps_pure _

omit [Number α] in
/-- A fault in the loop ends the show, unless it is over already. -/
theorem onward_failed (s : Show α) (fault : Fault) : Onward s (s.failed fault) := by
  have noted : Onward s { s with failure := some fault } :=
    onward_of_same ⟨rfl, rfl⟩ rfl ⟨rfl, rfl⟩ rfl id
  simp only [failed]
  split
  · exact noted
  · next notEnded =>
    have ends : ({ s with failure := some fault } : Show α).phase ≠ .terminated := notEnded
    exact trans_of Onward noted (onward_finished ends _ (.inl rfl))

omit [Number α] in
theorem failed_phase (s : Show α) (fault : Fault) : (s.failed fault).phase = .terminated := by
  simp only [failed]
  split
  · next ended => exact ended
  · rfl

end Show

/-! Performances -/

namespace Performance

open Show

variable [Number α]

omit [Number α] in
@[simp] theorem playing_unless {β : Type} (next : LoopPoint α) (outcome : Except Fault β × Show α) :
    (next.unless outcome).playing = outcome.2 := by
  obtain ⟨_ | _, t⟩ := outcome <;> rfl

omit [Number α] in
theorem unless_ne_away {β : Type} (next : LoopPoint α) (going : next ≠ .away)
    (outcome : Except Fault β × Show α) : (next.unless outcome).point ≠ .away := by
  obtain ⟨_ | _, t⟩ := outcome
  · exact nofun
  · exact going

theorem onward_step (x : Performance α) (due : Bool) : Onward x.playing (x.step due).playing := by
  obtain ⟨s, point⟩ := x
  cases point with
  | away =>
    simp only [step, playing_unless]
    exact (becomes_begin s).onward
  | looking => exact refl_of Onward s
  | waiting =>
    have took := onward_onChannel (α := α) Channel.shut_take s
    simp only [step]
    generalize (onChannel Channel.take).eval s = outcome at took ⊢
    obtain ⟨_ | _ | _, t⟩ := outcome <;> exact took
  | holding signal =>
    simp only [step, playing_unless]
    exact (becomes_handle signal s).onward
  | ticking =>
    cases due with
    | false => exact refl_of Onward s
    | true =>
      simp only [step, if_true, playing_unless]
      exact (becomes_tick s).onward
  | failing fault =>
    simp only [step, eval_fail]
    exact onward_failed s fault

theorem onward_turn (x : Performance α) (turn : Turn α) :
    Onward x.playing (x.turn turn).playing := by
  cases turn with
  | loop due => exact onward_step x due
  | outside intervention => exact onward_intervention intervention x.playing

theorem onward_after (x : Performance α) (turns : List (Turn α)) :
    Onward x.playing (x.after turns).playing := by
  induction turns generalizing x with
  | nil => exact refl_of Onward x.playing
  | cons turn rest ih => exact trans_of Onward (onward_turn x turn) (ih (x.turn turn))

/-- A loop that is going on has begun the show. -/
structure Sound (x : Performance α) : Prop where
  tidy : x.playing.Tidy
  begun : x.point ≠ .away → x.playing.phase ≠ .idle

theorem Sound.turn {x : Performance α} (sound : x.Sound) (turn : Turn α) : (x.turn turn).Sound := by
  have onward := onward_turn x turn
  refine ⟨onward.tidy sound.tidy, fun going => ?_⟩
  by_cases before : x.point = .away
  · cases turn with
    | outside intervention => exact absurd before going
    | loop due =>
      simp only [Performance.turn, step, before, playing_unless]
      exact not_idle_of_begin x.playing
  · obtain ⟨_, _, leads⟩ := onward.forward
    exact leads.ne_idle (sound.begun before)

theorem Sound.after {x : Performance α} (sound : x.Sound) (turns : List (Turn α)) :
    (x.after turns).Sound := by
  induction turns generalizing x with
  | nil => exact sound
  | cons turn rest ih => exact ih (sound.turn turn)

/-- The loop comes to its end only where the show has. -/
theorem Sound.ends {x : Performance α} (sound : x.Sound) {turn : Turn α}
    (going : x.point ≠ .away) (returned : (x.turn turn).point = .away) :
    (x.turn turn).playing.phase = .terminated := by
  obtain ⟨s, point⟩ := x
  cases turn with
  | outside intervention => exact absurd returned going
  | loop due =>
    cases point with
    | away => exact absurd rfl going
    | looking =>
      show s.phase = .terminated
      simp only [Performance.turn, step] at returned
      cases phase : s.phase with
      | idle => exact absurd phase (sound.begun going)
      | running => simp [running_iff_phase.2 phase] at returned
      | draining => exact absurd phase sound.tidy.settled
      | terminated => rfl
    | waiting =>
      simp only [Performance.turn, step] at returned
      generalize (onChannel Channel.take).eval s = outcome at returned
      obtain ⟨_ | _ | _, t⟩ := outcome <;> cases returned
    | holding signal => exact absurd returned (unless_ne_away .ticking (by simp) _)
    | ticking =>
      cases due with
      | false => cases returned
      | true => exact absurd returned (unless_ne_away .looking (by simp) _)
    | failing fault =>
      simp only [Performance.turn, step, eval_fail]
      exact failed_phase s fault

omit [Number α] in
theorem sound_of_idle {s : Show α} (idle : s.phase = .idle) : Sound ⟨s, .away⟩ where
  tidy := ⟨by simp [idle], by simp [idle], by simp [idle]⟩
  begun going := absurd rfl going

end Performance

/-- Whatever happens to a show, inside of its loop and outside, its phase only goes forward. Once it
is in its last phase, its channel is closed and empty, nothing moves, and nothing that has been done
changes any more; and its loop only ends there. -/
theorem terminated_is_final [Number α] {s : Show α} (idle : s.phase = .idle)
    (turns later : List (Turn α)) :
    let x := (⟨s, .away⟩ : Performance α).after turns
    let y := x.after later
    (∃ entered, y.playing.phases = x.playing.phases ++ entered ∧
      Phase.Leads x.playing.phase entered y.playing.phase) ∧
    (∀ turn, x.point ≠ .away → (x.turn turn).point = .away →
      (x.turn turn).playing.phase = .terminated) ∧
    (x.playing.phase = .terminated → x.playing.channel.closed = true ∧
      x.playing.channel.queue = [] ∧ x.playing.desk.animator.count = 0 ∧
      ∀ node time, x.playing.desk.animator.position node time =
        .error (.ofDesk (.noAnimation node))) ∧
    (x.playing.phase = .terminated → y.playing.phase = .terminated ∧
      y.playing.graph = x.playing.graph ∧ y.playing.desk.animator = x.playing.desk.animator ∧
      y.playing.dispatched = x.playing.dispatched ∧
      y.playing.completed = x.playing.completed ∧ y.playing.reason = x.playing.reason) := by
  intro x y
  have sound : x.Sound := (Performance.sound_of_idle idle).after turns
  have onward : Show.Onward x.playing y.playing := Performance.onward_after x later
  refine ⟨onward.forward, fun turn => sound.ends, fun ended => ?_, fun ended => ?_⟩
  · obtain ⟨closed, empty⟩ := sound.tidy.shut ended
    have still := sound.tidy.still ended
    refine ⟨closed, empty, still, fun node time => ?_⟩
    have motionless : x.playing.desk.animator.motion? node = none := by
      rw [Animator.motion?, Table.get?_of_size still]
      rfl
    simp only [Animator.position, motionless]
  · have desk := onward.desk ended
    refine ⟨onward.terminated ended, ?_, ?_, (onward.cues ended).1, (onward.cues ended).2,
      onward.reason ended⟩
    · rw [Show.graph, desk, Show.graph]
    · rw [desk]

/-! A show whose loop breaks down while a window moves -/

namespace Sample

def jammed : Backend Scalar where
  reply _ call := match call with
    | .transport _ .pause _ => .failed "jammed"
    | _ => .done
  handleFor _ := .name

def moving : Show Scalar :=
  (Show.build.eval (Show.ofProgram (Script.programOf <|
    "raw w 0 fakesrc\nraw gtktag string window\nwar\nnew w a\n" ++
    "on pre act a window move a 0 0 0 1 9 9 jump jump\non callback a tap act a play pause\n")
    .standard jammed)).2

/-- The loop begins the show, hears of a tap and handles it. -/
def breakdown : List (Turn Scalar) :=
  [.loop false, .outside (.emit (.callback (.name "a") (some "tap"))), .loop false, .loop false,
    .loop false, .outside (.emit (.progress (.name "a") 1))]

end Sample

set_option maxRecDepth 20000 in
/-- When the backend of the sample show breaks down, a window is moving and a signal is waiting. -/
theorem terminated_is_final_sample :
    let s := Sample.moving
    let x := (⟨s, .away⟩ : Performance Scalar).after Sample.breakdown
    let y := x.after [.loop false]
    s.phase = .idle ∧ x.playing.running = true ∧ x.playing.desk.animator.count = 1 ∧
      x.playing.channel.queue.length = 1 ∧ x.point ≠ .away ∧
      y.playing.phase = .terminated ∧ y.playing.channel.queue = [] ∧
      y.playing.desk.animator.count = 0 ∧
      ∀ later, (y.after later).playing.reason = some "error: jammed" := by
  intro s x y
  have checks : (decide (s.phase = .idle ∧ x.playing.running = true ∧
      x.playing.desk.animator.count = 1 ∧ x.playing.channel.queue.length = 1 ∧
      y.playing.reason = some "error: jammed") && decide (y.playing.phase = .terminated) &&
      match x.point with
      | .away => false
      | _ => true) = true := by
    decide +kernel
  simp only [Bool.and_eq_true, decide_eq_true_eq] at checks
  obtain ⟨⟨⟨idle, running, moves, waits, reason⟩, ended⟩, point⟩ := checks
  have going : x.point ≠ .away := fun away => by simp [away] at point
  have law := terminated_is_final idle (Sample.breakdown ++ [.loop false])
  have same : (⟨s, .away⟩ : Performance Scalar).after (Sample.breakdown ++ [.loop false]) = y :=
    List.foldl_append
  rw [same] at law
  obtain ⟨_, empty, still, _⟩ := (law []).2.2.1 ended
  refine ⟨idle, running, moves, waits, going, ended, empty, still, fun later => ?_⟩
  rw [((law later).2.2.2 ended).2.2.2.2.2, reason]

end ShowControl
