import ShowControl.Proofs.List
import ShowControl.Proofs.Script.Compiled
import ShowControl.Proofs.Show.Operation

/-! Runs of operations.

A run is any sequence of operations none of which is cut short. What every run does to the cues is
said once: an operation releases certain cues, and they are fired up to one that ends the show. -/

set_option autoImplicit false
namespace ShowControl

variable {α : Type}

structure Step (α : Type) where
  before : Show α
  operation : Operation α
  after : Show α

namespace Show

structure Fresh (s : Show α) : Prop where
  idle : s.phase = .idle
  dispatched : s.dispatched = []
  ended : s.ended = []
  motionless : s.desk.animator.entries = .empty

theorem fresh_ofProgram (program : Program α) (config : Config α) (backend : Backend α) :
    (ofProgram program config backend).Fresh := ⟨rfl, rfl, rfl, rfl⟩

/-- The progress of a clock that the show hears when it handles the signal. -/
def hears? (s : Show α) : Operation α → Option (String × α)
  | .handle (.progress source (some value)) =>
    if s.running then (s.graph.resolve source).map fun clock => (clock, value) else none
  | _ => none

def reports? (s : Show α) : Operation α → Option (String × String)
  | .handle (.callback source (some event)) =>
    if s.running then (s.graph.resolve source).map fun node => (node, event) else none
  | _ => none

def knows (s : Show α) (node event : String) : Bool :=
  s.terminal event && s.ended.contains (node, event)

variable [Number α]

/-- The cues that an operation releases. -/
def released (s : Show α) (operation : Operation α) : List (Cue α) :=
  match operation with
  | .begin => if s.phase = .idle then s.program.preCues else []
  | operation => match s.hears? operation, s.reports? operation with
    | some (clock, value), _ => s.due value (s.program.timelineOn clock)
    | none, some (node, event) =>
      if s.knows node event then [] else s.program.callbackCuesOn node event
    | none, none => []

end Show

section
variable [Number α]

/-- Operations one after the other, each of which comes to its end. -/
inductive Run : Show α → List (Step α) → Show α → Prop where
  | rest (s : Show α) : Run s [] s
  | next {s t u : Show α} {steps : List (Step α)} {operation : Operation α} : Run s steps t →
      operation.act.Returns t () u → Run s (steps ++ [⟨t, operation, u⟩]) u

end

namespace Show

variable [Number α]

theorem Releases.dispatched {s t : Show α} {cues : List (Cue α)} (releases : Releases s cues t) :
    ∃ fired, fired <+: cues ∧ t.dispatched = s.dispatched ++ fired ∧
      (t.running = true → fired = cues) := by
  obtain ⟨fired, rest, rfl, fires, all⟩ := releases
  exact ⟨fired, List.prefix_append fired rest, fires.dispatched,
    fun running => by simp [all running]⟩

theorem Releases.stays {s t : Show α} {cues : List (Cue α)} (releases : Releases s cues t) :
    Stays s t := by
  obtain ⟨_, _, _, fires, _⟩ := releases
  exact fires.stays

omit [Number α] in
theorem fired_phase (s : Show α) (cue : Cue α) (result : GroupResult α) (desk : Desk α) :
    (s.fired cue result desk).phase = s.phase ∨
      (s.fired cue result desk).phase = .terminated := by
  simp only [fired]
  split
  · exact .inr rfl
  · exact .inl rfl

theorem Fires.phase {s t : Show α} {cues : List (Cue α)} (fires : Fires s cues t) :
    t.phase = s.phase ∨ t.phase = .terminated := by
  induction fires with
  | nothing => exact .inl rfl
  | @next s t cue _ result desk _ _ _ ih =>
    rcases ih with same | finished
    · rw [same]
      exact fired_phase s cue result desk
    · exact .inr finished

theorem Releases.phase {s t : Show α} {cues : List (Cue α)} (releases : Releases s cues t) :
    t.phase = s.phase ∨ t.phase = .terminated := by
  obtain ⟨_, _, _, fires, _⟩ := releases
  exact fires.phase

omit [Number α] in
theorem drained_phase (s : Show α) :
    s.drained.phase = s.phase ∨ s.drained.phase = .terminated := by
  simp only [drained]
  split
  · exact .inr rfl
  · exact .inl rfl

omit [Number α] in
theorem running_of_drained {s : Show α} (running : s.drained.running = true) :
    s.drained = s ∧ s.running = true := by
  by_cases exhausted : s.exhausted = true
  · simp [drained, exhausted] at running
  · simp only [drained, exhausted] at running ⊢
    exact ⟨rfl, running⟩

omit [Number α] in
@[simp] theorem reported_phase (s : Show α) (node event : String) :
    (s.reported node event).phase = s.phase := by
  simp only [reported]
  split <;> rfl

omit [Number α] in
@[simp] theorem reported_running (s : Show α) (node event : String) :
    (s.reported node event).running = s.running := by
  simp only [running, reported_phase]

omit [Number α] in
@[simp] theorem reported_dispatched (s : Show α) (node event : String) :
    (s.reported node event).dispatched = s.dispatched := by
  simp only [reported]
  split <;> rfl

theorem released_unheard {s : Show α} {signal : Signal α}
    (unheard : s.running = false ∨ s.graph.resolve signal.source = none) :
    s.released (.handle signal) = [] := by
  rcases unheard with deaf | lost
  · rcases signal with ⟨_, _ | _⟩ | ⟨_, _ | _⟩ | _ <;> simp [released, hears?, reports?, deaf]
  · rcases signal with ⟨source, _ | _⟩ | ⟨source, _ | _⟩ | _ <;>
      simp_all [released, hears?, reports?, Signal.source]

theorem due_sublist (s : Show α) (value : α) (line : List (α × Cue α)) :
    (s.due value line).Sublist (line.map Prod.snd) :=
  ((List.takeWhile_sublist _).trans List.filter_sublist).map Prod.snd

theorem mem_of_mem_due {s : Show α} {value : α} {clock : String} {cue : Cue α}
    (member : cue ∈ s.due value (s.program.timelineOn clock)) :
    (∃ threshold, (threshold, cue) ∈ s.program.timelineOn clock) ∧ s.hasFired cue = false := by
  obtain ⟨⟨threshold, cue⟩, present, rfl⟩ := List.mem_map.1 member
  obtain ⟨onLine, unfired⟩ := List.mem_filter.1 ((List.takeWhile_sublist _).subset present)
  exact ⟨⟨threshold, onLine⟩, by simpa using unfired⟩

theorem mem_released {s : Show α} {operation : Operation α} {cue : Cue α}
    (member : cue ∈ s.released operation) : cue ∈ s.program.cues ∧
      match cue.trigger with
      | .pre => s.phase = .idle ∧ operation = .begin
      | .progress clock _ => (∃ value, s.hears? operation = some (clock, value)) ∧
        s.hasFired cue = false
      | .callback node event => s.reports? operation = some (node, event) ∧
        s.knows node event = false := by
  cases operation with
  | begin =>
    simp only [released] at member
    split at member
    · next idle =>
      obtain ⟨present, pre⟩ := List.mem_filter.1 member
      refine ⟨present, ?_⟩
      cases trigger : cue.trigger <;> simp_all
    · cases member
  | handle signal =>
    simp only [released] at member
    split at member
    · next clock value heard =>
      obtain ⟨⟨threshold, onLine⟩, unfired⟩ := mem_of_mem_due member
      obtain ⟨present, timed⟩ := Program.mem_timelineOn.1 onLine
      refine ⟨present, ?_⟩
      have trigger := Cue.thresholdOn?_eq_some.1 timed
      rw [trigger]
      exact ⟨⟨value, heard⟩, unfired⟩
    · next node event _ reported =>
      split at member
      · cases member
      · next unknown =>
        obtain ⟨present, on⟩ := List.mem_filter.1 member
        refine ⟨present, ?_⟩
        cases trigger : cue.trigger <;> simp_all
    · cases member
  | tick => cases member
  | terminate reason => cases member

/-- An operation fires cues in one place, where those that it releases are gone through. -/
theorem Does.releases {s t : Show α} {operation : Operation α} (does : Does s operation t) :
    ∃ before after, Releases before (s.released operation) after ∧
      before.dispatched = s.dispatched ∧ t.dispatched = after.dispatched ∧
      (before.running = true ∨ s.released operation = []) ∧
      (t.running = true → after.running = true) := by
  -- An operation that releases nothing leaves the fired cues as they are.
  have nothing {t : Show α} (none : s.released operation = [])
      (same : t.dispatched = s.dispatched) :
      ∃ before after, Releases before (s.released operation) after ∧
        before.dispatched = s.dispatched ∧ t.dispatched = after.dispatched ∧
        (before.running = true ∨ s.released operation = []) ∧
        (t.running = true → after.running = true) :=
    ⟨t, t, ⟨[], [], none, .nothing t, fun _ => rfl⟩, same, rfl, .inr none, id⟩
  cases does with
  | begins idle releases =>
    have pre : s.released .begin = s.program.preCues := if_pos idle
    rw [pre]
    exact ⟨_, _, releases, rfl, drained_dispatched _, .inl rfl,
      fun running => (running_of_drained running).2⟩
  | begun begun => exact nothing (if_neg begun) rfl
  | deaf signal deaf => exact nothing (released_unheard (.inl deaf)) rfl
  | lost running lost => exact nothing (released_unheard (.inr lost)) rfl
  | @hears _ source clock value running found releases =>
    have due : s.released (.handle (.progress source (some value))) =
        s.due value (s.program.timelineOn clock) := by
      simp [released, hears?, running, found]
    rw [due]
    exact ⟨_, _, releases, rfl, rfl, .inl running, id⟩
  | @answers _ source node event running found unknown releases =>
    have cues : s.released (.handle (.callback source (some event))) =
        s.program.callbackCuesOn node event := by
      simp [released, hears?, reports?, knows, running, found, unknown]
    rw [cues]
    exact ⟨_, _, releases, reported_dispatched s node event, rfl,
      .inl ((reported_running s node event).trans running), id⟩
  | repeated running found terminal member =>
    exact nothing (by simp [released, hears?, reports?, knows, *]) rfl
  | nameless | stops | rests | ends | ended => exact nothing rfl rfl
  | ticks => exact nothing rfl (drained_dispatched _)

theorem Does.dispatches {s t : Show α} {operation : Operation α} (does : Does s operation t) :
    ∃ fired, fired <+: s.released operation ∧ t.dispatched = s.dispatched ++ fired ∧
      (t.running = true → fired = s.released operation) := by
  obtain ⟨before, after, releases, same, dispatched, _, still⟩ := does.releases
  obtain ⟨fired, first, fires, all⟩ := releases.dispatched
  exact ⟨fired, first, by rw [dispatched, fires, same], fun running => all (still running)⟩

theorem Does.keeps {s t : Show α} {operation : Operation α} (does : Does s operation t) :
    t.program = s.program ∧ t.config = s.config := by
  cases does with
  | begins idle releases =>
    exact ⟨(stays_drained _).program.trans releases.stays.program,
      (stays_drained _).config.trans releases.stays.config⟩
  | hears _ _ releases => exact ⟨releases.stays.program, releases.stays.config⟩
  | answers _ _ _ releases =>
    have kept : Stays _ _ := releases.stays
    simp only [reported] at kept
    split at kept <;> exact ⟨kept.program, kept.config⟩
  | ticks => exact ⟨(stays_drained _).program, (stays_drained _).config⟩
  | _ => exact ⟨rfl, rfl⟩

omit [Number α] in
theorem reports?_unheard {s : Show α} {signal : Signal α}
    (unheard : s.running = false ∨ s.graph.resolve signal.source = none) :
    s.reports? (.handle signal) = none := by
  rcases unheard with deaf | lost
  · rcases signal with _ | ⟨_, _ | _⟩ | _ <;> simp [reports?, deaf]
  · rcases signal with _ | ⟨source, _ | _⟩ | _ <;> simp_all [reports?, Signal.source]

theorem Does.ended_iff {s t : Show α} {operation : Operation α} (does : Does s operation t)
    (node event : String) : (node, event) ∈ t.ended ↔ (node, event) ∈ s.ended ∨
      s.terminal event = true ∧ s.reports? operation = some (node, event) := by
  -- Only an event that the show hears adds to those that have ended.
  have unchanged {t : Show α} (same : t.ended = s.ended) (silent : s.reports? operation = none) :
      (node, event) ∈ t.ended ↔ (node, event) ∈ s.ended ∨
        s.terminal event = true ∧ s.reports? operation = some (node, event) := by
    simp [same, silent]
  cases does with
  | begins _ releases =>
    exact unchanged ((stays_drained _).ended.trans releases.stays.ended) rfl
  | deaf signal deaf => exact unchanged rfl (reports?_unheard (.inl deaf))
  | lost _ lost => exact unchanged rfl (reports?_unheard (.inr lost))
  | hears _ _ releases => exact unchanged releases.stays.ended rfl
  | @answers _ source n e running found _ releases =>
    have reports : s.reports? (.handle (.callback source (some e))) = some (n, e) := by
      simp [reports?, running, found]
    rw [releases.stays.ended, reports, reported, Option.some.injEq, Prod.mk.injEq]
    split
    · next terminal =>
      rw [List.mem_append, List.mem_singleton, Prod.mk.injEq]
      refine or_congr_right ⟨?_, ?_⟩
      · rintro ⟨rfl, rfl⟩
        exact ⟨terminal, rfl, rfl⟩
      · rintro ⟨_, rfl, rfl⟩
        exact ⟨rfl, rfl⟩
    · next notTerminal =>
      refine ⟨.inl, ?_⟩
      rintro (before | ⟨terminal, _, rfl⟩)
      · exact before
      · exact absurd terminal notTerminal
  | @repeated source n e running found _ member =>
    have reports : s.reports? (.handle (.callback source (some e))) = some (n, e) := by
      simp [reports?, running, found]
    rw [reports, Option.some.injEq, Prod.mk.injEq]
    refine ⟨.inl, ?_⟩
    rintro (before | ⟨_, rfl, rfl⟩)
    · exact before
    · exact member
  | ticks => exact unchanged (stays_drained _).ended rfl
  | begun | nameless | stops | rests | ends | ended => exact unchanged rfl rfl

/-- Where the phase of a show goes: nowhere, from idle to running, or to its end. -/
theorem Does.phase {s t : Show α} {operation : Operation α} (does : Does s operation t) :
    t = s ∨ s.phase = .running ∧ t.phase = .running ∨
      s.phase = .idle ∧ operation = .begin ∧ t.phase = .running ∨
      s.isOver = false ∧ t.phase = .terminated := by
  have runs {s : Show α} (running : s.running = true) : s.phase = .running :=
    of_decide_eq_true running
  cases does with
  | @begins u idle releases =>
    rcases drained_phase u with same | finished
    · rcases releases.phase with still | finished
      · exact .inr (.inr (.inl ⟨idle, rfl, same.trans still⟩))
      · exact .inr (.inr (.inr ⟨isOver_eq_false.2 (.inl idle), same.trans finished⟩))
    · exact .inr (.inr (.inr ⟨isOver_eq_false.2 (.inl idle), finished⟩))
  | hears running _ releases =>
    rcases releases.phase with still | finished
    · exact .inr (.inl ⟨runs running, still.trans (runs running)⟩)
    · exact .inr (.inr (.inr ⟨isOver_of_running running, finished⟩))
  | answers running _ _ releases =>
    rcases releases.phase with still | finished
    · exact .inr (.inl ⟨runs running, still.trans ((reported_phase ..).trans (runs running))⟩)
    · exact .inr (.inr (.inr ⟨isOver_of_running running, finished⟩))
  | @ticks _ desk running _ =>
    rcases drained_phase { s with desk } with still | finished
    · exact .inr (.inl ⟨runs running, still.trans (runs running)⟩)
    · exact .inr (.inr (.inr ⟨isOver_of_running running, finished⟩))
  | stops _ running => exact .inr (.inr (.inr ⟨isOver_of_running running, rfl⟩))
  | ends _ notOver => exact .inr (.inr (.inr ⟨notOver, rfl⟩))
  | _ => exact .inl rfl

theorem Does.eq_of_isOver {s t : Show α} {operation : Operation α} (does : Does s operation t)
    (finished : s.isOver = true) : t = s := by
  rcases does.phase with same | ⟨running, _⟩ | ⟨idle, _⟩ | ⟨notOver, _⟩
  · exact same
  · simp [isOver, running] at finished
  · simp [isOver, idle] at finished
  · simp [notOver] at finished

theorem Does.eq_of_idle {s t : Show α} {operation : Operation α} (does : Does s operation t)
    (idle : t.phase = .idle) : t = s := by
  rcases does.phase with same | ⟨_, running⟩ | ⟨_, _, running⟩ | ⟨_, finished⟩
  · exact same
  · simp [idle] at running
  · simp [idle] at running
  · simp [idle] at finished

end Show

variable [Number α]

/-- What holds at the start and is preserved by every operation holds after every run. -/
theorem Run.preserves {s t : Show α} {steps : List (Step α)} (run : Run s steps t)
    (numbered : s.program.Numbered) {P : List (Step α) → Show α → Prop} (start : P [] s)
    (next : ∀ {steps t operation u}, t.program = s.program → t.config = s.config → P steps t →
      Show.Does t operation u → P (steps ++ [⟨t, operation, u⟩]) u) :
    P steps t ∧ t.program = s.program ∧ t.config = s.config := by
  -- The program stays the same along the run, and its numbering with it.
  induction run with
  | rest => exact ⟨start, rfl, rfl⟩
  | next _ returned ih =>
    obtain ⟨holds, program, config⟩ := ih
    have does := Show.does_of_returns (program ▸ numbered) returned
    exact ⟨next program config holds does, does.keeps.1.trans program,
      does.keeps.2.trans config⟩

theorem Run.keeps {s t : Show α} {steps : List (Step α)} (run : Run s steps t)
    (numbered : s.program.Numbered) : t.program = s.program ∧ t.config = s.config :=
  (run.preserves numbered (P := fun _ _ => True) trivial fun _ _ _ _ => trivial).2

theorem Run.dispatches {s t : Show α} {steps : List (Step α)} (run : Run s steps t)
    (numbered : s.program.Numbered) : s.dispatched <+: t.dispatched := by
  refine (run.preserves numbered (P := fun _ t => s.dispatched <+: t.dispatched)
    List.prefix_rfl fun _ _ before does => ?_).1
  obtain ⟨fired, _, dispatched, _⟩ := does.dispatches
  rw [dispatched]
  exact before.trans (List.prefix_append _ fired)

theorem Run.last {s t : Show α} {earlier : List (Step α)} {step : Step α}
    (run : Run s (earlier ++ [step]) t) :
    Run s earlier step.before ∧ step.operation.act.Returns step.before () t := by
  generalize same : earlier ++ [step] = steps at run
  cases run with
  | rest => simp at same
  | next before returned =>
    obtain ⟨rfl, last⟩ := List.append_inj' same rfl
    obtain rfl := List.singleton_inj.1 last
    exact ⟨before, returned⟩

theorem Run.split {s t : Show α} {earlier later : List (Step α)} {step : Step α}
    (run : Run s (earlier ++ step :: later) t) :
    Run s earlier step.before ∧ step.operation.act.Returns step.before () step.after ∧
      Run step.after later t := by
  generalize same : earlier ++ step :: later = steps at run
  induction run generalizing later with
  | rest => simp at same
  | next before returned ih =>
    -- The step is the last one, or it is one of the run before.
    obtain ⟨rfl, rfl, rfl⟩ | ⟨between, whole, rfl⟩ := place_concat same.symm
    · exact ⟨before, returned, .rest _⟩
    · obtain ⟨start, middle, more⟩ := ih whole.symm
      exact ⟨start, middle, more.next returned⟩

theorem Run.does_of_split {s t : Show α} {earlier later : List (Step α)} {step : Step α}
    (run : Run s (earlier ++ step :: later) t) (numbered : s.program.Numbered) :
    step.before.program = s.program ∧ step.before.config = s.config ∧
      step.before.Does step.operation step.after := by
  obtain ⟨before, returned, _⟩ := run.split
  obtain ⟨program, config⟩ := before.keeps numbered
  exact ⟨program, config, Show.does_of_returns (program ▸ numbered) returned⟩

/-! Building a show -/

namespace Show

/-- The graph and the report are all that has changed. -/
def Builds (s t : Show α) : Prop :=
  t = { s with desk := { s.desk with graph := t.desk.graph }, report := t.report }

instance : IsPreorder (Show α) Builds where
  refl _ := rfl
  trans s t u first second := by
    rw [Builds, second, first]

omit [Number α] in
theorem builds_onGraph {β : Type} (x : Act (Graph α) β) : (onGraph x).Keeps Builds := fun _ => rfl

theorem builds_createAll (statements : List Statement) :
    (createAll statements : Act (Show α) Unit).Keeps Builds := by
  induction statements with
  | nil => exact Act.keeps_pure ()
  | cons statement rest ih =>
    cases statement with
    | node => exact Act.keeps_bind (builds_onGraph _) fun _ => ih
    | plug => exact Act.keeps_bind (builds_onGraph _) fun _ => ih

theorem builds_build : (build : Act (Show α) Report).Keeps Builds := by
  refine Act.keeps_bind Act.keeps_get fun s => ?_
  cases s.report with
  | some report => exact Act.keeps_pure report
  | none =>
    refine Act.keeps_bind ?_ fun report => ?_
    · exact Act.keeps_bind (Act.keeps_ofExcept _) fun _ =>
        Act.keeps_bind (Act.keeps_log _ _) fun _ => Act.keeps_pure _
    · exact Act.keeps_bind (builds_createAll _) fun _ =>
        Act.keeps_bind (Act.keeps_modify fun _ => rfl) fun _ => Act.keeps_pure _

theorem fresh_of_build {s t : Show α} {report : Report} (fresh : s.Fresh)
    (returned : build.Returns s report t) : t.Fresh := by
  have built : Builds s t := builds_build.of_returns returned
  rw [built]
  exact ⟨fresh.idle, fresh.dispatched, fresh.ended, fresh.motionless⟩

def ready (program : Program α) (config : Config α) : Show α :=
  (build.eval (ofProgram program config .obliging)).2

theorem builds_ready (program : Program α) (config : Config α) :
    Builds (ofProgram program config .obliging) (ready program config) := builds_build _

theorem program_ready (program : Program α) (config : Config α) :
    (ready program config).program = program := by rw [builds_ready, ofProgram]

theorem compiled_ready {script : String} (config : Config α)
    (ok : ((Script.compile script : Act Library (Program α)).eval .empty).1.isOk = true) :
    (ready (Script.programOf script) config).program.Compiled := by
  rw [program_ready]
  exact Script.compiled_programOf ok

theorem fresh_ready (program : Program α) (config : Config α) : (ready program config).Fresh := by
  rw [builds_ready]
  exact ⟨rfl, rfl, rfl, rfl⟩

end Show

/-! Runs that are computed -/

namespace Show

def steps (s : Show α) : List (Operation α) → List (Step α)
  | [] => []
  | operation :: rest =>
    ⟨s, operation, (operation.act.eval s).2⟩ :: (operation.act.eval s).2.steps rest

def after (s : Show α) : List (Operation α) → Show α
  | [] => s
  | operation :: rest => (operation.act.eval s).2.after rest

def passes (s : Show α) : List (Operation α) → Bool
  | [] => true
  | operation :: rest =>
    (operation.act.eval s).1.isOk && (operation.act.eval s).2.passes rest

end Show

theorem Show.steps_append (s : Show α) (operations : List (Operation α))
    (operation : Operation α) : s.steps (operations ++ [operation]) =
      s.steps operations ++ [⟨s.after operations, operation, s.after (operations ++ [operation])⟩] := by
  induction operations generalizing s with
  | nil => rfl
  | cons first rest ih =>
    simp only [List.cons_append, steps, after]
    rw [ih]

theorem Run.append {s t : Show α} {steps : List (Step α)} (run : Run s steps t)
    {operations : List (Operation α)} (passes : t.passes operations = true) :
    Run s (steps ++ t.steps operations) (t.after operations) := by
  induction operations generalizing t steps with
  | nil => simpa [Show.steps, Show.after] using run
  | cons operation rest ih =>
    obtain ⟨ok, passes⟩ := Bool.and_eq_true_iff.1 passes
    obtain ⟨_, returned⟩ := Act.exists_returns_of_isOk ok
    have more := ih (run.next returned) passes
    rwa [List.append_assoc] at more

theorem run_of_passes {s : Show α} {operations : List (Operation α)}
    (passes : s.passes operations = true) :
    Run s (s.steps operations) (s.after operations) := (Run.rest s).append passes

/-! A show with one node, whose window is moved once and which reports its end -/

namespace Sample

def script : String :=
  "raw w 0 fakesrc\nraw gtktag string window\nwar\nnew w a\non pre act a play start\n" ++
  "on progress a 1 act a window move a 1 0 0 2 9 9 jump jump\n" ++
  "on callback a end act a play stop\n"

def program : Program Scalar := Script.programOf script

def built : Show Scalar := Show.ready program .standard

def progress (value : Scalar) : Operation Scalar := .handle (.progress (.name "a") (some value))

def events : List (Operation Scalar) :=
  [.begin, progress 1, .tick, progress (1 + 1), .tick, .handle (.callback (.name "a") (some "end"))]

set_option maxRecDepth 20000 in
theorem compiled : built.program.Compiled :=
  Show.compiled_ready .standard (by decide +kernel)

theorem fresh : built.Fresh := Show.fresh_ready program .standard

end Sample

end ShowControl
