import ShowControl.Proofs.Show.Drain

/-! How often the cues on events fire.

While a show is running, a cue on an event has fired once for each report of the event that the show
has heard; if the event is terminal, only the first report counts. Reports of other events, and
everything else that happens in between, make no difference. -/

set_option autoImplicit false
namespace ShowControl

variable {α : Type}

def reportsOf (steps : List (Step α)) (node event : String) : Nat :=
  steps.countP fun step => step.before.reports? step.operation = some (node, event)

theorem reportsOf_append (steps : List (Step α)) (step : Step α) (node event : String) :
    reportsOf (steps ++ [step]) node event = reportsOf steps node event +
      if step.before.reports? step.operation = some (node, event) then 1 else 0 := by
  simp [reportsOf, List.countP_append, List.countP_singleton]

namespace Show

def answersTo (s : Show α) (event : String) (reports : Nat) : Nat :=
  if s.terminal event then min 1 reports else reports

theorem answersTo_succ (s : Show α) (event : String) (reports : Nat) :
    s.answersTo event (reports + 1) = s.answersTo event reports +
      if s.terminal event = true ∧ 0 < reports then 0 else 1 := by
  cases terminal : s.terminal event with
  | false => simp [answersTo, terminal]
  | true =>
    simp only [answersTo, terminal, if_true, true_and]
    split <;> omega

theorem running_of_reports? {s : Show α} {operation : Operation α} {node event : String}
    (reports : s.reports? operation = some (node, event)) : s.running = true := by
  rcases operation with _ | ⟨_ | ⟨_, _ | _⟩ | _⟩ | _ | _ <;> try cases reports
  by_contra resting
  simp [reports?, resting] at reports

variable [Number α]

/-- What the reports so far have come to. -/
structure Counts (steps : List (Step α)) (s : Show α) : Prop where
  unstarted : s.phase = .idle → s.dispatched = [] ∧ ∀ node event, reportsOf steps node event = 0
  ended : ∀ node event, (node, event) ∈ s.ended ↔
    s.terminal event = true ∧ 0 < reportsOf steps node event
  fired : s.running = true → ∀ cue ∈ s.program.cues, ∀ node event,
    cue.trigger = .callback node event →
      s.firings cue = .replicate (s.answersTo event (reportsOf steps node event)) cue

omit [Number α] in
theorem counts_of_fresh {s : Show α} (fresh : s.Fresh) : Counts [] s where
  unstarted _ := ⟨fresh.dispatched, fun _ _ => rfl⟩
  ended node event := by simp [fresh.ended, reportsOf]
  fired running := by simp [Show.running, fresh.idle] at running

omit [Number α] in
theorem Counts.knows_iff {steps : List (Step α)} {s : Show α} (counts : Counts steps s)
    (node event : String) : s.knows node event = true ↔
      s.terminal event = true ∧ 0 < reportsOf steps node event := by
  rw [knows, Bool.and_eq_true, List.contains_iff_mem, counts.ended, and_self_left]

theorem Counts.fired_before {steps : List (Step α)} {s t : Show α} {operation : Operation α}
    (counts : Counts steps s) (does : Does s operation t) (running : t.running = true)
    {cue : Cue α} (present : cue ∈ s.program.cues) {node event : String}
    (trigger : cue.trigger = .callback node event) :
    s.firings cue = .replicate (s.answersTo event (reportsOf steps node event)) cue := by
  rcases does.phase with rfl | ⟨before, _⟩ | ⟨idle, _⟩ | ⟨_, finished⟩
  · exact counts.fired running cue present node event trigger
  · exact counts.fired (running_iff_phase.2 before) cue present node event trigger
  · obtain ⟨none, unheard⟩ := counts.unstarted idle
    simp [firings, none, unheard, answersTo]
  · simp [running_iff_phase.1 running] at finished

theorem Counts.fires {steps : List (Step α)} {s t : Show α} {operation : Operation α}
    (counts : Counts steps s) (numbered : s.program.Numbered) (does : Does s operation t)
    (running : t.running = true) {cue : Cue α} (present : cue ∈ s.program.cues)
    {node event : String} (trigger : cue.trigger = .callback node event) :
    t.firings cue = .replicate
      (s.answersTo event (reportsOf (steps ++ [⟨s, operation, t⟩]) node event)) cue := by
  obtain ⟨fired, _, dispatched, all⟩ := does.dispatches
  rw [all running] at dispatched
  have before := counts.fired_before does running present trigger
  have released : cue ∈ s.released operation ↔ _ := callback_mem_released present trigger
  rw [reportsOf_append]
  by_cases reports : s.reports? operation = some (node, event)
  · rw [if_pos reports, answersTo_succ]
    by_cases known : s.knows node event = true
    -- The event is terminal and known: the report releases nothing and counts for nothing.
    · have absent : cue ∉ s.released operation := fun member => by
        simp [known] at released
        exact released member
      rw [firings_of_not_released numbered dispatched (List.Subset.refl _) present absent, before,
        if_pos ((counts.knows_iff node event).1 known), Nat.add_zero]
    · have member := released.2 ⟨reports, Bool.eq_false_iff.2 known⟩
      rw [firings_of_mem_released numbered dispatched member, before,
        if_neg (mt (counts.knows_iff node event).2 known), List.replicate_succ']
  -- Another event, or no report at all, does not release the cue.
  · have absent : cue ∉ s.released operation := fun member => reports (released.1 member).1
    rw [firings_of_not_released numbered dispatched (List.Subset.refl _) present absent, before,
      if_neg reports, Nat.add_zero]

theorem Counts.step {steps : List (Step α)} {s t : Show α} {operation : Operation α}
    (counts : Counts steps s) (numbered : s.program.Numbered) (does : Does s operation t) :
    Counts (steps ++ [⟨s, operation, t⟩]) t := by
  obtain ⟨program, config⟩ := does.keeps
  have terminal (event : String) : t.terminal event = s.terminal event := by
    rw [Show.terminal, config, Show.terminal]
  refine ⟨fun idle => ?unstarted, fun node event => ?ended,
    fun running cue present node event trigger => ?fired⟩
  case unstarted =>
    obtain rfl := does.eq_of_idle idle
    refine ⟨(counts.unstarted idle).1, fun node event => ?_⟩
    have silent : t.reports? operation ≠ some (node, event) := fun reports => by
      simp [running_iff_phase.1 (running_of_reports? reports)] at idle
    rw [reportsOf_append, (counts.unstarted idle).2, if_neg silent]
  case ended =>
    rw [does.ended_iff, counts.ended, terminal, reportsOf_append, ← and_or_left]
    refine and_congr_right fun _ => ?_
    by_cases reports : s.reports? operation = some (node, event) <;> simp [reports]
  case fired =>
    rw [answersTo, terminal, ← answersTo]
    exact counts.fires numbered does running (program ▸ present) trigger

theorem Counts.answers {steps : List (Step α)} {s t : Show α} {operation : Operation α}
    (counts : Counts steps s) (does : Does s operation t) {node event : String}
    (reports : s.reports? operation = some (node, event)) :
    s.released operation = if s.terminal event = true ∧ 0 < reportsOf steps node event then []
      else s.program.callbackCuesOn node event := by
  rcases operation with _ | ⟨_ | ⟨source, _ | event'⟩ | _⟩ | _ | _ <;> try cases reports
  have heard : s.hears? (.handle (.callback source (some event'))) = none := rfl
  simp only [released, heard, reports, counts.knows_iff]

end Show

variable [Number α]

/-- While a show is running, each cue on an event has fired as often as the event has been reported,
and at most once if the event is terminal. A report fires the cues on its event one behind the other,
in script order, and no cue on another event. -/
theorem event_cues_count_reports {s t : Show α} {steps : List (Step α)}
    (compiled : s.program.Compiled) (fresh : s.Fresh) (run : Run s steps t) :
    (t.running = true → ∀ cue ∈ s.program.cues, ∀ node event,
      cue.trigger = .callback node event →
        t.firings cue = .replicate (if s.terminal event then min 1 (reportsOf steps node event)
          else reportsOf steps node event) cue) ∧
    (∀ earlier step later node event, steps = earlier ++ step :: later →
      step.before.reports? step.operation = some (node, event) →
        ∃ fired, step.after.dispatched = step.before.dispatched ++ fired ∧
          step.after.dispatched <+: t.dispatched ∧
          fired <+: (if s.terminal event = true ∧ 0 < reportsOf earlier node event then []
            else s.program.callbackCuesOn node event) ∧
          (step.after.running = true →
            fired = if s.terminal event = true ∧ 0 < reportsOf earlier node event then []
              else s.program.callbackCuesOn node event)) ∧
    (∀ node event, ((s.program.callbackCuesOn node event).map Cue.order).Pairwise (· < ·)) ∧
    (∀ step ∈ steps, ∀ cue ∈ s.program.cues, ∀ node event, cue.trigger = .callback node event →
      step.before.reports? step.operation ≠ some (node, event) →
        step.after.firings cue = step.before.firings cue) := by
  have numbered := compiled.numbered
  have along {steps : List (Step α)} {t : Show α} (run : Run s steps t) :=
    run.preserves numbered (P := Show.Counts) (Show.counts_of_fresh fresh)
      fun program _ counts does => counts.step (program ▸ numbered) does
  refine ⟨?_, ?_, fun _ _ => numbered.inOrder List.filter_sublist, ?_⟩
  · intro running cue present node event trigger
    obtain ⟨counts, program, config⟩ := along run
    have fired := counts.fired running cue (program ▸ present) node event trigger
    rwa [Show.answersTo, Show.terminal, config] at fired
  · rintro earlier step later node event rfl reports
    obtain ⟨before, _, later⟩ := run.split
    obtain ⟨program, config, does⟩ := run.does_of_split numbered
    obtain ⟨fired, first, dispatched, all⟩ := does.dispatches
    have released := (along before).1.answers does reports
    rw [program, Show.terminal, config, ← Show.terminal] at released
    rw [released] at first all
    refine ⟨fired, dispatched, later.dispatches ?_, first, all⟩
    rwa [does.keeps.1, program]
  · intro step member cue present node event trigger silent
    obtain ⟨earlier, later, rfl⟩ := List.append_of_mem member
    obtain ⟨program, _, does⟩ := run.does_of_split numbered
    obtain ⟨fired, first, dispatched, _⟩ := does.dispatches
    rw [← program] at present numbered
    exact Show.firings_of_not_released numbered dispatched first.subset present fun released =>
      silent ((Show.callback_mem_released present trigger).1 released).1

/-! A show with an event that comes back and one that is terminal -/

namespace Sample

def bells : String :=
  "raw w 0 fakesrc\nwar\nnew w a\nnew w b\non callback a tap act a play start\n" ++
  "on callback a tap act a play pause\non callback a end act a play stop\n" ++
  "on progress b 1 act b play stop\n"

def event (node name : String) : Operation Scalar := .handle (.callback (.name node) (some name))

def rings : List (Operation Scalar) :=
  [event "a" "tap", .begin, event "a" "tap", event "a" "end", event "b" "tap", event "a" "end",
    event "a" "tap"]

end Sample

set_option maxRecDepth 20000 in
/-- Of three taps the show hears two, as the first one comes before it begins, and of two ends one
counts. -/
theorem event_cues_count_reports_sample :
    let s := Show.ready (Script.programOf Sample.bells) .standard
    let steps := s.steps Sample.rings
    let t := s.after Sample.rings
    s.program.Compiled ∧ s.Fresh ∧ Run s steps t ∧ t.running = true ∧
      t.dispatched.map Cue.order = [0, 1, 2, 0, 1] ∧
      reportsOf steps "a" "tap" = 2 ∧ reportsOf steps "a" "end" = 2 ∧
      ∀ cue ∈ s.program.cues, ∀ node event, cue.trigger = .callback node event →
        t.firings cue = .replicate (if s.terminal event then min 1 (reportsOf steps node event)
          else reportsOf steps node event) cue := by
  intro s steps t
  have compiled : s.program.Compiled := Show.compiled_ready .standard (by decide +kernel)
  have fresh : s.Fresh := Show.fresh_ready _ _
  have checks : (s.passes Sample.rings && decide (t.running = true ∧
      t.dispatched.map Cue.order = [0, 1, 2, 0, 1] ∧
      reportsOf steps "a" "tap" = 2 ∧ reportsOf steps "a" "end" = 2)) = true := by
    decide +kernel
  obtain ⟨passes, rest⟩ := Bool.and_eq_true_iff.1 checks
  obtain ⟨running, fired, taps, ends⟩ := of_decide_eq_true rest
  have run : Run s steps t := run_of_passes passes
  have law := event_cues_count_reports compiled fresh run
  exact ⟨compiled, fresh, run, running, fired, taps, ends, law.1 running⟩

end ShowControl
