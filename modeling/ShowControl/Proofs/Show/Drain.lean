import Mathlib.Data.List.Forall2
import ShowControl.Proofs.Show.Moves
import ShowControl.Proofs.Show.Run

/-! The natural end of a show.

A show ends by itself when a check finds nothing left that it waits for. Then every cue that it waits
for has fired once, and every move has come to its end or has been taken over by a later one. As long
as the checks leave it running, something is left. -/

set_option autoImplicit false
namespace ShowControl

variable {α : Type}

namespace Show

/-! How often cues have fired -/

def firings (s : Show α) (cue : Cue α) : List (Cue α) :=
  s.dispatched.filter fun fired => fired.order = cue.order

theorem hasFired_eq (s : Show α) (cue : Cue α) : s.hasFired cue = !(s.firings cue).isEmpty := by
  rw [Bool.eq_iff_iff, Bool.not_eq_true', List.isEmpty_eq_false_iff, firings, hasFired, Ne,
    List.filter_eq_nil_iff]
  simp

/-- How often a cue has fired in a show that is running: a `pre` cue once, a progress cue at most
once, and a cue on a terminal event once if the event has been reported. -/
def Tallies (s : Show α) (cue : Cue α) : Prop :=
  match cue.trigger with
  | .pre => s.firings cue = [cue]
  | .progress .. => s.firings cue = [] ∨ s.firings cue = [cue]
  | .callback node event => s.terminal event = true →
    s.firings cue = if (node, event) ∈ s.ended then [cue] else []

def Complete (s : Show α) : Prop :=
  ∀ cue ∈ s.program.cues, match cue.trigger with
    | .pre | .progress .. => s.firings cue = [cue]
    | .callback _ event => s.terminal event = true → s.firings cue = [cue]

theorem filter_order_eq {cues : List (Cue α)} (distinct : (cues.map Cue.order).Nodup)
    {cue : Cue α} (member : cue ∈ cues) :
    cues.filter (fun other => other.order = cue.order) = [cue] := by
  induction cues with
  | nil => cases member
  | cons head rest ih =>
    obtain ⟨fresh, distinct⟩ := List.nodup_cons.1 distinct
    rcases List.mem_cons.1 member with rfl | later
    · have none : rest.filter (fun other => other.order = cue.order) = [] :=
        List.filter_eq_nil_iff.2 fun other present same =>
          fresh (List.mem_map.2 ⟨other, present, of_decide_eq_true same⟩)
      rw [List.filter_cons_of_pos (by simp), none]
    · have other : ¬head.order = cue.order := fun same =>
        fresh (List.mem_map.2 ⟨cue, later, same.symm⟩)
      rw [List.filter_cons_of_neg (by simpa using other), ih distinct later]

theorem filter_order_nil {p : Program α} (numbered : p.Numbered) {cues : List (Cue α)}
    (known : ∀ cue ∈ cues, cue ∈ p.cues) {cue : Cue α} (present : cue ∈ p.cues)
    (absent : cue ∉ cues) : cues.filter (fun other => other.order = cue.order) = [] := by
  refine List.filter_eq_nil_iff.2 fun other member same => absent ?_
  rwa [numbered.eq_of_order (known other member) present (of_decide_eq_true same)] at member

variable [Number α]

theorem distinct_released {s : Show α} (numbered : s.program.Numbered) (operation : Operation α) :
    ((s.released operation).map Cue.order).Nodup := by
  have part {cues : List (Cue α)} (sub : cues.Sublist s.program.cues) :
      (cues.map Cue.order).Nodup := (sub.map Cue.order).nodup numbered.distinct
  cases operation with
  | begin =>
    simp only [released]
    split
    · exact part List.filter_sublist
    · exact List.nodup_nil
  | handle signal =>
    simp only [released]
    split
    · next clock value heard =>
      have orders := (s.due_sublist value (s.program.timelineOn clock)).map Cue.order
      rw [List.map_map] at orders
      exact orders.nodup (numbered.timelineOn clock)
    · split
      · exact List.nodup_nil
      · exact part List.filter_sublist
    · exact List.nodup_nil
  | tick => exact List.nodup_nil
  | terminate reason => exact List.nodup_nil

theorem pre_mem_released {s : Show α} {cue : Cue α} (present : cue ∈ s.program.cues)
    (pre : cue.trigger = .pre) (idle : s.phase = .idle) : cue ∈ s.released .begin := by
  rw [released, if_pos idle]
  exact List.mem_filter.2 ⟨present, by simp [pre]⟩

theorem callback_mem_released {s : Show α} {cue : Cue α} (present : cue ∈ s.program.cues)
    {node event : String} (trigger : cue.trigger = .callback node event)
    {operation : Operation α} : cue ∈ s.released operation ↔
      s.reports? operation = some (node, event) ∧ s.knows node event = false := by
  constructor
  · intro member
    have pulled := (mem_released member).2
    rwa [trigger] at pulled
  · rintro ⟨reports, unknown⟩
    rcases operation with _ | ⟨_ | ⟨source, _ | event'⟩ | _⟩ | _ | _ <;> try cases reports
    have cues : s.released (.handle (.callback source (some event'))) =
        s.program.callbackCuesOn node event := by
      simp [released, hears?, reports, unknown]
    rw [cues]
    exact List.mem_filter.2 ⟨present, by simp [trigger]⟩

theorem firings_of_mem_released {s t : Show α} {operation : Operation α}
    (numbered : s.program.Numbered) (dispatched : t.dispatched = s.dispatched ++ s.released operation)
    {cue : Cue α} (member : cue ∈ s.released operation) :
    t.firings cue = s.firings cue ++ [cue] := by
  rw [firings, dispatched, List.filter_append,
    filter_order_eq (distinct_released numbered operation) member, firings]

theorem firings_of_not_released {s t : Show α} {operation : Operation α}
    (numbered : s.program.Numbered) {fired : List (Cue α)}
    (dispatched : t.dispatched = s.dispatched ++ fired) (part : fired ⊆ s.released operation)
    {cue : Cue α} (present : cue ∈ s.program.cues) (absent : cue ∉ s.released operation) :
    t.firings cue = s.firings cue := by
  have known : ∀ other ∈ fired, other ∈ s.program.cues :=
    fun other member => (mem_released (part member)).1
  rw [firings, dispatched, List.filter_append,
    filter_order_nil numbered known present fun member => absent (part member), List.append_nil,
    firings]

theorem tallies_of_released {s t : Show α} {operation : Operation α}
    (numbered : s.program.Numbered) {cue : Cue α} (present : cue ∈ s.program.cues)
    (config : t.config = s.config)
    (dispatched : t.dispatched = s.dispatched ++ s.released operation)
    (ended : ∀ node event, (node, event) ∈ t.ended ↔
      (node, event) ∈ s.ended ∨ s.terminal event = true ∧
        s.reports? operation = some (node, event))
    (before : s.phase = .idle ∧ operation = .begin ∧ s.dispatched = [] ∧ s.ended = [] ∨
      s.running = true ∧ s.Tallies cue) : t.Tallies cue := by
  have once (member : cue ∈ s.released operation) : t.firings cue = s.firings cue ++ [cue] :=
    firings_of_mem_released numbered dispatched member
  have still (absent : cue ∉ s.released operation) : t.firings cue = s.firings cue :=
    firings_of_not_released numbered dispatched (List.Subset.refl _) present absent
  cases trigger : cue.trigger with
  | pre =>
    simp only [Tallies, trigger] at before ⊢
    rcases before with ⟨idle, rfl, none, _⟩ | ⟨running, fired⟩
    · rw [once (pre_mem_released present trigger idle), Show.firings, none]
      rfl
    · rw [still, fired]
      intro member
      have pulled := (mem_released member).2
      simp only [trigger] at pulled
      simp [pulled.1, running_iff_phase] at running
  | progress clock threshold =>
    simp only [Tallies, trigger] at before ⊢
    by_cases member : cue ∈ s.released operation
    · have pulled := (mem_released member).2
      simp only [trigger, hasFired_eq] at pulled
      have none : s.firings cue = [] := by simpa using pulled.2
      exact .inr (by rw [once member, none]; rfl)
    · rw [still member]
      rcases before with ⟨_, _, none, _⟩ | ⟨_, fired⟩
      · exact .inl (by rw [Show.firings, none]; rfl)
      · exact fired
  | callback node event =>
    simp only [Tallies, trigger] at before ⊢
    intro terminal
    have terminal' : s.terminal event = true := by rwa [Show.terminal, ← config]
    by_cases newly : s.reports? operation = some (node, event) ∧ s.knows node event = false
    · have unheard : (node, event) ∉ s.ended := by
        have unknown := newly.2
        simp only [knows, terminal', Bool.true_and] at unknown
        simpa using unknown
      have none : s.firings cue = [] := by
        rcases before with ⟨_, rfl, _⟩ | ⟨_, fired⟩
        · cases newly.1
        · rw [fired terminal', if_neg unheard]
      rw [once ((callback_mem_released present trigger).2 newly), none,
        if_pos ((ended node event).2 (.inr ⟨terminal', newly.1⟩))]
      rfl
    · have absent : cue ∉ s.released operation := fun member =>
        newly ((callback_mem_released present trigger).1 member)
      have same : (node, event) ∈ t.ended ↔ (node, event) ∈ s.ended := by
        rw [ended]
        refine ⟨fun heard => ?_, .inl⟩
        rcases heard with heard | ⟨_, reports⟩
        · exact heard
        have known : s.knows node event = true := by simpa [reports] using newly
        exact List.contains_iff_mem.1 (Bool.and_eq_true_iff.1 known).2
      -- The event is not new, so that neither the firings nor the reported events have changed.
      rw [still absent]
      simp only [same]
      rcases before with ⟨_, _, none, noneEnded⟩ | ⟨_, fired⟩
      · simp [Show.firings, none, noneEnded]
      · exact fired terminal'

/-! Moves -/

theorem running_of_fires {s t : Show α} {cues : List (Cue α)} (fires : Fires s cues t)
    (running : t.running = true) : s.running = true := by
  cases fires with
  | nothing => exact running
  | next before => exact before

theorem Fires.launches {s t : Show α} {cues : List (Cue α)} (fires : Fires s cues t)
    (running : t.running = true) : s.desk.animator.Launches t.desk.animator := by
  induction fires with
  | nothing s => exact refl_of Animator.Launches s.desk.animator
  | @next s t cue cues result desk _ executed fires ih =>
    -- The show goes on after the cue, so that its group has not cancelled the moves.
    have still := running_of_fires fires running
    have same : (s.fired cue result desk).desk = desk := by
      simp only [fired] at still ⊢
      split at still
      · cases still
      · next open_ => rw [if_neg open_]
    have launches := ((Desk.performs_execute cue.group).of_returns executed).animator
    rw [← same] at launches
    exact trans_of Animator.Launches launches (ih running)

theorem Releases.launches {s t : Show α} {cues : List (Cue α)} (releases : Releases s cues t)
    (running : t.running = true) : s.desk.animator.Launches t.desk.animator := by
  obtain ⟨_, _, _, fires, _⟩ := releases
  exact fires.launches running

end Show

variable [Number α]

/-- The changes account for what the step has made of the moves: moves are started, and those whose
clock has come to their end are retired. -/
def Step.Moves (step : Step α) (changes : List (Change α)) : Prop :=
  Animator.Course step.after.desk.Ended step.before.desk.animator changes
    step.after.desk.animator

namespace Show

theorem moves_of_launches {s t : Show α} {operation : Operation α}
    (launches : s.desk.animator.Launches t.desk.animator) :
    ∃ changes, Step.Moves ⟨s, operation, t⟩ changes := by
  obtain ⟨changes, course⟩ := launches
  exact ⟨changes, course.mono fun _ impossible => impossible.elim⟩

theorem moves_of_advances {s t : Show α} {operation : Operation α}
    (advances : Desk.Advances s.desk t.desk) : ∃ changes, Step.Moves ⟨s, operation, t⟩ changes := by
  obtain ⟨changes, course⟩ := advances.course
  refine ⟨changes, course.mono fun motion ⟨time, now, finished⟩ => ⟨time, ?_, finished⟩⟩
  show motion.clock.bind t.desk.graph.progress.get? = some time
  rw [advances.graph.progress]
  exact now

/-- The show in which an operation checks whether anything is left to wait for. -/
inductive Checks : Show α → Operation α → Show α → Prop where
  | begins {s t : Show α} : s.phase = .idle →
      (dispatchAll s.program.preCues).Returns (s.entered .running) () t → Checks s .begin t
  | ticks {s t : Show α} {retired : List String} : s.running = true →
      (onDesk Desk.stage.advance).Returns s retired t → Checks s .tick t

theorem Checks.does {s t : Show α} {operation : Operation α} (checks : Checks s operation t)
    (notOver : t.isOver = false) : s.isOver = false ∧ t.running = true ∧ Stays s t ∧
      t.dispatched = s.dispatched ++ s.released operation ∧ s.reports? operation = none ∧
      (s.desk.animator.Sound → ∃ changes, Step.Moves ⟨s, operation, t⟩ changes) := by
  cases checks with
  | begins idle released =>
    have releases := releases_of_returns released
    have running : t.running = true := by
      rcases releases.phase with still | finished
      · exact running_iff_phase.2 still
      · simp [isOver, finished] at notOver
    obtain ⟨fired, _, dispatched, all⟩ := releases.dispatched
    have stays : Stays s t := ⟨releases.stays.program, releases.stays.config, releases.stays.ended⟩
    have pre : s.released .begin = s.program.preCues := if_pos idle
    refine ⟨isOver_eq_false.2 (.inl idle), running, stays, ?_, rfl, fun _ => ?_⟩
    · rw [pre, ← all running]
      exact dispatched
    · exact moves_of_launches (releases.launches running)
  | ticks running returned =>
    obtain ⟨desk, advanced, rfl⟩ := (Act.returns_zoom ..).1 returned
    refine ⟨isOver_of_running running, running, ⟨rfl, rfl, rfl⟩, ?_, rfl, fun sound => ?_⟩
    · exact (List.append_nil _).symm
    · exact moves_of_advances (Desk.advances_of_advance sound advanced)

end Show

def Step.Drains (step : Step α) : Prop :=
  ∃ t, step.before.Checks step.operation t ∧ t.isOver = false ∧
    Show.checkDrain.Returns t () step.after ∧ step.after.isOver = true

theorem Step.Drains.exhausted {step : Step α} (drains : step.Drains) :
    ∃ t, step.before.Checks step.operation t ∧ t.isOver = false ∧ t.exhausted = true ∧
      step.after = t.finished "timeline complete" false := by
  obtain ⟨t, checks, notOver, checked, finished⟩ := drains
  rw [Act.Returns, Show.eval_checkDrain] at checked
  obtain after : t.drained = step.after := congrArg Prod.snd checked
  by_cases exhausted : t.exhausted = true
  · exact ⟨t, checks, notOver, exhausted, by rw [← after, Show.drained, if_pos exhausted]⟩
  · rw [← after, Show.drained, if_neg exhausted, notOver] at finished
    cases finished

namespace Show

omit [Number α] in
theorem complete_of_exhausted {s : Show α} (exhausted : s.exhausted = true)
    (tallies : ∀ cue ∈ s.program.cues, s.Tallies cue) : s.Complete := by
  intro cue present
  have nothing : s.awaits cue = false := by
    simp only [Show.exhausted, Bool.and_eq_true, List.isEmpty_iff, pending] at exhausted
    exact Bool.eq_false_iff.2 (List.filter_eq_nil_iff.1 exhausted.1.2 cue present)
  have tally := tallies cue present
  cases trigger : cue.trigger with
  | pre => simpa only [Tallies, trigger] using tally
  | progress clock threshold =>
    simp only [Tallies, trigger] at tally ⊢
    refine tally.resolve_left fun none => ?_
    simp [awaits, trigger, hasFired_eq, none] at nothing
  | callback node event =>
    simp only [Tallies, trigger] at tally ⊢
    intro terminal
    have heard : (node, event) ∈ s.ended := by simpa [awaits, trigger, terminal] using nothing
    rw [tally terminal, if_pos heard]

/-- Something that a show still waits for: a progress cue that has not fired, a cue on a terminal
event that no step has reported, or a move in flight. -/
def Waits (s : Show α) (steps : List (Step α)) : Prop :=
  (∃ cue ∈ s.program.cues, ∃ clock threshold, cue.trigger = .progress clock threshold ∧
    s.firings cue = []) ∨
  (∃ cue ∈ s.program.cues, ∃ node event, cue.trigger = .callback node event ∧
    s.terminal event = true ∧
    ∀ step ∈ steps, step.before.reports? step.operation ≠ some (node, event)) ∨
  s.desk.animator.count ≠ 0

omit [Number α] in
theorem waits_of_not_exhausted {s : Show α} {steps : List (Step α)} (running : s.running = true)
    (left : s.exhausted = false)
    (reported : ∀ step ∈ steps, ∀ node event, s.terminal event = true →
      step.before.reports? step.operation = some (node, event) → (node, event) ∈ s.ended) :
    s.Waits steps := by
  by_cases still : s.desk.animator.count = 0
  · have some : s.pending ≠ [] := by simpa [Show.exhausted, running, still] using left
    obtain ⟨cue, member⟩ := List.exists_mem_of_ne_nil _ some
    obtain ⟨present, awaits⟩ := List.mem_filter.1 member
    cases trigger : cue.trigger with
    | pre => simp [Show.awaits, trigger] at awaits
    | progress clock threshold =>
      refine .inl ⟨cue, present, clock, threshold, trigger, ?_⟩
      simpa [Show.awaits, trigger, hasFired_eq] using awaits
    | callback node event =>
      simp only [Show.awaits, trigger, Bool.and_eq_true, Bool.not_eq_true'] at awaits
      refine .inr (.inl ⟨cue, present, node, event, trigger, awaits.1, fun step member reports => ?_⟩)
      have heard := reported step member node event awaits.1 reports
      simp [heard] at awaits
  · exact .inr (.inr still)

structure Going (steps : List (Step α)) (s : Show α) : Prop where
  unstarted : s.phase = .idle → s.dispatched = [] ∧ s.ended = []
  tallies : s.running = true → ∀ cue ∈ s.program.cues, s.Tallies cue
  reported : ∀ step ∈ steps, ∀ node event, s.terminal event = true →
    step.before.reports? step.operation = some (node, event) → (node, event) ∈ s.ended

omit [Number α] in
theorem going_of_fresh {s : Show α} (fresh : s.Fresh) : Going [] s where
  unstarted _ := ⟨fresh.dispatched, fresh.ended⟩
  tallies running := by simp [fresh.idle, running_iff_phase] at running
  reported _ member := nomatch member

theorem Going.step {steps : List (Step α)} {s t : Show α} {operation : Operation α}
    (going : Going steps s) (numbered : s.program.Numbered) (does : Does s operation t) :
    Going (steps ++ [⟨s, operation, t⟩]) t where
  unstarted idle := by
    obtain rfl := does.eq_of_idle idle
    exact going.unstarted idle
  tallies running := by
    obtain ⟨fired, _, dispatched, all⟩ := does.dispatches
    rw [all running] at dispatched
    rw [does.keeps.1]
    intro cue present
    refine tallies_of_released numbered present does.keeps.2 dispatched does.ended_iff ?_
    rcases does.phase with rfl | ⟨before, _⟩ | ⟨idle, begins, _⟩ | ⟨_, finished⟩
    · exact .inr ⟨running, going.tallies running cue present⟩
    · have before := running_iff_phase.2 before
      exact .inr ⟨before, going.tallies before cue present⟩
    · exact .inl ⟨idle, begins, going.unstarted idle⟩
    · simp [running_iff_phase.1 running] at finished
  reported := by
    intro step member node event terminal reports
    rw [Show.terminal, does.keeps.2] at terminal
    rw [does.ended_iff]
    rcases List.mem_append.1 member with before | now
    · exact .inl (going.reported step before node event terminal reports)
    · obtain rfl := List.mem_singleton.1 now
      exact .inr ⟨terminal, reports⟩

theorem Going.drains {steps : List (Step α)} {s t : Show α} {operation : Operation α}
    (going : Going steps s) (numbered : s.program.Numbered) (sound : s.desk.animator.Sound)
    (drains : Step.Drains ⟨s, operation, t⟩) : s.isOver = false ∧ t.isOver = true ∧ t.Complete ∧
      t.desk.animator.count = 0 ∧ ∃ changes, Step.Moves ⟨s, operation, t⟩ changes := by
  obtain ⟨u, checks, notOver, exhausted, after⟩ := drains.exhausted
  obtain rfl : t = u.finished "timeline complete" false := after
  change Checks s operation u at checks
  obtain ⟨open_, running, stays, dispatched, silent, moves⟩ := checks.does notOver
  -- The check comes behind the cues that the operation fires, so the tallies are taken there.
  have tallies : ∀ cue ∈ u.program.cues, u.Tallies cue := by
    rw [stays.program]
    intro cue present
    refine tallies_of_released numbered present stays.config dispatched ?_ ?_
    · simp [stays.ended, silent]
    · rcases isOver_eq_false.1 open_ with idle | before
      · cases checks with
        | begins => exact .inl ⟨idle, rfl, going.unstarted idle⟩
        | ticks running => simp [running_iff_phase, idle] at running
      · have before := running_iff_phase.2 before
        exact .inr ⟨before, going.tallies before cue present⟩
  have still : u.desk.animator.count = 0 := by
    simp only [Show.exhausted, Bool.and_eq_true, decide_eq_true_eq] at exhausted
    exact exhausted.2
  have complete : u.Complete := complete_of_exhausted exhausted tallies
  exact ⟨open_, rfl, complete, still, moves sound⟩

theorem Does.moves {s t : Show α} {operation : Operation α} (does : Does s operation t)
    (sound : s.desk.animator.Sound) (notOver : t.isOver = false) :
    ∃ changes, Step.Moves ⟨s, operation, t⟩ changes := by
  -- A show whose desk is as before accounts for its moves without a change.
  have same {t : Show α} (same : t.desk = s.desk) :
      ∃ changes, Step.Moves ⟨s, operation, t⟩ changes :=
    moves_of_launches (by rw [same]; exact refl_of Animator.Launches _)
  have undrained {t : Show α} (notOver : t.drained.isOver = false) : t.drained = t := by
    by_cases exhausted : t.exhausted = true
    · simp [drained, exhausted] at notOver
    · simp [drained, exhausted]
  have runs {s t : Show α} (running : s.running = true)
      (phase : t.phase = s.phase ∨ t.phase = .terminated) (notOver : t.isOver = false) :
      t.running = true := by
    rcases phase with still | finished
    · rw [running_iff_phase, still, ← running_iff_phase]
      exact running
    · simp [isOver, finished] at notOver
  cases does with
  | @begins u idle releases =>
    have same := undrained notOver
    rw [same] at notOver ⊢
    exact moves_of_launches (releases.launches (runs rfl releases.phase notOver))
  | hears running _ releases =>
    exact moves_of_launches (releases.launches (runs running releases.phase notOver))
  | @answers _ _ node event running _ _ releases =>
    have running' := (reported_running s node event).trans running
    have launches := releases.launches (runs running' releases.phase notOver)
    refine moves_of_launches ?_
    simp only [reported] at launches
    split at launches <;> exact launches
  | ticks running advanced =>
    rw [undrained notOver]
    exact moves_of_advances (Desk.advances_of_advance sound advanced)
  | stops => cases notOver
  | ends => cases notOver
  | _ => exact same rfl

end Show

theorem drains_of_tick {s t : Show α} (running : s.running = true)
    (returned : (Operation.tick : Operation α).act.Returns s () t) (finished : t.isOver = true) :
    Step.Drains ⟨s, .tick, t⟩ := by
  cases Show.does_tick returned with
  | @ticks retired desk _ advanced =>
    have notOver : ({ s with desk } : Show α).isOver = false := Show.isOver_of_running running
    have returned : (Show.onDesk Desk.stage.advance).Returns s retired { s with desk } :=
      (Act.returns_zoom ..).2 ⟨desk, advanced, rfl⟩
    exact ⟨{ s with desk }, .ticks running returned, notOver, Show.eval_checkDrain _, finished⟩
  | rests resting => simp [resting] at running

theorem Show.Does.not_exhausted {s t : Show α} {operation : Operation α} (does : s.Does operation t)
    (checks : s.phase = .idle ∧ operation = .begin ∨ operation = .tick)
    (running : t.running = true) : t.exhausted = false := by
  have left {u : Show α} (running : u.drained.running = true) : u.drained.exhausted = false := by
    by_cases exhausted : u.exhausted = true
    · simp [drained, exhausted] at running
    · simp [drained, exhausted]
  cases does with
  | begins => exact left running
  | begun started => simp [started] at checks
  | ticks => exact left running
  | rests resting => simp [resting] at running
  | _ => simp at checks

def Chronicle (start : Animator α) (steps : List (Step α)) (s : Show α)
    (histories : List (List (Change α))) : Prop :=
  List.Forall₂ Step.Moves steps histories ∧
    Animator.Course (fun _ => True) start histories.flatten s.desk.animator

theorem Chronicle.step {start : Animator α} {steps : List (Step α)} {s t : Show α}
    {operation : Operation α} {histories : List (List (Change α))}
    (chronicle : Chronicle start steps s histories) {changes : List (Change α)}
    (moves : Step.Moves ⟨s, operation, t⟩ changes) :
    Chronicle start (steps ++ [⟨s, operation, t⟩]) t (histories ++ [changes]) := by
  refine ⟨List.rel_append chronicle.1 (.cons moves .nil), ?_⟩
  rw [List.flatten_append, List.flatten_singleton]
  exact chronicle.2.append (moves.mono fun _ _ => trivial)

/-- What holds along a run until the show drains, and from then on. -/
structure Account (start : Animator α) (steps : List (Step α)) (s : Show α) : Prop where
  going : s.Going steps
  drained : (∃ step ∈ steps, step.Drains) →
    s.isOver = true ∧ s.Complete ∧ s.desk.animator.count = 0
  moves : (s.isOver = false ∨ ∃ step ∈ steps, step.Drains) →
    ∃ histories, Chronicle start steps s histories

theorem Account.step {start : Animator α} (sound : start.Sound) {steps : List (Step α)}
    {s t : Show α} {operation : Operation α} (account : Account start steps s)
    (numbered : s.program.Numbered) (does : s.Does operation t) :
    Account start (steps ++ [⟨s, operation, t⟩]) t := by
  have soundAt {histories} (chronicle : Chronicle start steps s histories) :
      s.desk.animator.Sound := chronicle.2.sound sound
  refine ⟨account.going.step numbered does, ?_, ?_⟩
  · rintro ⟨step, member, drains⟩
    rcases List.mem_append.1 member with before | now
    -- A show that has drained is finished, and no operation changes it any more.
    · have done := account.drained ⟨step, before, drains⟩
      obtain rfl := does.eq_of_isOver done.1
      exact done
    · obtain rfl := List.mem_singleton.1 now
      obtain ⟨u, checks, notOver, _⟩ := drains.exhausted
      obtain ⟨histories, chronicle⟩ := account.moves (.inl (checks.does notOver).1)
      exact (account.going.drains numbered (soundAt chronicle) drains).2 |>.imp_right fun done =>
        ⟨done.1, done.2.1⟩
  · rintro (notOver | ⟨step, member, drains⟩)
    · have before : s.isOver = false := by
        refine Bool.eq_false_iff.2 fun finished => ?_
        rw [does.eq_of_isOver finished, finished] at notOver
        cases notOver
      obtain ⟨histories, chronicle⟩ := account.moves (.inl before)
      obtain ⟨changes, moves⟩ := does.moves (soundAt chronicle) notOver
      exact ⟨_, chronicle.step moves⟩
    · rcases List.mem_append.1 member with earlier | now
      · obtain ⟨histories, chronicle⟩ := account.moves (.inr ⟨step, earlier, drains⟩)
        obtain rfl := does.eq_of_isOver (account.drained ⟨step, earlier, drains⟩).1
        exact ⟨_, chronicle.step (.rest _)⟩
      · obtain rfl := List.mem_singleton.1 now
        obtain ⟨u, checks, notOver, _⟩ := drains.exhausted
        obtain ⟨histories, chronicle⟩ := account.moves (.inl (checks.does notOver).1)
        obtain ⟨_, _, _, _, changes, moves⟩ :=
          account.going.drains numbered (soundAt chronicle) drains
        exact ⟨_, chronicle.step moves⟩

/-- A show ends by itself only when all that it waits for has come: each of its cues has fired once,
and every move has been retired at its end or been taken over by a later one. As long as a check
leaves it running, something is left. -/
theorem natural_end_is_complete {s t : Show α} {steps : List (Step α)}
    (compiled : s.program.Compiled) (fresh : s.Fresh) (run : Run s steps t) :
    ((∃ step ∈ steps, step.Drains) → t.Complete ∧
      ∃ histories, List.Forall₂ Step.Moves steps histories ∧
        ∀ number motion, .started number motion ∈ histories.flatten →
          (∃ later next, number < later ∧ next.node = motion.node ∧
            .started later next ∈ histories.flatten) ∨
          .retired number motion ∈ histories.flatten) ∧
    (∀ earlier step, steps = earlier ++ [step] →
      step.before.phase = .idle ∧ step.operation = .begin ∨ step.operation = .tick →
      t.running = true → t.Waits steps) := by
  have numbered := compiled.numbered
  have sound : s.desk.animator.Sound := Animator.sound_of_empty fresh.motionless
  obtain ⟨account, _⟩ := run.preserves numbered (P := Account s.desk.animator)
    ⟨Show.going_of_fresh fresh, fun ⟨_, member, _⟩ => (nomatch member),
      fun _ => ⟨[], .nil, .rest _⟩⟩
    fun program _ account does => account.step sound (program ▸ numbered) does
  refine ⟨fun drained => ?_, ?_⟩
  · obtain ⟨_, complete, still⟩ := account.drained drained
    obtain ⟨histories, moves, course⟩ := account.moves (.inr drained)
    refine ⟨complete, histories, moves, fun number motion started => ?_⟩
    rcases course.accounts sound started with inFlight | taken
    · rw [Table.get?_of_size still] at inFlight
      cases inFlight
    · exact taken
  · rintro earlier step rfl checks running
    obtain ⟨before, returned⟩ := run.last
    have does := Show.does_of_returns ((before.keeps numbered).1 ▸ numbered) returned
    exact Show.waits_of_not_exhausted running (does.not_exhausted checks running)
      account.going.reported

set_option maxRecDepth 20000 in
theorem natural_end_is_complete_sample :
    let operations := Sample.events ++ [.tick]
    let steps := Sample.built.steps operations
    let t := Sample.built.after operations
    Sample.built.program.Compiled ∧ Sample.built.Fresh ∧ Run Sample.built steps t ∧
      (∃ step ∈ steps, step.Drains) ∧ t.Complete := by
  intro operations steps t
  have checks : (Sample.built.passes operations && (Sample.built.after Sample.events).running &&
      t.isOver) = true := by
    decide +kernel
  simp only [Bool.and_eq_true] at checks
  obtain ⟨⟨passes, running⟩, finished⟩ := checks
  have run : Run Sample.built steps t := run_of_passes passes
  have last : steps = _ := Show.steps_append ..
  rw [last] at run
  have drains := drains_of_tick running run.last.2 finished
  rw [← last] at run
  have drained : ∃ step ∈ steps, step.Drains :=
    ⟨_, last ▸ List.mem_append_right _ List.mem_cons_self, drains⟩
  have law := natural_end_is_complete Sample.compiled Sample.fresh run
  exact ⟨Sample.compiled, Sample.fresh, run, drained, (law.1 drained).1⟩

end ShowControl
