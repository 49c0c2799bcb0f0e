import ShowControl.Proofs.Show.Group
import ShowControl.Proofs.Show.Run

/-! What comes first and what comes last in a run.

The `pre` cues open a show, and a cue with a `terminate` action closes it: none of the cues that the
same operation releases behind it is fired, and no later operation fires any. -/

set_option autoImplicit false
namespace ShowControl

variable {α : Type} [Number α]

/-! Cues up to the one that ends the show -/

def Cue.ends {α : Type} (cue : Cue α) : Bool := cue.group.terminates

/-- The cues up to the first one that ends the show. -/
def untilEnd {α : Type} : List (Cue α) → List (Cue α)
  | [] => []
  | cue :: rest => if cue.ends then [cue] else cue :: untilEnd rest

section
omit [Number α]

theorem untilEnd_isPrefix (cues : List (Cue α)) : untilEnd cues <+: cues := by
  induction cues with
  | nil => exact List.prefix_rfl
  | cons cue rest ih =>
    rw [untilEnd]
    split
    · exact List.prefix_append [cue] rest
    · exact List.cons_prefix_cons.2 ⟨rfl, ih⟩

theorem untilEnd_of_not_any {cues : List (Cue α)} (none : cues.any Cue.ends = false) :
    untilEnd cues = cues := by
  induction cues with
  | nil => rfl
  | cons cue rest ih =>
    rw [List.any_cons, Bool.or_eq_false_iff] at none
    rw [untilEnd, none.1, ih none.2]
    rfl

theorem untilEnd_append (first second : List (Cue α)) : untilEnd (first ++ second) =
    if first.any Cue.ends then untilEnd first else first ++ untilEnd second := by
  induction first with
  | nil => rfl
  | cons cue rest ih =>
    rw [List.cons_append, untilEnd, untilEnd, ih, List.any_cons]
    cases cue.ends <;> cases rest.any Cue.ends <;> rfl

@[simp] theorem untilEnd_untilEnd (cues : List (Cue α)) :
    untilEnd (untilEnd cues) = untilEnd cues := by
  induction cues with
  | nil => rfl
  | cons cue rest ih =>
    cases ends : cue.ends with
    | true => simp [untilEnd, ends]
    | false => simp [untilEnd, ends, ih]

@[simp] theorem any_untilEnd (cues : List (Cue α)) :
    (untilEnd cues).any Cue.ends = cues.any Cue.ends := by
  induction cues with
  | nil => rfl
  | cons cue rest ih =>
    cases ends : cue.ends with
    | true => simp [untilEnd, ends]
    | false => simp [untilEnd, ends, ih]

theorem untilEnd_eq_append {cues : List (Cue α)} (some : cues.any Cue.ends = true) :
    ∃ earlier cue, untilEnd cues = earlier ++ [cue] ∧ cue.ends = true := by
  induction cues with
  | nil => cases some
  | cons cue rest ih =>
    rw [untilEnd]
    cases ends : cue.ends with
    | true => exact ⟨[], cue, rfl, ends⟩
    | false =>
      rw [List.any_cons, ends, Bool.false_or] at some
      obtain ⟨earlier, last, same, closes⟩ := ih some
      exact ⟨cue :: earlier, last, by simp [same], closes⟩

theorem last_of_untilEnd {cues earlier later : List (Cue α)} {cue : Cue α}
    (cut : untilEnd cues = cues) (split : cues = earlier ++ cue :: later)
    (ends : cue.ends = true) : later = [] := by
  subst split
  rw [untilEnd_append] at cut
  split at cut
  · have short := (untilEnd_isPrefix earlier).length_le
    have lengths := congrArg List.length cut
    rw [List.length_append, List.length_cons] at lengths
    omega
  · rw [List.append_cancel_left_eq, untilEnd, if_pos ends] at cut
    exact (List.cons.inj cut).2.symm

end

namespace Show

theorem fired_running (s : Show α) (cue : Cue α) {result : GroupResult α} {desk : Desk α}
    (executed : (Desk.execute cue.group).Returns s.desk result desk) (running : s.running = true) :
    (s.fired cue result desk).running = !cue.ends := by
  have ends : result.terminate = cue.ends := Desk.terminates_execute executed
  have notOver := isOver_of_running running
  simp only [fired, ends]
  cases cue.ends with
  | false => exact running
  | true =>
    rw [if_pos]
    · rfl
    · simpa [isOver] using notOver

theorem Fires.cut {s t : Show α} {cues : List (Cue α)} (fires : Fires s cues t)
    (running : s.running = true) :
    untilEnd cues = cues ∧ t.running = !cues.any Cue.ends := by
  induction fires with
  | nothing => exact ⟨rfl, running⟩
  | @next s t cue cues result desk running executed fires ih =>
    have after := fired_running s cue executed running
    cases ends : cue.ends with
    | false =>
      obtain ⟨cut, still⟩ := ih (by rw [after, ends]; rfl)
      exact ⟨by rw [untilEnd, ends, cut]; rfl, by rw [still, List.any_cons, ends]; rfl⟩
    | true =>
      rw [ends] at after
      cases fires with
      | nothing => exact ⟨by rw [untilEnd, if_pos ends], by simp [after, ends]⟩
      -- A show that is over fires nothing.
      | next before => simp [after] at before

theorem Releases.cut {s t : Show α} {cues : List (Cue α)} (releases : Releases s cues t)
    (running : s.running = true) :
    t.dispatched = s.dispatched ++ untilEnd cues ∧ t.running = !cues.any Cue.ends := by
  obtain ⟨fired, rest, rfl, fires, all⟩ := releases
  obtain ⟨cut, still⟩ := fires.cut running
  rw [fires.dispatched, untilEnd_append, List.any_append, still]
  cases ends : fired.any Cue.ends with
  | true => exact ⟨by rw [if_pos rfl, cut], rfl⟩
  | false =>
    obtain rfl := all (by rw [still, ends]; rfl)
    exact ⟨by rw [if_neg Bool.false_ne_true, untilEnd, List.append_nil], rfl⟩

theorem Does.cut {s t : Show α} {operation : Operation α} (does : Does s operation t) :
    t.dispatched = s.dispatched ++ untilEnd (s.released operation) ∧
      (t.running = true → (s.released operation).any Cue.ends = false) := by
  obtain ⟨before, after, releases, same, dispatched, running | none, still⟩ := does.releases
  · obtain ⟨fires, ends⟩ := releases.cut running
    rw [dispatched, fires, same]
    refine ⟨rfl, fun running => ?_⟩
    simpa [ends] using still running
  · obtain ⟨fired, first, fires, _⟩ := does.dispatches
    rw [none] at first ⊢
    rw [fires, List.prefix_nil.1 first]
    exact ⟨rfl, fun _ => rfl⟩

end Show

/-! Beginning a show, and ending it beforehand -/

omit [Number α] in
def Step.Begins (step : Step α) : Prop := step.before.phase = .idle ∧ step.operation = .begin

/-- Every call that would begin the show comes behind one that has ended it. -/
def Forestalled (steps : List (Step α)) : Prop :=
  ∀ earlier step later, steps = earlier ++ step :: later → step.operation = .begin →
    ∃ ended ∈ earlier, ∃ reason, ended.operation = .terminate reason

namespace Show

structure Opening (steps : List (Step α)) (s : Show α) : Prop where
  ended : (∃ step ∈ steps, ∃ reason, step.operation = .terminate reason) → s.isOver = true
  idle : s.phase = .idle → ¬∃ step ∈ steps, step.Begins
  forestalled : Forestalled steps → ¬∃ step ∈ steps, step.Begins
  unopened : (¬∃ step ∈ steps, step.Begins) → s.running = false ∧ s.dispatched = []
  opened : (∃ step ∈ steps, step.Begins) → ∃ later,
    s.dispatched = untilEnd s.program.preCues ++ later ∧ ∀ cue ∈ later, cue.trigger ≠ .pre
  cut : untilEnd s.dispatched = s.dispatched
  going : s.running = true → s.dispatched.any Cue.ends = false

omit [Number α] in
theorem opening_of_fresh {s : Show α} (fresh : s.Fresh) : Opening [] s where
  ended := by simp
  idle _ := by simp
  forestalled _ := by simp
  unopened _ := ⟨by simp [running, fresh.idle], fresh.dispatched⟩
  opened := by simp
  cut := by rw [fresh.dispatched]; rfl
  going _ := by rw [fresh.dispatched]; rfl

omit [Number α] in
theorem begins_append {steps : List (Step α)} {step : Step α} :
    (∃ other ∈ steps ++ [step], other.Begins) ↔
      (∃ other ∈ steps, other.Begins) ∨ step.Begins := by
  simp [or_and_right, exists_or]

omit [Number α] in
theorem forestalled_of_append {steps : List (Step α)} {step : Step α}
    (forestalled : Forestalled (steps ++ [step])) :
    Forestalled steps ∧ (step.operation = .begin →
      ∃ ended ∈ steps, ∃ reason, ended.operation = .terminate reason) := by
  refine ⟨fun earlier other later split => ?_, forestalled steps step [] rfl⟩
  refine forestalled earlier other (later ++ [step]) ?_
  rw [split, List.append_assoc, List.cons_append]

theorem not_pre_of_released {s : Show α} {operation : Operation α}
    (other : ¬(s.phase = .idle ∧ operation = .begin)) {cue : Cue α}
    (member : cue ∈ s.released operation) : cue.trigger ≠ .pre := by
  intro pre
  have pulled := (mem_released member).2
  rw [pre] at pulled
  exact other pulled

theorem released_eq_nil {s : Show α} {operation : Operation α} (resting : s.running = false)
    (other : ¬(s.phase = .idle ∧ operation = .begin)) : s.released operation = [] := by
  cases operation with
  | begin => exact if_neg fun idle => other ⟨idle, rfl⟩
  | handle signal => exact released_unheard (.inl resting)
  | tick => rfl
  | terminate reason => rfl

theorem Does.not_idle_of_begin {s t : Show α} (does : Does s .begin t) : t.phase ≠ .idle := by
  intro idle
  cases does with
  | begun started => exact started idle
  | @begins u _ releases =>
    rcases drained_phase u with same | finished
    · rcases releases.phase with still | finished <;> simp_all [entered]
    · simp [idle] at finished

theorem Does.isOver_of_terminate {s t : Show α} {reason : String}
    (does : Does s (.terminate reason) t) : t.isOver = true := by
  cases does with
  | ends => rfl
  | ended _ finished => exact finished

variable {steps : List (Step α)} {s t : Show α} {operation : Operation α}

theorem Opening.idle_step (opening : Opening steps s) (does : Does s operation t)
    (idle : t.phase = .idle) : ¬∃ step ∈ steps ++ [⟨s, operation, t⟩], step.Begins := by
  obtain rfl := does.eq_of_idle idle
  rw [begins_append]
  rintro (before | ⟨_, rfl⟩)
  · exact opening.idle idle before
  · exact does.not_idle_of_begin idle

omit [Number α] in
theorem Opening.forestalled_step (opening : Opening steps s)
    (forestalled : Forestalled (steps ++ [⟨s, operation, t⟩])) :
    ¬∃ step ∈ steps ++ [⟨s, operation, t⟩], step.Begins := by
  obtain ⟨before, begins⟩ := forestalled_of_append forestalled
  rw [begins_append]
  rintro (earlier | ⟨idle, begun⟩)
  · exact opening.forestalled before earlier
  -- What has ended the show keeps it from beginning.
  · have finished := opening.ended (begins begun)
    change s.phase = .idle at idle
    simp [isOver, idle] at finished

theorem Opening.unopened_step (opening : Opening steps s) (does : Does s operation t)
    (unopened : ¬∃ step ∈ steps ++ [⟨s, operation, t⟩], step.Begins) :
    t.running = false ∧ t.dispatched = [] := by
  rw [begins_append, not_or] at unopened
  obtain ⟨resting, none⟩ := opening.unopened unopened.1
  rw [does.cut.1, none, released_eq_nil resting unopened.2]
  refine ⟨?_, rfl⟩
  rcases does.phase with rfl | ⟨running, _⟩ | ⟨idle, begins, _⟩ | ⟨_, finished⟩
  · exact resting
  · simp [running_iff_phase.2 running] at resting
  · exact absurd ⟨idle, begins⟩ unopened.2
  · simp [running, finished]

theorem Opening.opened_step (opening : Opening steps s) (does : Does s operation t)
    (opened : ∃ step ∈ steps ++ [⟨s, operation, t⟩], step.Begins) :
    ∃ later, t.dispatched = untilEnd t.program.preCues ++ later ∧
      ∀ cue ∈ later, cue.trigger ≠ .pre := by
  rw [does.keeps.1, does.cut.1]
  by_cases before : ∃ step ∈ steps, step.Begins
  · obtain ⟨later, fired, notPre⟩ := opening.opened before
    refine ⟨later ++ untilEnd (s.released operation), ?_, fun cue member => ?_⟩
    · rw [fired, List.append_assoc]
    · rcases List.mem_append.1 member with already | now
      · exact notPre cue already
      · refine not_pre_of_released ?_ ((untilEnd_isPrefix _).subset now)
        exact fun begins => opening.idle begins.1 before
  · obtain ⟨idle, begins⟩ := (begins_append.1 opened).resolve_left before
    obtain rfl : operation = .begin := begins
    have pre : s.released .begin = s.program.preCues := if_pos idle
    exact ⟨[], by rw [(opening.unopened before).2, pre]; simp, by simp⟩

/-- Cues are released to a show that is running, and then none has ended it so far, or to one that
begins, and then there are none so far. -/
theorem Opening.cut_step (opening : Opening steps s) (does : Does s operation t) :
    untilEnd t.dispatched = t.dispatched := by
  rw [does.cut.1]
  by_cases running : s.running = true
  · rw [untilEnd_append, opening.going running, if_neg Bool.false_ne_true, untilEnd_untilEnd]
  · by_cases begins : s.phase = .idle ∧ operation = .begin
    · rw [(opening.unopened (opening.idle begins.1)).2, List.nil_append, untilEnd_untilEnd]
    · rw [released_eq_nil (Bool.eq_false_iff.2 running) begins]
      simpa [untilEnd] using opening.cut

theorem Opening.going_step (opening : Opening steps s) (does : Does s operation t)
    (running : t.running = true) : t.dispatched.any Cue.ends = false := by
  obtain ⟨dispatched, still⟩ := does.cut
  rw [dispatched, List.any_append, any_untilEnd, still running, Bool.or_false]
  rcases does.phase with rfl | ⟨before, _⟩ | ⟨idle, _⟩ | ⟨_, finished⟩
  · exact opening.going running
  · exact opening.going (running_iff_phase.2 before)
  · rw [(opening.unopened (opening.idle idle)).2]
    rfl
  · simp [running_iff_phase.1 running] at finished

theorem Opening.step (opening : Opening steps s) (does : Does s operation t) :
    Opening (steps ++ [⟨s, operation, t⟩]) t where
  ended := by
    rintro ⟨step, member, reason, ends⟩
    rcases List.mem_append.1 member with before | now
    · have finished := opening.ended ⟨step, before, reason, ends⟩
      rwa [does.eq_of_isOver finished]
    · obtain rfl := List.mem_singleton.1 now
      obtain rfl : operation = .terminate reason := ends
      exact does.isOver_of_terminate
  idle := opening.idle_step does
  forestalled := opening.forestalled_step
  unopened := opening.unopened_step does
  opened := opening.opened_step does
  cut := opening.cut_step does
  going := opening.going_step does

end Show

/-- The `pre` cues are the first ones that a run fires, in script order and each once, and all of them
unless one ends the show. Nothing is fired in a show that is not begun before it is ended, and nothing
behind a cue that ends the show. -/
theorem pre_cues_open_and_terminate_closes {s t : Show α} {steps : List (Step α)}
    (compiled : s.program.Compiled) (fresh : s.Fresh) (run : Run s steps t) :
    (s.program.preCues.map Cue.order).Pairwise (· < ·) ∧
    (∃ first later, t.dispatched = first ++ later ∧ first <+: s.program.preCues ∧
      (∀ cue ∈ later, cue.trigger ≠ .pre) ∧
      ((∃ step ∈ steps, step.Begins) → first = s.program.preCues ∨
        later = [] ∧ ∃ earlier cue, first = earlier ++ [cue] ∧ cue.group.terminates = true)) ∧
    (Forestalled steps → t.dispatched = []) ∧
    (∀ earlier cue later, t.dispatched = earlier ++ cue :: later →
      cue.group.terminates = true → later = []) := by
  obtain ⟨opening, program, _⟩ := run.preserves compiled.numbered (P := Show.Opening)
    (Show.opening_of_fresh fresh) fun _ _ opening does => opening.step does
  refine ⟨compiled.numbered.inOrder List.filter_sublist, ?_, fun forestalled => ?_,
    fun _ _ _ => last_of_untilEnd opening.cut⟩
  · by_cases opened : ∃ step ∈ steps, step.Begins
    · obtain ⟨later, fired, notPre⟩ := opening.opened opened
      rw [program] at fired
      refine ⟨_, later, fired, untilEnd_isPrefix _, notPre, fun _ => ?_⟩
      cases some : s.program.preCues.any Cue.ends with
      | false => exact .inl (untilEnd_of_not_any some)
      | true =>
        obtain ⟨earlier, cue, same, ends⟩ := untilEnd_eq_append some
        rw [same, List.append_assoc, List.singleton_append] at fired
        exact .inr ⟨last_of_untilEnd opening.cut fired ends, earlier, cue, same, ends⟩
    · exact ⟨[], [], (opening.unopened opened).2, List.nil_prefix, by simp, fun begun =>
        absurd begun opened⟩
  · exact (opening.unopened (opening.forestalled forestalled)).2

/-! A show that ends itself while it opens -/

namespace Sample

def closing : String :=
  "raw w 0 fakesrc\nwar\nnew w a\non pre act a play start\n" ++
  "on pre wrap\nterminate\nact a play pause\nparw\non pre act a play stop\n" ++
  "on progress a 0 act a play start\n"

def calls : List (Operation Scalar) := [.tick, progress 1, .begin, .begin, progress 1]

end Sample

set_option maxRecDepth 20000 in
theorem pre_cues_open_and_terminate_closes_sample :
    let s := Show.ready (Script.programOf Sample.closing) .standard
    let steps := s.steps Sample.calls
    let t := s.after Sample.calls
    s.program.Compiled ∧ s.Fresh ∧ Run s steps t ∧ s.program.preCues.length = 3 ∧
      t.dispatched.map Cue.order = [0, 1] ∧
      ∀ earlier cue later, t.dispatched = earlier ++ cue :: later →
        cue.group.terminates = true → later = [] := by
  intro s steps t
  have compiled : s.program.Compiled := Show.compiled_ready .standard (by decide +kernel)
  have fresh : s.Fresh := Show.fresh_ready _ _
  have checks : (s.passes Sample.calls && decide (s.program.preCues.length = 3 ∧
      t.dispatched.map Cue.order = [0, 1])) = true := by
    decide +kernel
  obtain ⟨passes, fired⟩ := Bool.and_eq_true_iff.1 checks
  obtain ⟨three, fired⟩ := of_decide_eq_true fired
  have run : Run s steps t := run_of_passes passes
  have law := pre_cues_open_and_terminate_closes compiled fresh run
  exact ⟨compiled, fresh, run, three, fired, law.2.2.2⟩

end ShowControl
