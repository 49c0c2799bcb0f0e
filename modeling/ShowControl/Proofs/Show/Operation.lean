import ShowControl.Proofs.Animation.Course
import ShowControl.Proofs.Script.Timeline
import ShowControl.Show.Run

/-! Operations on a show.

A show is begun, handles signals, ticks and is ended. Every operation is inverted once: `Does` has a
constructor for each thing that one can do when no fault cuts it short, and `does_of_returns` says
that there is nothing else. -/

set_option autoImplicit false
namespace ShowControl

/-- What is asked of a show from outside. -/
inductive Operation (α : Type) where
  | begin
  | handle (signal : Signal α)
  | tick
  | terminate (reason : String)

def Operation.act {α : Type} [Number α] : Operation α → Act (Show α) Unit
  | begin => Show.begin
  | handle signal => Show.handle signal
  | tick => do
    let _ ← Show.tick
  | terminate reason => Show.terminate reason

namespace Show

variable {α : Type}

/-! The states that single steps lead to -/

def entered (s : Show α) (phase : Phase) : Show α :=
  { s with phase, phases := s.phases ++ [phase] }

/-- The show as it is left when it ends. -/
def finished (s : Show α) (reason : String) (cancel : Bool) : Show α :=
  { s with
    reason := some reason
    phase := .terminated
    phases := s.phases ++ (if s.phase = .draining then [] else [.draining]) ++ [.terminated]
    desk := if cancel then { s.desk with animator := { s.desk.animator with entries := .empty } }
      else s.desk
    channel := { s.channel with queue := [], closed := true } }

/-- Nothing that the show waits for is left. -/
def exhausted (s : Show α) : Bool :=
  s.running && s.pending.isEmpty && s.desk.animator.count = 0

def drained (s : Show α) : Show α :=
  if s.exhausted then s.finished "timeline complete" false else s

/-- The show after a cue whose group had this result and left this desk. -/
def fired (s : Show α) (cue : Cue α) (result : GroupResult α) (desk : Desk α) : Show α :=
  let s : Show α := { s with
    dispatched := s.dispatched ++ [cue], desk, completed := s.completed ++ [(cue, result)] }
  if result.terminate && !s.isOver then s.finished s!"terminate on line {cue.line}" true else s

/-- The show after progress of a clock. -/
def noted (s : Show α) (clock : String) (value : α) : Show α :=
  { s with desk := { s.desk with graph :=
    { s.desk.graph with progress := s.desk.graph.progress.insert clock value } } }

/-- The show after an event of a node. Terminal events are kept. -/
def reported (s : Show α) (node event : String) : Show α :=
  if s.terminal event then { s with ended := s.ended ++ [(node, event)] } else s

/-! What single steps come to -/

theorem eval_enterPhase (phase : Phase) (s : Show α) :
    (enterPhase phase).eval s = (.ok (), if s.phase = phase then s else s.entered phase) := by
  simp only [enterPhase, Act.eval_bind, Act.eval_get]
  split
  · rfl
  · simp only [Act.eval_bind, Act.eval_info, Act.eval_modify]
    rfl

theorem eval_close (c : Channel α) :
    Channel.close.eval c = (.ok c.queue.length, { c with queue := [], closed := true }) := by
  simp only [Channel.close, Act.eval_bind, Act.eval_get, Act.eval_modify]
  split <;> rfl

theorem eval_finish (reason : String) (cancel : Bool) (s : Show α) :
    (finish reason cancel).eval s = (.ok (), s.finished reason cancel) := by
  simp only [finish, Act.eval_bind, Act.eval_modify, eval_enterPhase]
  -- A show that is draining already does not enter that phase again.
  cases cancel <;> by_cases draining : s.phase = .draining <;>
    simp [onAnimator, Desk.onAnimator, onDesk, onChannel, Animator.eval_cancelAll,
      eval_close, Act.eval_bind, eval_enterPhase, finished, entered, draining]

theorem eval_terminate (reason : String) (s : Show α) :
    (terminate reason).eval s = (.ok (), if s.isOver then s else s.finished reason true) := by
  simp only [terminate, Act.eval_bind, Act.eval_get]
  split
  · rfl
  · exact eval_finish reason true s

theorem eval_checkDrain (s : Show α) : checkDrain.eval s = (.ok (), s.drained) := by
  simp only [checkDrain, Act.eval_bind, Act.eval_get]
  show Act.eval (if s.exhausted = true then _ else _) s = _
  by_cases exhausted : s.exhausted = true
  · rw [drained, if_pos exhausted, if_pos exhausted]
    exact eval_finish _ _ s
  · rw [drained, if_neg exhausted, if_neg exhausted]
    rfl

theorem isOver_eq_false {s : Show α} : s.isOver = false ↔ s.phase = .idle ∨ s.phase = .running := by
  simp only [isOver]
  cases s.phase <;> decide

theorem running_iff_phase {s : Show α} : s.running = true ↔ s.phase = .running := by
  simp [running]

theorem isOver_of_running {s : Show α} (running : s.running = true) : s.isOver = false :=
  isOver_eq_false.2 (.inr (of_decide_eq_true running))

@[simp] theorem finished_running (s : Show α) (reason : String) (cancel : Bool) :
    (s.finished reason cancel).running = false := rfl

@[simp] theorem finished_isOver (s : Show α) (reason : String) (cancel : Bool) :
    (s.finished reason cancel).isOver = true := rfl

/-! Firing cues -/

/-- The parts of a show that no cue changes. -/
structure Stays (s t : Show α) : Prop where
  program : t.program = s.program
  config : t.config = s.config
  ended : t.ended = s.ended

instance : IsPreorder (Show α) Stays where
  refl _ := ⟨rfl, rfl, rfl⟩
  trans _ _ _ first second :=
    ⟨second.program.trans first.program, second.config.trans first.config,
      second.ended.trans first.ended⟩

@[simp] theorem fired_dispatched (s : Show α) (cue : Cue α) (result : GroupResult α)
    (desk : Desk α) : (s.fired cue result desk).dispatched = s.dispatched ++ [cue] := by
  simp only [fired]
  split <;> rfl

theorem stays_fired (s : Show α) (cue : Cue α) (result : GroupResult α) (desk : Desk α) :
    Stays s (s.fired cue result desk) := by
  simp only [fired]
  split <;> exact ⟨rfl, rfl, rfl⟩

theorem stays_drained (s : Show α) : Stays s s.drained := by
  simp only [drained]
  split <;> exact ⟨rfl, rfl, rfl⟩

@[simp] theorem drained_dispatched (s : Show α) : s.drained.dispatched = s.dispatched := by
  simp only [drained]
  split <;> rfl

theorem hasFired_iff {s : Show α} {cue : Cue α} :
    s.hasFired cue = true ↔ cue.order ∈ s.dispatched.map Cue.order := by
  simp only [hasFired, List.any_eq_true, List.mem_map, decide_eq_true_eq]

variable [Number α]

theorem eval_dispatch (cue : Cue α) (s : Show α) :
    (dispatch cue).eval s = match (Desk.execute cue.group).eval s.desk with
      | (.ok result, desk) => (.ok (), s.fired cue result desk)
      | (.error fault, desk) => (.error fault,
          { s with dispatched := s.dispatched ++ [cue], desk }) := by
  simp only [dispatch, onDesk, Act.eval_bind, Act.eval_modify, Act.eval_info, Act.eval_zoom]
  rcases (Desk.execute cue.group).eval s.desk with ⟨fault | result, desk⟩
  · rfl
  · simp only [fired]
    cases result.terminate with
    | false => rfl
    | true =>
      simp only [if_true, eval_terminate, Bool.true_and]
      split
      · next finished => simp [finished]
      · next finished => simp [finished]

theorem returns_dispatch (cue : Cue α) (s t : Show α) (u : Unit) :
    (dispatch cue).Returns s u t ↔ ∃ result desk,
      (Desk.execute cue.group).Returns s.desk result desk ∧ t = s.fired cue result desk := by
  simp only [Act.Returns, eval_dispatch]
  rcases (Desk.execute cue.group).eval s.desk with ⟨fault | result, desk⟩
  · simp
  · simp [and_assoc, eq_comm]

/-- Cues are fired one after the other, each while the show is running. -/
inductive Fires : Show α → List (Cue α) → Show α → Prop where
  | nothing (s : Show α) : Fires s [] s
  | next {s t : Show α} {cue : Cue α} {cues : List (Cue α)} {result : GroupResult α}
      {desk : Desk α} : s.running = true →
      (Desk.execute cue.group).Returns s.desk result desk →
      Fires (s.fired cue result desk) cues t → Fires s (cue :: cues) t

/-- Cues are released: all are fired, or those up to one that ends the show. -/
def Releases (s : Show α) (cues : List (Cue α)) (t : Show α) : Prop :=
  ∃ fired rest, cues = fired ++ rest ∧ Fires s fired t ∧ (t.running = true → rest = [])

theorem Fires.dispatched {s t : Show α} {cues : List (Cue α)} (fires : Fires s cues t) :
    t.dispatched = s.dispatched ++ cues := by
  induction fires with
  | nothing => simp
  | next _ _ _ ih => simp [ih]

theorem Fires.stays {s t : Show α} {cues : List (Cue α)} (fires : Fires s cues t) :
    Stays s t := by
  induction fires with
  | nothing s => exact refl_of Stays s
  | next _ _ _ ih => exact trans_of Stays (stays_fired ..) ih

theorem releases_of_returns {cues : List (Cue α)} {s t : Show α} {u : Unit}
    (returned : (dispatchAll cues).Returns s u t) : Releases s cues t := by
  induction cues generalizing s with
  | nil =>
    obtain ⟨_, rfl⟩ := (Act.returns_pure _ _ _ _).1 returned
    exact ⟨[], [], rfl, .nothing s, fun _ => rfl⟩
  | cons cue cues ih =>
    simp only [dispatchAll, Act.returns_bind, Act.returns_get] at returned
    obtain ⟨_, _, ⟨rfl, rfl⟩, returned⟩ := returned
    split at returned
    · next running =>
      obtain ⟨_, _, first, returned⟩ := (Act.returns_bind ..).1 returned
      obtain ⟨result, desk, executed, rfl⟩ := (returns_dispatch ..).1 first
      obtain ⟨fired, rest, rfl, fires, all⟩ := ih returned
      exact ⟨cue :: fired, rest, rfl, .next running executed fires, all⟩
    · next finished =>
      obtain ⟨_, rfl⟩ := (Act.returns_pure _ _ _ _).1 returned
      exact ⟨[], cue :: cues, rfl, .nothing s, fun running => absurd running finished⟩

/-- The cues that progress of a clock makes due: those on the timeline that have not fired, up to
the first threshold that the progress has not come to. -/
def due (s : Show α) (value : α) (line : List (α × Cue α)) : List (Cue α) :=
  ((line.filter fun entry => !s.hasFired entry.2).takeWhile fun entry =>
    !decide (value < entry.1)).map Prod.snd

theorem due_congr {s t : Show α} {value : α} {line : List (α × Cue α)}
    (same : ∀ entry ∈ line, t.hasFired entry.2 = s.hasFired entry.2) :
    t.due value line = s.due value line := by
  rw [due, due, List.filter_congr fun entry member => by rw [same entry member]]

/-- Going along a timeline is firing the cues that are due. -/
theorem eval_dispatchUpTo (value : α) {line : List (α × Cue α)} {s : Show α}
    (distinct : (line.map fun entry => entry.2.order).Nodup) (running : s.running = true) :
    (dispatchUpTo value line).eval s = (dispatchAll (s.due value line)).eval s := by
  -- What is due is fixed beforehand on the right, and looked up again at each entry on the left.
  induction line generalizing s with
  | nil => rfl
  | cons entry rest ih =>
    obtain ⟨threshold, cue⟩ := entry
    obtain ⟨fresh, distinct⟩ := List.nodup_cons.1 distinct
    simp only [dispatchUpTo, Act.eval_bind, Act.eval_get]
    by_cases known : s.hasFired cue = true
    · rw [if_pos known, ih distinct running]
      simp [due, known]
    · rw [if_neg known]
      by_cases short : value < threshold
      · rw [if_pos short]
        simp [due, known, short, dispatchAll]
      · have split : s.due value ((threshold, cue) :: rest) = cue :: s.due value rest := by
          simp [due, known, short]
        rw [if_neg short, split]
        simp only [dispatchAll, Act.eval_bind, Act.eval_get, running, if_true, eval_dispatch]
        rcases (Desk.execute cue.group).eval s.desk with ⟨fault | result, desk⟩
        · rfl
        · show Act.eval (if (s.fired cue result desk).running then dispatchUpTo value rest
            else pure ()) _ = (dispatchAll (s.due value rest)).eval _
          by_cases still : (s.fired cue result desk).running = true
          -- The cue that has just fired is not on the rest of the timeline.
          · have same : (s.fired cue result desk).due value rest = s.due value rest := by
              refine due_congr fun entry member => Bool.eq_iff_iff.2 ?_
              have other : entry.2.order ≠ cue.order := fun equal =>
                fresh (List.mem_map.2 ⟨entry, member, equal⟩)
              simp [hasFired_iff, other]
            rw [if_pos still, ih distinct still, same]
          · rw [if_neg still]
            cases s.due value rest with
            | nil => rfl
            | cons next later => simp [dispatchAll, Act.eval_bind, still]

/-! What operations do -/

/-- What a signal makes a show do. Every operation on a show that is finished is idle, and so is a
signal that nothing answers to. -/
inductive Does : Show α → Operation α → Show α → Prop where
  | begins {s t : Show α} : s.phase = .idle → Releases (s.entered .running) s.program.preCues t →
      Does s .begin t.drained
  | begun {s : Show α} : s.phase ≠ .idle → Does s .begin s
  | deaf {s : Show α} (signal : Signal α) : s.running = false → Does s (.handle signal) s
  | lost {s : Show α} {signal : Signal α} : s.running = true →
      s.graph.resolve signal.source = none → Does s (.handle signal) s
  | hears {s t : Show α} {source : Handle} {clock : String} {value : α} : s.running = true →
      s.graph.resolve source = some clock →
      Releases (s.noted clock value) (s.due value (s.program.timelineOn clock)) t →
      Does s (.handle (.progress source (some value))) t
  | answers {s t : Show α} {source : Handle} {node event : String} : s.running = true →
      s.graph.resolve source = some node →
      ¬(s.terminal event = true ∧ (node, event) ∈ s.ended) →
      Releases (s.reported node event) (s.program.callbackCuesOn node event) t →
      Does s (.handle (.callback source (some event))) t
  | repeated {s : Show α} {source : Handle} {node event : String} : s.running = true →
      s.graph.resolve source = some node → s.terminal event = true → (node, event) ∈ s.ended →
      Does s (.handle (.callback source (some event))) s
  | nameless {s : Show α} (source : Handle) : s.running = true →
      Does s (.handle (.callback source none)) s
  | stops {s : Show α} (reason : Option String) : s.running = true →
      Does s (.handle (.stop reason)) (s.finished (stopReason reason) true)
  | ticks {s : Show α} {retired : List String} {desk : Desk α} : s.running = true →
      Desk.stage.advance.Returns s.desk retired desk → Does s .tick { s with desk }.drained
  | rests {s : Show α} : s.running = false → Does s .tick s
  | ends {s : Show α} (reason : String) : s.isOver = false →
      Does s (.terminate reason) (s.finished reason true)
  | ended {s : Show α} (reason : String) : s.isOver = true → Does s (.terminate reason) s

theorem eval_recordProgress (clock : String) (value : α) (g : Graph α) :
    (Graph.recordProgress clock (some value)).eval g =
      (.ok (), { g with progress := g.progress.insert clock value }) := by
  simp only [Graph.recordProgress, Act.eval_bind, Act.eval_get, Act.eval_modify]
  split
  · split <;> rfl
  · rfl

theorem does_begin {s t : Show α} (returned : begin.Returns s () t) : Does s .begin t := by
  simp only [begin, Act.returns_bind, Act.returns_get] at returned
  obtain ⟨_, _, ⟨rfl, rfl⟩, returned⟩ := returned
  split at returned
  · next idle =>
    simp only [Act.returns_bind] at returned
    obtain ⟨_, u, opened, _, v, released, checked⟩ := returned
    rw [Act.Returns, eval_enterPhase, if_neg (by rw [idle]; decide)] at opened
    obtain rfl : s.entered .running = u := congrArg Prod.snd opened
    rw [Act.Returns, eval_checkDrain] at checked
    obtain rfl : v.drained = t := congrArg Prod.snd checked
    exact .begins idle (releases_of_returns released)
  · next begun =>
    obtain ⟨_, rfl⟩ := (Act.returns_pure _ _ _ _).1 returned
    exact .begun begun

theorem does_tick {s t : Show α} (returned : (Operation.tick : Operation α).act.Returns s () t) :
    Does s .tick t := by
  simp only [Operation.act, Act.returns_bind, Act.returns_pure] at returned
  obtain ⟨_, _, returned, _, rfl⟩ := returned
  simp only [tick, Act.returns_bind, Act.returns_get] at returned
  obtain ⟨_, _, ⟨rfl, rfl⟩, returned⟩ := returned
  split at returned
  · next running =>
    simp only [Act.returns_bind, onDesk, Act.returns_zoom] at returned
    obtain ⟨retired, _, ⟨desk, advanced, rfl⟩, _, u, checked, finished⟩ := returned
    rw [Act.Returns, eval_checkDrain] at checked
    obtain rfl : _ = u := congrArg Prod.snd checked
    obtain ⟨_, rfl⟩ := (Act.returns_pure _ _ _ _).1 finished
    exact .ticks running advanced
  · next resting =>
    obtain ⟨_, rfl⟩ := (Act.returns_pure _ _ _ _).1 returned
    exact .rests (Bool.eq_false_iff.2 resting)

theorem does_terminate {s t : Show α} {reason : String}
    (returned : (terminate reason).Returns s () t) : Does s (.terminate reason) t := by
  rw [Act.Returns, eval_terminate] at returned
  obtain rfl : _ = t := congrArg Prod.snd returned
  split
  · next finished => exact .ended reason finished
  · next open_ => exact .ends reason (Bool.eq_false_iff.2 open_)

theorem releases_of_handleProgress {clock : String} {value : Option α} {s t : Show α}
    (distinct : ((s.program.timelineOn clock).map fun entry => entry.2.order).Nodup)
    (running : s.running = true) (returned : (handleProgress clock value).Returns s () t) :
    ∃ v, value = some v ∧
      Releases (s.noted clock v) (s.due v (s.program.timelineOn clock)) t := by
  simp only [handleProgress, Act.returns_bind] at returned
  obtain ⟨_, u, recorded, returned⟩ := returned
  cases value with
  | none => exact absurd returned (Act.returns_throw _ _ _ _)
  | some value =>
    simp only [onGraph, Desk.onGraph, onDesk, Act.Returns, Act.eval_zoom,
      eval_recordProgress] at recorded
    obtain rfl : s.noted clock value = u := congrArg Prod.snd recorded
    simp only [Act.returns_bind, Act.returns_debug, Act.returns_get] at returned
    obtain ⟨_, _, rfl, _, _, ⟨rfl, rfl⟩, returned⟩ := returned
    have along := eval_dispatchUpTo value (s := s.noted clock value) distinct running
    have released := along.symm.trans returned
    exact ⟨value, rfl, releases_of_returns released⟩

theorem does_handleCallback {source : Handle} {node : String} {event : Option String}
    {s t : Show α} (running : s.running = true) (found : s.graph.resolve source = some node)
    (returned : (handleCallback node event).Returns s () t) :
    Does s (.handle (.callback source event)) t := by
  simp only [handleCallback] at returned
  cases event with
  | none =>
    obtain rfl := (Act.returns_info _ _ _ _).1 returned
    exact .nameless source running
  | some event =>
    simp only [Act.returns_bind, Act.returns_get] at returned
    obtain ⟨_, _, ⟨rfl, rfl⟩, returned⟩ := returned
    split at returned
    · next known =>
      obtain rfl := (Act.returns_debug _ _ _ _).1 returned
      obtain ⟨terminal, member⟩ := Bool.and_eq_true_iff.1 known
      exact .repeated running found terminal (List.contains_iff_mem.1 member)
    · next unknown =>
      have heard : ¬(s.terminal event = true ∧ (node, event) ∈ s.ended) := by
        simpa using unknown
      have released : (dispatchAll (s.program.callbackCuesOn node event)).Returns
          (s.reported node event) () t := by
        rw [reported]
        split at returned <;> next terminal =>
          simpa [terminal, Act.returns_bind] using returned
      exact .answers running found heard (releases_of_returns released)

theorem does_handle {s t : Show α} {signal : Signal α} (numbered : s.program.Numbered)
    (returned : (handle signal).Returns s () t) : Does s (.handle signal) t := by
  simp only [handle, Act.returns_bind, Act.returns_get] at returned
  obtain ⟨_, _, ⟨rfl, rfl⟩, returned⟩ := returned
  split at returned
  · next running =>
    cases signal with
    | stop reason =>
      rw [Act.Returns, eval_terminate, if_neg (by simp [isOver_of_running running])] at returned
      obtain rfl : s.finished (stopReason reason) true = t := congrArg Prod.snd returned
      exact .stops reason running
    | progress source value =>
      cases found : s.graph.resolve source with
      | none =>
        simp only [found] at returned
        obtain rfl := (Act.returns_warn _ _ _ _).1 returned
        exact .lost running found
      | some clock =>
        simp only [found] at returned
        obtain ⟨v, rfl, released⟩ :=
          releases_of_handleProgress (numbered.timelineOn clock) running returned
        exact .hears running found released
    | callback source event =>
      cases found : s.graph.resolve source with
      | none =>
        simp only [found] at returned
        obtain rfl := (Act.returns_warn _ _ _ _).1 returned
        exact .lost running found
      | some node =>
        simp only [found] at returned
        exact does_handleCallback running found returned
  · next resting =>
    obtain rfl := (Act.returns_debug _ _ _ _).1 returned
    exact .deaf signal (Bool.eq_false_iff.2 resting)

/-- An operation that comes to its end has done one of these things. -/
theorem does_of_returns {s t : Show α} {operation : Operation α}
    (numbered : s.program.Numbered) (returned : operation.act.Returns s () t) :
    Does s operation t := by
  cases operation with
  | begin => exact does_begin returned
  | handle signal => exact does_handle numbered returned
  | tick => exact does_tick returned
  | terminate reason => exact does_terminate returned

end Show
end ShowControl
