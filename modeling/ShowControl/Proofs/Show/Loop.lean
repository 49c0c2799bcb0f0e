import ShowControl.Proofs.Show.Changes
import ShowControl.Show.Loop

/-! The decision loop among all else that happens to a show.

The loop goes on step by step: it begins the show, takes up a signal, handles it, ticks when a tick is
due, and looks whether the show is still running. Between any two of its steps the show may be
operated on from outside, and nodes may report. What a loop does without waiting is one course of such
turns. -/

set_option autoImplicit false
namespace ShowControl

/-! What happens from outside -/

inductive Emission (α : Type) where
  | progress (source : Handle) (value : α)
  | callback (source : Handle) (event : Option String)

def Emission.act {α : Type} [Number α] : Emission α → Act (Channel α) Unit
  | progress source value => do
    let _ ← Channel.putProgress source value
  | callback source event => do
    let _ ← Channel.putCallback source event

inductive Intervention (α : Type) where
  | operate (operation : Operation α)
  | emit (emission : Emission α)
  /-- A request to stop. It goes through the channel if the loop has a thread of its own. -/
  | stop (threaded : Bool) (reason : String)

def Intervention.act {α : Type} [Number α] : Intervention α → Act (Show α) Unit
  | operate operation => operation.act
  | emit emission => Show.onChannel emission.act
  | stop true reason => do
    let _ ← Show.onChannel (Channel.putStop (some reason))
  | stop false reason => Show.terminate reason

/-! The steps of the loop -/

/-- Where the decision loop has got to. -/
inductive LoopPoint (α : Type) where
  | away
  | looking
  | waiting
  | holding (signal : Signal α)
  | ticking
  | failing (fault : Fault)

structure Performance (α : Type) where
  playing : Show α
  point : LoopPoint α

/-- The loop goes on to this point, unless a fault has come up. -/
def LoopPoint.unless {α β : Type} (next : LoopPoint α) : Except Fault β × Show α → Performance α
  | (.ok _, s) => ⟨s, next⟩
  | (.error fault, s) => ⟨s, .failing fault⟩

inductive Turn (α : Type) where
  | loop (due : Bool)
  | outside (intervention : Intervention α)

variable {α : Type} [Number α]

namespace Performance

def step (x : Performance α) (due : Bool) : Performance α :=
  match x.point with
  | .away => LoopPoint.looking.unless (Show.begin.eval x.playing)
  | .looking => { x with point := if x.playing.running then .waiting else .away }
  | .waiting =>
    match (Show.onChannel Channel.take).eval x.playing with
    | (.ok (some signal), s) => ⟨s, .holding signal⟩
    | (_, s) => ⟨s, .ticking⟩
  | .holding signal => LoopPoint.ticking.unless ((Show.handle signal).eval x.playing)
  | .ticking =>
    if due then LoopPoint.looking.unless (Show.tick.eval x.playing)
    else { x with point := .looking }
  | .failing fault => ⟨((Show.fail fault).eval x.playing).2, .away⟩

/-- A fault of an intervention is for the one who intervenes. What it has changed stays. -/
def turn (x : Performance α) : Turn α → Performance α
  | .loop due => x.step due
  | .outside intervention => { x with playing := (intervention.act.eval x.playing).2 }

def after (x : Performance α) (turns : List (Turn α)) : Performance α := turns.foldl turn x

def Reaches (x y : Performance α) : Prop := ∃ turns, x.after turns = y

instance : IsPreorder (Performance α) Reaches where
  refl _ := ⟨[], rfl⟩
  trans _ _ _ := fun ⟨first, same⟩ ⟨second, same'⟩ =>
    ⟨first ++ second, by rw [← same', ← same, after, List.foldl_append]; rfl⟩

theorem reaches_turn (x : Performance α) (turn : Turn α) : Reaches x (x.turn turn) :=
  ⟨[turn], rfl⟩

end Performance

/-! What the loop of a show comes to is one course of turns -/

namespace Show

def leaving {α : Type} (s : Show α) (queue : List (Signal α)) : Show α :=
  { s with channel := { s.channel with queue } }

section
omit [Number α]
variable {s : Show α}

theorem eval_take_nil (none : s.channel.queue = []) :
    (onChannel Channel.take).eval s = (.ok .none, s) := by
  simp only [onChannel, Act.eval_zoom, Channel.take, Act.eval_bind, Act.eval_get, none,
    Act.eval_pure]

theorem eval_take_cons {signal : Signal α} {rest : List (Signal α)}
    (some : s.channel.queue = signal :: rest) :
    (onChannel Channel.take).eval s = (.ok (.some signal), s.leaving rest) := by
  simp only [onChannel, Act.eval_zoom, Channel.take, Act.eval_bind, Act.eval_get, some,
    Act.eval_modify, Act.eval_pure, leaving]

def failed (s : Show α) (fault : Fault) : Show α :=
  let s : Show α := { s with failure := some fault }
  if s.phase = .terminated then s else s.finished s!"error: {fault.message}" true

theorem eval_fail (fault : Fault) (s : Show α) : (fail fault).eval s = (.ok (), s.failed fault) := by
  simp only [fail, failed, Act.eval_bind, Act.eval_log, Act.eval_modify, Act.eval_get, ite_not]
  split
  · rfl
  · exact eval_finish _ _ _

theorem failed_failure (s : Show α) (fault : Fault) : (s.failed fault).failure = some fault := by
  simp only [failed]
  split <;> rfl

def guardedBy : Except Fault Unit × Show α → Show α
  | (.ok (), s) => s
  | (.error fault, s) => s.failed fault

theorem eval_guarded (x : Act (Show α) Unit) (s : Show α) :
    (guarded x).eval s = (.ok (), guardedBy (x.eval s)) := by
  simp only [guarded, Act.eval_bind, Act.eval_attempt]
  rcases x.eval s with ⟨_ | _, t⟩
  · exact eval_fail _ t
  · rfl

theorem eval_settle (s : Show α) : settle.eval s =
    (match s.failure with
    | some fault => .error fault
    | none => .ok (decide (s.phase = .terminated)), s) := by
  simp only [settle, Act.eval_bind, Act.eval_get]
  cases s.failure <;> rfl

end

variable {s : Show α}

theorem eval_handleWaiting_resting (n : Nat) (resting : s.running = false) :
    (handleWaiting n).eval s = (.ok (), s) := by
  cases n with
  | zero => rfl
  | succ n =>
    simp only [handleWaiting, Act.eval_bind, Act.eval_get, resting, Bool.false_eq_true, if_false,
      Act.eval_pure]

theorem eval_handleWaiting_nil (n : Nat) (none : s.channel.queue = []) :
    (handleWaiting n).eval s = (.ok (), s) := by
  cases n with
  | zero => rfl
  | succ n =>
    simp only [handleWaiting, Act.eval_bind, Act.eval_get]
    split
    · simp only [Act.eval_bind, eval_take_nil none, Act.eval_pure]
    · rfl

theorem eval_handleWaiting_cons (n : Nat) (running : s.running = true) {signal : Signal α}
    {rest : List (Signal α)} (some : s.channel.queue = signal :: rest) :
    (handleWaiting (n + 1)).eval s =
      (handle signal >>= fun _ => handleWaiting n).eval (s.leaving rest) := by
  simp only [handleWaiting, Act.eval_bind, Act.eval_get, running, if_true, eval_take_cons some]

theorem queue_of_handleWaiting {n : Nat} {t : Show α} (waiting : s.channel.queue.length ≤ n)
    (returned : (handleWaiting n).Returns s () t) (running : t.running = true) :
    t.channel.queue = [] := by
  induction n generalizing s with
  | zero =>
    obtain ⟨_, rfl⟩ := (Act.returns_pure ..).1 returned
    exact List.eq_nil_of_length_eq_zero (Nat.le_zero.1 waiting)
  | succ n ih =>
    cases before : s.running with
    | false =>
      rw [Act.Returns, eval_handleWaiting_resting _ before] at returned
      obtain rfl : s = t := congrArg Prod.snd returned
      simp [before] at running
    | true =>
      cases queue : s.channel.queue with
      | nil =>
        rw [Act.Returns, eval_handleWaiting_nil _ queue] at returned
        obtain rfl : s = t := congrArg Prod.snd returned
        exact queue
      | cons signal rest =>
        rw [Act.Returns, eval_handleWaiting_cons n before queue] at returned
        obtain ⟨_, u, handled, returned⟩ := (Act.returns_bind ..).1 returned
        refine ih ?_ returned
        -- Handling a signal leaves the others as they are, or ends the show.
        have attends : Attends (s.leaving rest) u := (attends_act (.handle signal)).of_returns handled
        cases still : u.running with
        | false =>
          rw [Act.Returns, eval_handleWaiting_resting _ still] at returned
          obtain rfl : u = t := congrArg Prod.snd returned
          simp [still] at running
        | true =>
          rw [(attends.signals (isOver_of_running still)).2]
          rw [queue, List.length_cons] at waiting
          exact Nat.le_of_succ_le_succ waiting

end Show

namespace Performance

open Show

variable {s : Show α}

theorem reaches_ticking (running : s.running = true) (none : s.channel.queue = []) :
    Reaches ⟨s, .looking⟩ ⟨s, .ticking⟩ := by
  refine ⟨[.loop false, .loop false], ?_⟩
  simp only [after, List.foldl_cons, List.foldl_nil, turn, step, running, if_true,
    eval_take_nil none]

theorem reaches_holding (running : s.running = true) {signal : Signal α}
    {rest : List (Signal α)} (some : s.channel.queue = signal :: rest) :
    Reaches ⟨s, .looking⟩ ⟨s.leaving rest, .holding signal⟩ := by
  refine ⟨[.loop false, .loop false], ?_⟩
  simp only [after, List.foldl_cons, List.foldl_nil, turn, step, running, if_true,
    eval_take_cons some]

theorem reaches_looking (outcome : Except Fault Unit × Show α) :
    Reaches (LoopPoint.ticking.unless outcome) (LoopPoint.looking.unless outcome) := by
  obtain ⟨_ | _, t⟩ := outcome
  · exact refl_of Reaches _
  · exact reaches_turn _ (.loop false)

theorem reaches_handleWaiting (n : Nat) (s : Show α) :
    Reaches ⟨s, .looking⟩ (LoopPoint.looking.unless ((handleWaiting n).eval s)) := by
  induction n generalizing s with
  | zero => exact refl_of Reaches _
  | succ n ih =>
    cases running : s.running with
    | false =>
      rw [eval_handleWaiting_resting _ running]
      exact refl_of Reaches _
    | true =>
      cases queue : s.channel.queue with
      | nil =>
        rw [eval_handleWaiting_nil _ queue]
        exact refl_of Reaches _
      | cons signal rest =>
        rw [eval_handleWaiting_cons n running queue, Act.eval_bind]
        refine trans_of Reaches (reaches_holding running queue) ?_
        refine trans_of Reaches (reaches_turn _ (.loop false)) ?_
        refine trans_of Reaches (reaches_looking ((handle signal).eval (s.leaving rest))) ?_
        rcases (handle signal).eval (s.leaving rest) with ⟨_ | _, t⟩
        · exact refl_of Reaches _
        · exact ih t

theorem reaches_takeUp (s : Show α) :
    Reaches ⟨s, .away⟩ (LoopPoint.looking.unless (takeUp.eval s)) := by
  refine trans_of Reaches (reaches_turn _ (.loop false)) ?_
  simp only [takeUp, Act.eval_bind, Act.eval_get, turn, step]
  rcases begin.eval s with ⟨_ | _, t⟩
  · exact refl_of Reaches _
  · exact reaches_handleWaiting _ t

theorem queue_of_takeUp {t : Show α} (returned : takeUp.Returns s () t)
    (running : t.running = true) : t.channel.queue = [] := by
  simp only [takeUp, Act.returns_bind, Act.returns_get] at returned
  obtain ⟨_, _, _, _, _, ⟨rfl, rfl⟩, returned⟩ := returned
  exact queue_of_handleWaiting (Nat.le_refl _) returned running

theorem reaches_tick (none : s.running = true → s.channel.queue = []) :
    Reaches ⟨s, .looking⟩ (LoopPoint.looking.unless (tick.eval s)) := by
  cases running : s.running with
  | false =>
    have resting : tick.eval s = (.ok [], s) := by
      simp only [tick, Act.eval_bind, Act.eval_get, running, Bool.false_eq_true, if_false,
        Act.eval_pure]
    rw [resting]
    exact refl_of Reaches _
  | true =>
    exact trans_of Reaches (reaches_ticking running (none running)) (reaches_turn _ (.loop true))

theorem reaches_failed (s : Show α) (fault : Fault) :
    Reaches ⟨s, .failing fault⟩ ⟨s.failed fault, .away⟩ := by
  refine ⟨[.loop false], ?_⟩
  simp only [after, List.foldl_cons, List.foldl_nil, turn, step, eval_fail]

/-- A part of the loop that a fault cuts short ends the loop, and the fault is kept. -/
theorem reaches_guardedBy {y : Performance α} {outcome : Except Fault Unit × Show α}
    (reaches : Reaches y (LoopPoint.looking.unless outcome)) :
    Reaches y ⟨guardedBy outcome, .looking⟩ ∨
      Reaches y ⟨guardedBy outcome, .away⟩ ∧ (guardedBy outcome).failure ≠ none := by
  obtain ⟨fault | _, t⟩ := outcome
  · refine .inr ⟨trans_of Reaches reaches (reaches_failed t fault), ?_⟩
    simp only [guardedBy, failed_failure, ne_eq, reduceCtorEq, not_false_eq_true]
  · exact .inl reaches

theorem reaches_breakOff (seconds : α) (s : Show α) :
    ∃ point, Reaches ⟨s, .looking⟩ ⟨((breakOff seconds).eval s).2, point⟩ := by
  have stopped : Reaches ⟨s, .looking⟩
      ⟨((onChannel (Channel.putStop (some "timeout"))).eval s).2, .looking⟩ := by
    refine ⟨[.outside (.stop true "timeout")], ?_⟩
    simp only [after, List.foldl_cons, List.foldl_nil, turn, Intervention.act]
    rw [Act.state_bind _ fun _ _ => rfl]
  simp only [breakOff, Act.eval_bind, Act.eval_warn, Act.eval_get, eval_guarded, eval_settle]
  generalize (onChannel (Channel.putStop (some "timeout"))).eval s = outcome at stopped
  obtain ⟨_ | _, t⟩ := outcome
  · exact ⟨_, stopped⟩
  · have handled := trans_of Reaches stopped (reaches_handleWaiting t.channel.queue.length t)
    have guards := reaches_guardedBy handled
    simp only
    cases (guardedBy ((handleWaiting t.channel.queue.length).eval t)).failure <;>
      exact guards.elim (fun ends => ⟨_, ends⟩) fun ends => ⟨_, ends.1⟩

theorem reaches_bind {x : Act (Show α) Unit} {f : Unit → Act (Show α) Unit} {y : Performance α}
    (first : Reaches y (LoopPoint.looking.unless (x.eval s)))
    (second : ∀ t, x.Returns s () t →
      Reaches ⟨t, .looking⟩ (LoopPoint.looking.unless ((f ()).eval t))) :
    Reaches y (LoopPoint.looking.unless ((x >>= f).eval s)) := by
  rw [Act.eval_bind]
  simp only [Act.Returns] at second
  generalize x.eval s = outcome at first second
  obtain ⟨_ | _, t⟩ := outcome
  · exact first
  · exact trans_of Reaches first (second t rfl)

theorem reaches_round (seconds : α) (s : Show α) :
    Reaches ⟨s, .away⟩ (LoopPoint.looking.unless ((do
      takeUp
      if (← get).config.tickSeconds < seconds then
        let _ ← tick : Act (Show α) Unit).eval s)) := by
  refine reaches_bind (reaches_takeUp s) fun t took => ?_
  rw [Act.eval_bind, Act.eval_get]
  simp only
  split
  · rw [Act.eval_bind]
    have ticked := reaches_tick (queue_of_takeUp took)
    generalize tick.eval t = outcome at ticked
    obtain ⟨_ | _, u⟩ := outcome <;> exact ticked
  · exact refl_of Reaches _

/-- Letting the loop run for some time is a course of turns. -/
theorem reaches_loop (seconds : α) {t : Show α} {report : Report}
    (built : build.Returns s report t) :
    ∃ point, Reaches ⟨t, .away⟩ ⟨((loop seconds).eval s).2, point⟩ := by
  rw [Act.Returns] at built
  have guards := reaches_guardedBy (reaches_round seconds t)
  simp only [loop, Act.eval_bind _ _ s, built]
  rw [Act.eval_bind, eval_guarded]
  generalize guardedBy _ = u at guards ⊢
  simp only [Act.eval_bind, eval_settle]
  cases kept : u.failure with
  | some fault => exact guards.elim (fun ends => ⟨_, ends⟩) fun ends => ⟨_, ends.1⟩
  | none =>
    have looks := guards.resolve_right fun ends => ends.2 kept
    by_cases finished : u.phase = .terminated
    · simp only [finished, decide_true, if_true]
      exact ⟨_, looks⟩
    · simp only [finished, decide_false, Bool.false_eq_true, if_false]
      obtain ⟨point, breaks⟩ := reaches_breakOff seconds u
      exact ⟨point, trans_of Reaches looks breaks⟩

theorem reaches_loopUntilStopped (reason : String) {t : Show α} {report : Report}
    (built : build.Returns s report t) :
    ∃ point, Reaches ⟨t, .away⟩ ⟨((loopUntilStopped reason).eval s).2, point⟩ := by
  rw [Act.Returns] at built
  have stops (u : Show α) : Reaches ⟨u, .looking⟩
      (LoopPoint.looking.unless ((terminate (stopReason (some reason))).eval u)) := by
    refine ⟨[.outside (.stop false (stopReason (some reason)))], ?_⟩
    simp only [after, List.foldl_cons, List.foldl_nil, turn, Intervention.act, eval_terminate,
      LoopPoint.unless]
  have guards := reaches_guardedBy
    (reaches_bind (f := fun _ => terminate (stopReason (some reason))) (reaches_takeUp t)
      fun u _ => stops u)
  simp only [loopUntilStopped, Act.eval_bind _ _ s, built]
  rw [Act.eval_bind, eval_guarded]
  simp only [eval_settle]
  exact guards.elim (fun ends => ⟨_, ends⟩) fun ends => ⟨_, ends.1⟩

end Performance
end ShowControl
