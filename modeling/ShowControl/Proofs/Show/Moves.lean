import ShowControl.Proofs.Animation.Course
import ShowControl.Proofs.Graph.Command
import ShowControl.Show.Desk

/-! Moves on the desk.

The actions of a group only start moves, and an advance only retires those that have ended. -/

set_option autoImplicit false
namespace ShowControl

variable {α : Type} [Number α]

/-- Moves have been started, if anything has changed. -/
def Animator.Launches (a b : Animator α) : Prop :=
  ∃ changes, Animator.Course (fun _ => False) a changes b

instance : IsPreorder (Animator α) Animator.Launches where
  refl a := ⟨[], .rest a⟩
  trans _ _ _ := fun ⟨_, first⟩ ⟨_, second⟩ => ⟨_, first.append second⟩

theorem Animator.launches_startOf (node : String) (start : α × α) (now : Option α) :
    (Animator.startOf node start now).Keeps Animator.Launches := by
  refine Act.keeps_bind Act.keeps_get fun a => ?_
  cases a.motion? node with
  | none => exact Act.keeps_pure start
  | some prior => exact Act.keeps_bind (Act.keeps_log _ _) fun _ => Act.keeps_pure _

theorem Animator.launches_move (motion : Motion α) (now : Option α) :
    (Animator.move motion now).Keeps Animator.Launches :=
  Act.keeps_bind (Animator.launches_startOf _ _ _) fun _ =>
    Act.keeps_bind (Act.keeps_modify fun a => ⟨_, (Animator.Course.rest a).start _⟩) fun _ =>
      Act.keeps_pure _

namespace ActionGroup

/-- The actions of a group that are superseded. -/
def dropped {α : Type} (group : ActionGroup α) : List (Action α) :=
  match group.mode with
  | .sequential => []
  | .parallel => superseded group.actions

/-- The actions of a group that are not. -/
def taken {α : Type} (group : ActionGroup α) : List (Action α) :=
  match group.mode with
  | .sequential => group.actions
  | .parallel => effective group.actions

end ActionGroup

namespace Desk

/-- What a group of actions does to the desk: it starts moves and commands nodes. -/
structure Performs (d e : Desk α) : Prop where
  graph : Graph.SameWiring d.graph e.graph
  animator : Animator.Launches d.animator e.animator

instance : IsPreorder (Desk α) Performs where
  refl d := ⟨refl_of Graph.SameWiring d.graph, refl_of Animator.Launches d.animator⟩
  trans _ _ _ first second :=
    ⟨trans_of Graph.SameWiring first.graph second.graph,
      trans_of Animator.Launches first.animator second.animator⟩

omit [Number α] in
theorem performs_onGraph {β : Type} {x : Act (Graph α) β} (kept : x.Keeps Graph.SameWiring) :
    (onGraph x).Keeps Performs :=
  Act.keeps_zoom kept fun d _ graph => ⟨graph, refl_of Animator.Launches d.animator⟩

omit [Number α] in
theorem performs_onAnimator {β : Type} {x : Act (Animator α) β} (kept : x.Keeps Animator.Launches) :
    (onAnimator x).Keeps Performs :=
  Act.keeps_zoom kept fun d _ animator => ⟨refl_of Graph.SameWiring d.graph, animator⟩

theorem performs_startMove (target : String) (move : Move α) :
    (startMove target move).Keeps Performs :=
  Act.keeps_bind Act.keeps_get fun _ => Act.keeps_bind (Act.keeps_ofExcept _) fun _ =>
    Act.keeps_bind (performs_onAnimator (Animator.launches_move _ _)) fun _ => Act.keeps_log _ _

theorem performs_apply (action : Action α) : (apply action).Keeps Performs := by
  cases action with
  | terminate line => exact Act.keeps_pure ()
  | command target command line =>
    cases command with
    | play op =>
      exact Act.keeps_bind (performs_onGraph (Graph.keeps_setTransport _ _ _)) fun _ =>
        Act.keeps_pure ()
    | seek start stop =>
      exact Act.keeps_bind (performs_onGraph (Graph.keeps_setTransport _ _ _)) fun _ =>
        Act.keeps_pure ()
    | property element name type value =>
      exact Act.keeps_bind (performs_onGraph (Graph.keeps_setProperty _ _ _ _ _)) fun _ =>
        Act.keeps_pure ()
    | showWindow => exact performs_onGraph (Graph.keeps_showWindow target)
    | moveWindow move => exact performs_startMove target move

theorem performs_applyOrSkip (action : Action α) : (applyOrSkip action).Keeps Performs := by
  refine Act.keeps_bind (Act.keeps_attempt (performs_apply action)) fun result => ?_
  cases result with
  | ok => exact Act.keeps_pure _
  | error fault =>
    show Act.Keeps _ (if fault.recoverable = true then _ else _)
    split
    · exact Act.keeps_bind (Act.keeps_log _ _) fun _ => Act.keeps_pure _
    · exact Act.keeps_throw fault

theorem performs_applyAll (actions : List (Action α)) : (applyAll actions).Keeps Performs := by
  induction actions with
  | nil => exact Act.keeps_pure []
  | cons action rest ih =>
    exact Act.keeps_bind (performs_applyOrSkip action) fun _ => Act.keeps_bind ih fun _ =>
      Act.keeps_pure _

/-! Groups -/

omit [Number α] in
theorem eval_supersedeAll (actions : List (Action α)) (d : Desk α) :
    (supersedeAll actions).eval d = (.ok (actions.map fun action => (action, .superseded)), d) := by
  induction actions with
  | nil => rfl
  | cons action rest ih =>
    simp only [supersedeAll, Act.eval_bind, Act.eval_debug, ih, Act.eval_pure, List.map_cons]

/-- A group of either mode notes the actions that it drops and applies the others. -/
theorem execute_eq (group : ActionGroup α) : execute group = do
    let superseded ← supersedeAll group.dropped
    let outcomes ← applyAll group.taken
    return .ofOutcomes (superseded ++ outcomes) := by
  rw [execute, ActionGroup.dropped, ActionGroup.taken]
  cases group.mode with
  | sequential =>
    simp only [supersedeAll, pure_bind, List.nil_append]
  | parallel => rfl

theorem returns_execute {group : ActionGroup α} {d e : Desk α} {result : GroupResult α} :
    (execute group).Returns d result e ↔ ∃ outcomes, (applyAll group.taken).Returns d outcomes e ∧
      result = .ofOutcomes (group.dropped.map (fun action => (action, .superseded)) ++ outcomes) := by
  simp only [execute_eq, Act.returns_bind, Act.returns_pure]
  constructor
  · rintro ⟨superseded, _, noted, outcomes, _, applied, rfl, rfl⟩
    cases (eval_supersedeAll ..).symm.trans noted
    exact ⟨outcomes, applied, rfl⟩
  · rintro ⟨outcomes, applied, rfl⟩
    exact ⟨_, d, eval_supersedeAll .., outcomes, e, applied, rfl, rfl⟩

theorem performs_execute (group : ActionGroup α) : (execute group).Keeps Performs := by
  rw [execute_eq]
  refine Act.keeps_bind (fun d => ?_) fun _ =>
    Act.keeps_bind (performs_applyAll _) fun _ => Act.keeps_pure _
  rw [eval_supersedeAll]
  exact refl_of Performs d

/-! An advance -/

/-- Whether the clock of a move has come to its end. -/
def Ended (d : Desk α) (motion : Motion α) : Prop :=
  ∃ time, motion.clock.bind d.graph.progress.get? = some time ∧ motion.isOver time = true

/-- What an advance that began on one desk has made of it: the moves left are some of those that were
there. -/
structure Advances (d e : Desk α) : Prop where
  graph : Graph.SameWiring d.graph e.graph
  entries {node : String} {entry : Nat × Motion α} :
    e.animator.entries.get? node = some entry → d.animator.entries.get? node = some entry
  course : ∃ changes, Animator.Course d.Ended d.animator changes e.animator

theorem advances_refl (d : Desk α) : Advances d d :=
  ⟨refl_of Graph.SameWiring d.graph, id, [], .rest _⟩

theorem Advances.place {d e e' : Desk α} (advances : Advances d e) {node : String} {x y : Int}
    {u : Unit} (placed : (stage.place node x y).Returns e u e') : Advances d e' := by
  obtain ⟨graph, moved, rfl⟩ := (Act.returns_zoom ..).1 placed
  have kept := (Graph.keeps_moveWindow node x y).of_returns moved
  exact ⟨trans_of Graph.SameWiring advances.graph kept, advances.entries, advances.course⟩

theorem Advances.retire {d e : Desk α} (advances : Advances d e) {number : Nat} {motion : Motion α}
    (present : d.animator.entries.get? motion.node = some (number, motion))
    (ended : d.Ended motion) {e' : Desk α} {retired : Bool}
    (returned : (stage.retire number motion.node).Returns e retired e') : Advances d e' := by
  simp only [Stage.retire, Act.returns_bind, Act.returns_get] at returned
  obtain ⟨_, _, ⟨rfl, rfl⟩, returned⟩ := returned
  split at returned
  · next holds =>
    simp only [Act.returns_bind, Act.returns_modify, Act.returns_pure] at returned
    obtain ⟨_, _, rfl, _, rfl⟩ := returned
    -- The entry that is taken out is the one that was there when the advance began.
    have found : e.animator.entries.get? motion.node = some (number, motion) := by
      simp only [stage, Animator.holds] at holds
      split at holds
      · next other current found =>
        obtain rfl := of_decide_eq_true holds
        rw [found, ← advances.entries found, present]
      · cases holds
    obtain ⟨changes, course⟩ := advances.course
    refine ⟨advances.graph, fun inFlight => ?_, _, course.retire found ended⟩
    rw [stage, Animator.get?_remove] at inFlight
    split at inFlight
    · cases inFlight
    · exact advances.entries inFlight
  · obtain ⟨_, rfl⟩ := (Act.returns_pure ..).1 returned
    exact advances

theorem Advances.advanceMotion {d e : Desk α} (advances : Advances d e) {number : Nat}
    {motion : Motion α}
    (present : d.animator.entries.get? motion.node = some (number, motion)) {e' : Desk α}
    {retired : Option String}
    (returned : (stage.advanceMotion number motion).Returns e retired e') : Advances d e' := by
  simp only [Stage.advanceMotion, Act.returns_bind, Act.returns_get] at returned
  obtain ⟨_, _, ⟨rfl, rfl⟩, returned⟩ := returned
  split at returned
  · obtain ⟨_, rfl⟩ := (Act.returns_pure ..).1 returned
    exact advances
  · next time now =>
    split at returned
    · obtain ⟨_, rfl⟩ := (Act.returns_pure ..).1 returned
      exact advances
    · simp only [Act.returns_bind, Act.returns_ofExcept] at returned
      obtain ⟨left, _, ⟨_, rfl⟩, top, _, ⟨_, rfl⟩, _, e₁, placed, returned⟩ := returned
      have advances₁ := advances.place placed
      split at returned
      · next finished =>
        simp only [Act.returns_bind, Act.returns_debug, Act.returns_pure] at returned
        obtain ⟨taken, e₂, gone, _, _, rfl, _, rfl⟩ := returned
        refine advances₁.retire present ⟨time, ?_, finished⟩ gone
        rw [← advances.graph.progress]
        exact now
      · obtain ⟨_, rfl⟩ := (Act.returns_pure ..).1 returned
        exact advances₁

theorem Advances.advanceMotions {d e e' : Desk α} (advances : Advances d e)
    {entries : List (Nat × Motion α)}
    (present : ∀ entry ∈ entries, d.animator.entries.get? entry.2.node = some entry)
    {retired : List String}
    (returned : (stage.advanceMotions entries).Returns e retired e') : Advances d e' := by
  induction entries generalizing e retired with
  | nil =>
    obtain ⟨_, rfl⟩ := (Act.returns_pure ..).1 returned
    exact advances
  | cons entry rest ih =>
    simp only [Stage.advanceMotions, Act.returns_bind, Act.returns_pure] at returned
    obtain ⟨_, e₁, first, _, _, others, _, rfl⟩ := returned
    exact ih (advances.advanceMotion (present entry List.mem_cons_self) first)
      (fun other member => present other (List.mem_cons_of_mem _ member)) others

theorem advances_of_advance {d e : Desk α} (sound : d.animator.Sound) {retired : List String}
    (returned : stage.advance.Returns d retired e) : Advances d e := by
  simp only [Stage.advance, Act.returns_bind, Act.returns_get] at returned
  obtain ⟨_, _, ⟨rfl, rfl⟩, returned⟩ := returned
  refine (advances_refl d).advanceMotions (fun entry member => ?_) returned
  obtain ⟨node, found⟩ := Table.mem_values_iff.1 member
  rw [sound.keyed found]
  exact found

/-! What a fault in between leaves -/

/-- Whatever happens on the desk, no node, plug or clock is another one. -/
def Wired (d e : Desk α) : Prop := Graph.SameWiring d.graph e.graph

omit [Number α] in
instance : IsPreorder (Desk α) Wired where
  refl d := refl_of Graph.SameWiring d.graph
  trans _ _ _ first second := trans_of Graph.SameWiring first second

theorem wired_advance : (stage.advance : Act (Desk α) (List String)).Keeps Wired :=
  Stage.keeps_advance
    (fun node left top => Act.keeps_zoom (Graph.keeps_moveWindow node left top) fun _ _ same => same)
    fun d _ => refl_of Graph.SameWiring d.graph

end Desk

end ShowControl
