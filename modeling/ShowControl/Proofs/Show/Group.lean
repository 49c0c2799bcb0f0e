import Mathlib.Data.List.Perm.Basic
import ShowControl.Proofs.Show.Parallel

/-! What a group comes to.

An action that fails has changed nothing: each command looks for all that may be wrong with it before
it tells the backend or starts a move. So a group comes to what its applied actions come to alone. -/

set_option autoImplicit false
namespace ShowControl

variable {α : Type}

namespace GroupResult

@[simp] theorem terminate_cons (action : Action α) (verdict : Verdict)
    (outcomes : List (Action α × Verdict)) :
    (ofOutcomes ((action, verdict) :: outcomes)).terminate =
      ((action.isTerminate && verdict = .applied) || (ofOutcomes outcomes).terminate) := rfl

@[simp] theorem terminate_append (first second : List (Action α × Verdict)) :
    (ofOutcomes (first ++ second)).terminate =
      ((ofOutcomes first).terminate || (ofOutcomes second).terminate) := List.any_append

@[simp] theorem terminate_superseded (actions : List (Action α)) :
    (ofOutcomes (actions.map fun action => (action, .superseded))).terminate = false := by
  simp [ofOutcomes]

@[simp] theorem applied_cons (action : Action α) (outcomes : List (Action α × Verdict)) :
    (ofOutcomes ((action, .applied) :: outcomes)).applied =
      action :: (ofOutcomes outcomes).applied := rfl

@[simp] theorem applied_cons_skipped (action : Action α) (fault : Fault)
    (outcomes : List (Action α × Verdict)) :
    (ofOutcomes ((action, .skipped fault) :: outcomes)).applied = (ofOutcomes outcomes).applied :=
  rfl

@[simp] theorem applied_superseded_append (actions : List (Action α))
    (outcomes : List (Action α × Verdict)) :
    (ofOutcomes (actions.map (fun action => (action, .superseded)) ++ outcomes)).applied =
      (ofOutcomes outcomes).applied := by
  simp [applied, ofOutcomes, List.filterMap_append]

end GroupResult

namespace ActionGroup

theorem slot_eq_ending_iff {action : Action α} :
    action.slot = .ending ↔ action.isTerminate = true := by
  rcases action with ⟨_, _ | _ | _ | _ | _, _⟩ | _ <;>
    simp [Action.slot, Command.slot, Action.isTerminate]

theorem any_isTerminate_effective (actions : List (Action α)) :
    (effective actions).any Action.isTerminate = actions.any Action.isTerminate := by
  induction actions with
  | nil => rfl
  | cons action rest ih =>
    rw [effective, List.any_cons]
    split
    · next later =>
      rw [ih]
      cases ends : action.isTerminate with
      | false => rfl
      -- What supersedes a `terminate` action is another one.
      | true =>
        obtain ⟨other, member, same⟩ := List.any_eq_true.1 later
        rw [decide_eq_true_eq, slot_eq_ending_iff.2 ends, slot_eq_ending_iff] at same
        exact List.any_eq_true.2 ⟨other, member, same⟩
    · rw [List.any_cons, ih]

theorem any_isTerminate_taken (group : ActionGroup α) :
    group.taken.any Action.isTerminate = group.terminates := by
  rw [taken]
  cases group.mode with
  | sequential => rfl
  | parallel => exact any_isTerminate_effective group.actions

theorem superseded_append_effective (actions : List (Action α)) :
    (superseded actions ++ effective actions).Perm actions := by
  induction actions with
  | nil => exact .nil
  | cons action rest ih =>
    rw [superseded, effective]
    split
    · exact ih.cons action
    · exact List.perm_middle.trans (ih.cons action)

theorem dropped_append_taken (group : ActionGroup α) :
    (group.dropped ++ group.taken).Perm group.actions := by
  rw [dropped, taken]
  cases group.mode with
  | sequential => exact .refl group.actions
  | parallel => exact superseded_append_effective group.actions

end ActionGroup

variable [Number α]

/-! Actions that fail -/

namespace Graph

theorem allOrNothing_issue {g : Graph α} (steady : g.backend.Steady) (call : Call α) :
    (issue call).AllOrNothing g := by
  obtain ⟨accepted, issued⟩ := eval_issue steady call
  exact Act.Returns.allOrNothing issued

theorem allOrNothing_setTransport {g : Graph α} (steady : g.backend.Steady) (name : String)
    (verb : Verb) (arguments : List α) : (setTransport name verb arguments).AllOrNothing g :=
  Act.allOrNothing_look rfl fun _ => Act.allOrNothing_look rfl fun _ =>
    Act.allOrNothing_change (allOrNothing_issue steady _) fun _ _ => ⟨_, _, rfl⟩

theorem allOrNothing_setProperty {g : Graph α} (steady : g.backend.Steady)
    (name element property typeName raw : String) :
    (setProperty name element property typeName raw).AllOrNothing g :=
  Act.allOrNothing_look rfl fun _ => Act.allOrNothing_look rfl fun _ =>
    Act.allOrNothing_look rfl fun _ => Act.allOrNothing_look rfl fun _ =>
      Act.allOrNothing_change (allOrNothing_issue steady _) fun _ _ => ⟨_, _, rfl⟩

theorem allOrNothing_showWindow {g : Graph α} (steady : g.backend.Steady) (name : String) :
    (showWindow name).AllOrNothing g :=
  Act.allOrNothing_look rfl fun _ => Act.allOrNothing_look rfl fun _ =>
    Act.allOrNothing_change (allOrNothing_issue steady _) fun _ _ => ⟨_, _, rfl⟩

end Graph

namespace Desk

theorem allOrNothing_startMove (d : Desk α) (target : String) (move : Move α) :
    (startMove target move).AllOrNothing d := by
  refine Act.allOrNothing_look rfl fun d' => Act.allOrNothing_look rfl fun _ => ?_
  refine Act.allOrNothing_change (Act.allOrNothing_zoom ?_ rfl) fun _ _ => ⟨_, _, rfl⟩
  exact Act.Returns.allOrNothing (Animator.eval_move _ _ d.animator)

theorem allOrNothing_apply {d : Desk α} (steady : d.graph.backend.Steady) (action : Action α) :
    (apply action).AllOrNothing d := by
  cases action with
  | terminate line => exact Act.Returns.allOrNothing (Act.eval_pure () d)
  | command target command line =>
    cases command with
    | play op =>
      exact Act.allOrNothing_change (Act.allOrNothing_zoom
        (Graph.allOrNothing_setTransport steady target op.verb []) rfl) fun _ _ => ⟨_, _, rfl⟩
    | seek start stop =>
      exact Act.allOrNothing_change (Act.allOrNothing_zoom
        (Graph.allOrNothing_setTransport steady target .seek [start, stop]) rfl)
          fun _ _ => ⟨_, _, rfl⟩
    | property element name type value =>
      exact Act.allOrNothing_change (Act.allOrNothing_zoom
        (Graph.allOrNothing_setProperty steady target element name type.name value) rfl)
          fun _ _ => ⟨_, _, rfl⟩
    | showWindow =>
      exact Act.allOrNothing_zoom (Graph.allOrNothing_showWindow steady target) rfl
    | moveWindow move => exact allOrNothing_startMove d target move

theorem applied_or_unchanged {d e : Desk α} (steady : d.graph.backend.Steady) {action : Action α}
    {verdict : Verdict} (returned : (applyOrSkip action).Returns d verdict e) :
    verdict = .applied ∨ ∃ fault, verdict = .skipped fault ∧ e = d := by
  have undone := allOrNothing_apply steady action
  simp only [Act.AllOrNothing] at undone
  simp only [Act.Returns, applyOrSkip, Act.eval_bind, Act.eval_attempt] at returned
  generalize (apply action).eval d = outcome at undone returned
  obtain ⟨fault | _, _⟩ := outcome
  · cases undone fault _ rfl
    by_cases skips : fault.recoverable = true
    · simp only [if_pos skips] at returned
      cases returned
      exact .inr ⟨fault, rfl, rfl⟩
    · simp only [if_neg skips] at returned
      cases returned
  · cases returned
    exact .inl rfl

/-! Whole groups -/

theorem terminates_applyOrSkip {action : Action α} {d e : Desk α} {verdict : Verdict}
    (returned : (applyOrSkip action).Returns d verdict e) :
    (action.isTerminate && decide (verdict = .applied)) = action.isTerminate := by
  cases action with
  | command => rfl
  -- There is nothing that could fail about it.
  | terminate line =>
    obtain ⟨rfl, _⟩ := (Act.returns_pure ..).1 returned
    rfl

theorem terminates_applyAll {actions : List (Action α)} {d e : Desk α}
    {outcomes : List (Action α × Verdict)} (returned : (applyAll actions).Returns d outcomes e) :
    (GroupResult.ofOutcomes outcomes).terminate = actions.any Action.isTerminate := by
  induction actions generalizing d e outcomes with
  | nil =>
    obtain ⟨rfl, _⟩ := (Act.returns_pure ..).1 returned
    rfl
  | cons action rest ih =>
    simp only [applyAll, Act.returns_bind, Act.returns_pure] at returned
    obtain ⟨verdict, _, applied, others, _, more, rfl, _⟩ := returned
    rw [GroupResult.terminate_cons, terminates_applyOrSkip applied, ih more, List.any_cons]

/-- A group ends the show just if one of its actions is `terminate`. -/
theorem terminates_execute {group : ActionGroup α} {d e : Desk α} {result : GroupResult α}
    (returned : (execute group).Returns d result e) : result.terminate = group.terminates := by
  obtain ⟨outcomes, applied, rfl⟩ := returns_execute.1 returned
  rw [GroupResult.terminate_append, GroupResult.terminate_superseded, Bool.false_or,
    terminates_applyAll applied, ActionGroup.any_isTerminate_taken]

theorem actions_of_applyAll {actions : List (Action α)} {d e : Desk α}
    {outcomes : List (Action α × Verdict)} (returned : (applyAll actions).Returns d outcomes e) :
    outcomes.map Prod.fst = actions := by
  induction actions generalizing d e outcomes with
  | nil =>
    obtain ⟨rfl, _⟩ := (Act.returns_pure ..).1 returned
    rfl
  | cons action rest ih =>
    simp only [applyAll, Act.returns_bind, Act.returns_pure] at returned
    obtain ⟨verdict, _, _, others, _, more, rfl, _⟩ := returned
    rw [List.map_cons, ih more]

theorem actions_of_execute {group : ActionGroup α} {d e : Desk α} {result : GroupResult α}
    (returned : (execute group).Returns d result e) :
    (result.outcomes.map Prod.fst).Perm group.actions := by
  obtain ⟨outcomes, applied, rfl⟩ := returns_execute.1 returned
  have noted : (group.dropped.map fun action => (action, Verdict.superseded)).map Prod.fst =
      group.dropped := by
    rw [List.map_map]
    exact List.map_id' _
  show (List.map Prod.fst (_ ++ outcomes)).Perm _
  rw [List.map_append, noted, actions_of_applyAll applied]
  exact group.dropped_append_taken

/-- The applied actions come to the same desk without those that were skipped between them. -/
theorem applyAll_applied {d e : Desk α} (steady : d.graph.backend.Steady)
    {actions : List (Action α)} {outcomes : List (Action α × Verdict)}
    (returned : (applyAll actions).Returns d outcomes e) :
    let applied := (GroupResult.ofOutcomes outcomes).applied
    (applyAll applied).Returns d (applied.map fun action => (action, .applied)) e := by
  induction actions generalizing d outcomes with
  | nil =>
    obtain ⟨rfl, rfl⟩ := (Act.returns_pure ..).1 returned
    rfl
  | cons action rest ih =>
    simp only [applyAll, Act.returns_bind, Act.returns_pure] at returned
    obtain ⟨verdict, d₁, first, others, _, more, rfl, rfl⟩ := returned
    obtain rfl | ⟨fault, rfl, rfl⟩ := applied_or_unchanged steady first
    -- The rest finds the desk that the applied action leaves, or the one that a skipped action found.
    · have again := ih (steady_of_applyOrSkip steady first) more
      simp only [GroupResult.applied_cons, List.map_cons, applyAll, Act.returns_bind,
        Act.returns_pure]
      exact ⟨_, d₁, first, _, _, again, rfl, rfl⟩
    · rw [GroupResult.applied_cons_skipped]
      exact ih steady more

end Desk

/-- An action that is not applied has no effect. Whatever actions a group has and in whatever state
it finds the desk, it leaves the nodes, the moves and what the backend was told just as its applied
actions do, one after the other, all of which are then applied again. -/
theorem skipped_actions_have_no_effect {group : ActionGroup α} {d e : Desk α}
    (steady : d.graph.backend.Steady) {result : GroupResult α}
    (returned : (Desk.execute group).Returns d result e) :
    (Desk.execute ⟨.sequential, result.applied⟩).Returns d
        (.ofOutcomes (result.applied.map fun action => (action, .applied))) e ∧
      (result.outcomes.map Prod.fst).Perm group.actions ∧
      result.terminate = group.terminates := by
  refine ⟨?_, Desk.actions_of_execute returned, Desk.terminates_execute returned⟩
  obtain ⟨outcomes, applied, rfl⟩ := Desk.returns_execute.1 returned
  rw [GroupResult.applied_superseded_append]
  exact Desk.returns_execute.2 ⟨_, Desk.applyAll_applied steady applied, rfl⟩

/-- The sample group, of which the actions on the lines 1 and 3 are not applied. -/
theorem skipped_actions_have_no_effect_sample :
    Sample.desk.graph.backend.Steady ∧
      ∃ result e, (Desk.execute ⟨.parallel, Sample.actions⟩).Returns Sample.desk result e ∧
        result.skipped.map (fun outcome => outcome.1.line) = [1, 3] ∧
        (Desk.execute ⟨.sequential, result.applied⟩).Returns Sample.desk
          (.ofOutcomes (result.applied.map fun action => (action, .applied))) e ∧
        (result.outcomes.map Prod.fst).Perm Sample.actions ∧ result.terminate = true := by
  have steady : Sample.desk.graph.backend.Steady := Backend.steady_obliging
  have ok : ((Desk.execute ⟨.parallel, Sample.actions⟩).eval Sample.desk).1.isOk = true := by
    decide +kernel
  obtain ⟨result, returned⟩ := Act.exists_returns_of_isOk ok
  have lines : ∀ r ∈ ((Desk.execute ⟨.parallel, Sample.actions⟩).eval Sample.desk).1.toOption,
      r.skipped.map (fun outcome => outcome.1.line) = [1, 3] := by
    decide +kernel
  have lines : result.skipped.map (fun outcome => outcome.1.line) = [1, 3] := by
    refine lines result ?_
    rw [returned]
    rfl
  obtain ⟨again, all, ends⟩ := skipped_actions_have_no_effect steady returned
  exact ⟨steady, result, _, returned, lines, again, all, ends⟩

end ShowControl
