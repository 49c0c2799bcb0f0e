import ShowControl.Proofs.Show.Slots

/-! Conflicts with actions that fail.

A slot holds what the last applied action on it gives. In a parallel group, which actions are
superseded is settled before any of them is tried, so that the last action on a slot decides alone
what becomes of the slot. If it fails, the slot is left as it is, even if an earlier action of the
group would have been applied. -/

set_option autoImplicit false
namespace ShowControl

variable {α : Type}

namespace ActionGroup

theorem mem_of_lastOn? {actions : List (Action α)} {slot : Slot} {last : Action α}
    (found : lastOn? actions slot = some last) : last ∈ actions ∧ last.slot = slot :=
  ⟨List.mem_reverse.1 (List.mem_of_find?_eq_some found), by simpa using List.find?_some found⟩

theorem lastOn?_eq_some_iff {actions : List (Action α)} (apart : actions.Pairwise Action.Apart)
    {slot : Slot} {action : Action α} :
    lastOn? actions slot = some action ↔ action ∈ actions ∧ action.slot = slot := by
  constructor
  · exact mem_of_lastOn?
  · rintro ⟨member, rfl⟩
    have written : writes actions action.slot = true :=
      List.any_eq_true.2 ⟨action, member, decide_eq_true rfl⟩
    obtain ⟨last, found⟩ := Option.isSome_iff_exists.1 (lastOn?_isSome_iff.2 written)
    obtain ⟨present, same⟩ := mem_of_lastOn? found
    by_cases here : last = action
    · rw [found, here]
    · exact absurd same (apart.forall present member here)

end ActionGroup

theorem GroupResult.applied_verdicts (v : View α) (actions : List (Action α)) :
    (ofOutcomes (actions.map fun action => (action, v.verdict action))).applied =
      actions.filter fun action => v.verdict action = .applied := by
  induction actions with
  | nil => rfl
  | cons action rest ih =>
    rw [List.map_cons, List.filter_cons]
    cases verdict : v.verdict action with
    | applied => rw [applied_cons, ih, if_pos (decide_eq_true rfl)]
    | superseded | skipped => exact ih

variable [Number α]

namespace Desk

def appliesAlone (d : Desk α) (action : Action α) : Bool :=
  match ((execute ⟨.parallel, [action]⟩).eval d).1 with
  | .ok result => !result.applied.isEmpty
  | .error _ => false

/-- Of the actions that would be applied alone, the last one on the slot is applied, and the slot
holds what it gives. -/
def Prevails (d : Desk α) (actions : List (Action α)) (result : GroupResult α) (e : Desk α)
    (slot : Slot) : Prop :=
  ∀ action, ActionGroup.lastOn? (actions.filter d.appliesAlone) slot = some action →
    action ∈ result.applied ∧ e.view.content slot = action.gives

theorem applied_of_execute {d e : Desk α} (steady : d.graph.backend.Steady)
    {actions : List (Action α)} {result : GroupResult α}
    (returned : (execute ⟨.parallel, actions⟩).Returns d result e) :
    result.applied =
      (ActionGroup.effective actions).filter fun action => d.view.verdict action = .applied := by
  obtain ⟨outcomes, applied, rfl⟩ := returns_execute.1 returned
  have apart := ActionGroup.apart_effective actions
  -- No two of the actions that are tried write one slot, so that each one meets the desk as
  -- it was at the start.
  obtain ⟨e', again, -⟩ := returns_applyAll steady apart (allows_of_applyAll steady apart applied)
  obtain ⟨rfl, -⟩ := applied.determined again
  rw [GroupResult.applied_superseded_append]
  exact GroupResult.applied_verdicts d.view (ActionGroup.effective actions)

theorem appliesAlone_iff {d : Desk α} (steady : d.graph.backend.Steady) {action : Action α} :
    d.appliesAlone action = true ↔ d.view.verdict action = .applied := by
  have alone {result : GroupResult α} {e : Desk α}
      (returned : (execute ⟨.parallel, [action]⟩).Returns d result e) :
      result.applied = [action].filter fun action => d.view.verdict action = .applied :=
    applied_of_execute steady returned
  constructor
  · intro applies
    rw [appliesAlone] at applies
    split at applies
    · next result returned =>
      rw [alone (Prod.ext returned rfl)] at applies
      by_contra other
      simp [other] at applies
    · cases applies
  · intro applies
    have check := View.verdict_eq_applied_iff.1 applies
    obtain ⟨e, returned, -⟩ := returns_applyAll_of_apart steady (List.pairwise_singleton _ action)
      (List.forall_mem_singleton.2 check)
    have returned : (execute ⟨.parallel, [action]⟩).Returns d _ e :=
      returns_execute.2 ⟨_, returned, rfl⟩
    rw [appliesAlone, returned]
    dsimp only
    rw [alone returned]
    simp [applies]

theorem content_of_execute {d e : Desk α} (steady : d.graph.backend.Steady)
    {group : ActionGroup α} {result : GroupResult α}
    (returned : (execute group).Returns d result e) (slot : Slot) :
    e.view.content slot =
      (ActionGroup.lastOn? result.applied slot).elim (d.view.content slot) Action.gives := by
  obtain ⟨outcomes, applied, rfl⟩ := returns_execute.1 returned
  rw [GroupResult.applied_superseded_append]
  obtain ⟨takes, view⟩ := takes_of_applyAll steady (applyAll_applied steady applied) fun outcome
    member => by
      obtain ⟨action, -, rfl⟩ := List.mem_map.1 member
      rfl
  rw [view, takes.content]

end Desk

/-- The last action on a slot decides what becomes of it. It is the only one on the slot that may be
applied, and it is applied if it would be alone; the slot then holds what it gives, and else what it
held before. So the last of the actions that would be applied alone prevails, unless an action that
would not be applied comes after it on its slot. -/
theorem last_action_decides {d e : Desk α} (steady : d.graph.backend.Steady)
    {actions : List (Action α)} {result : GroupResult α}
    (returned : (Desk.execute ⟨.parallel, actions⟩).Returns d result e) (slot : Slot) :
    (∀ action, action ∈ result.applied ∧ action.slot = slot ↔
        ActionGroup.lastOn? actions slot = some action ∧ d.appliesAlone action = true) ∧
      e.view.content slot =
        (ActionGroup.lastOn? result.applied slot).elim (d.view.content slot) Action.gives ∧
      (d.Prevails actions result e slot ↔
        ∀ action, ActionGroup.lastOn? (actions.filter d.appliesAlone) slot = some action →
          ActionGroup.lastOn? actions slot = some action) := by
  have applied := Desk.applied_of_execute steady returned
  have content := Desk.content_of_execute steady returned slot
  have effective := ActionGroup.apart_effective actions
  have decided (action : Action α) : action ∈ result.applied ∧ action.slot = slot ↔
      ActionGroup.lastOn? actions slot = some action ∧ d.appliesAlone action = true := by
    rw [← ActionGroup.lastOn?_effective, ActionGroup.lastOn?_eq_some_iff effective, applied,
      List.mem_filter, decide_eq_true_eq, Desk.appliesAlone_iff steady, and_right_comm]
  have apart : result.applied.Pairwise Action.Apart := by
    rw [applied]
    exact effective.filter _
  constructor
  · exact decided
  constructor
  · exact content
  constructor
  · intro prevails action valid
    obtain ⟨member, -⟩ := prevails action valid
    exact ((decided action).1 ⟨member, (ActionGroup.mem_of_lastOn? valid).2⟩).1
  · intro last action valid
    have alone := List.of_mem_filter (ActionGroup.mem_of_lastOn? valid).1
    have taken := (decided action).2 ⟨last action valid, alone⟩
    rw [(ActionGroup.lastOn?_eq_some_iff apart).2 taken] at content
    exact ⟨taken.1, content⟩

namespace Sample

def mended : List (Action ℚ) :=
  [.command "a" (.property "s" "freq" .int "many") 1,
    .command "a" (.property "s" "freq" .int "5") 2, .command "b" (.play .start) 3,
    .command "a" .showWindow 4]

def garbled : List (Action ℚ) :=
  [.command "a" (.property "s" "freq" .int "5") 1,
    .command "a" (.property "s" "freq" .int "many") 2]

end Sample

theorem last_action_decides_sample :
    Sample.console.graph.backend.Steady ∧
      ∃ result e, (Desk.execute ⟨.parallel, Sample.mended⟩).Returns Sample.console result e ∧
        ∀ slot,
          (∀ action, action ∈ result.applied ∧ action.slot = slot ↔
              ActionGroup.lastOn? Sample.mended slot = some action ∧
                Sample.console.appliesAlone action = true) ∧
            e.view.content slot =
              (ActionGroup.lastOn? result.applied slot).elim (Sample.console.view.content slot)
                Action.gives ∧
            (Sample.console.Prevails Sample.mended result e slot ↔
              ∀ action,
                ActionGroup.lastOn? (Sample.mended.filter Sample.console.appliesAlone) slot =
                    some action →
                  ActionGroup.lastOn? Sample.mended slot = some action) := by
  have steady : Sample.console.graph.backend.Steady := Backend.steady_obliging
  have ok : ((Desk.execute ⟨.parallel, Sample.mended⟩).eval Sample.console).1.isOk = true := by
    decide +kernel
  obtain ⟨result, returned⟩ := Act.exists_returns_of_isOk ok
  exact ⟨steady, result, _, returned, last_action_decides steady returned⟩

/-- An action that fails may take an earlier one with it: neither of the garbled actions is applied,
though the first would be alone. -/
theorem not_prevails_garbled :
    Sample.console.graph.backend.Steady ∧
      ∃ result e, (Desk.execute ⟨.parallel, Sample.garbled⟩).Returns Sample.console result e ∧
        ¬Sample.console.Prevails Sample.garbled result e (.property "a" "s" "freq") := by
  have steady : Sample.console.graph.backend.Steady := Backend.steady_obliging
  have ok : ((Desk.execute ⟨.parallel, Sample.garbled⟩).eval Sample.console).1.isOk = true := by
    decide +kernel
  obtain ⟨result, returned⟩ := Act.exists_returns_of_isOk ok
  have valid : (ActionGroup.lastOn? (Sample.garbled.filter Sample.console.appliesAlone)
      (.property "a" "s" "freq")).isSome = true := by
    decide +kernel
  have none : (ActionGroup.effective Sample.garbled).filter
      (fun action => Sample.console.view.verdict action = .applied) = [] := by
    decide +kernel
  obtain ⟨action, found⟩ := Option.isSome_iff_exists.1 valid
  refine ⟨steady, result, _, returned, fun prevails => ?_⟩
  have taken := (prevails action found).1
  rw [Desk.applied_of_execute steady returned, none] at taken
  cases taken

end ShowControl
