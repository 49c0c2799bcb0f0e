import Mathlib.Data.List.Pairwise
import ShowControl.Proofs.Show.View

/-! Parallel groups.

Actions that write different slots do not come in each other's way, whether they are applied or not,
so that the order of the actions that are not superseded makes no difference. -/

set_option autoImplicit false
namespace ShowControl

variable {α : Type}

namespace Sight

theorem setProperty_comm (s : Sight α) {element property element' property' : String}
    (apart : ¬(element = element' ∧ property = property')) (v v' : PropertyValue) :
    (s.setProperty element property v).setProperty element' property' v' =
      (s.setProperty element' property' v').setProperty element property v := by
  simp only [setProperty, mk.injEq, true_and]
  -- Two properties of one element are in one map, those of two elements in two.
  by_cases same : element = element'
  · subst same
    have other : property ≠ property' := fun here => apart ⟨rfl, here⟩
    rw [Function.update_self, Function.update_self, Function.update_idem, Function.update_idem,
      Function.update_comm other]
  · rw [Function.update_of_ne (Ne.symm same), Function.update_of_ne same,
      Function.update_comm same]

theorem property_setProperty (s : Sight α) {element property element' property' : String}
    (apart : ¬(element = element' ∧ property = property')) (v : PropertyValue) :
    (s.setProperty element property v).property element' property' =
      s.property element' property' := by
  simp only [setProperty]
  by_cases same : element' = element
  · subst same
    rw [Function.update_self, Function.update_of_ne fun here => apart ⟨rfl, here.symm⟩]
  · rw [Function.update_of_ne same]

/-- A command reads nothing that a command on another slot of its node writes. -/
theorem check_write (s : Sight α) {target : String} {a b : Command α}
    (apart : a.slot target ≠ b.slot target) :
    (s.write a).check target b = s.check target b := by
  cases a with
  | play op => cases op <;> rfl
  | showWindow =>
    cases b with
    | showWindow => exact absurd rfl apart
    | moveWindow move =>
      simp only [check, write, bareAfter, Node.showWindow, Option.isSome_map]
    | _ => rfl
  | property element name type value =>
    cases b with
    | property element' name' type' value' =>
      have other : ¬(element = element' ∧ name = name') := by
        rintro ⟨rfl, rfl⟩
        exact apart rfl
      simp only [write, propertyAfter]
      cases Graph.readValue type.name value with
      | error fault => rfl
      | ok v =>
        simp only [check, checkProperty, property_setProperty s other]
        rfl
    | _ => rfl
  | _ => rfl

theorem bareAfter_comm (s : Sight α) {target : String} {a b : Command α}
    (apart : a.slot target ≠ b.slot target) :
    (s.write a).bareAfter b = (s.write b).bareAfter a := by
  cases a with
  | play op =>
    cases b with
    | play op' => exact absurd rfl apart
    | _ => cases op <;> rfl
  | seek start stop =>
    cases b with
    | seek start' stop' => exact absurd rfl apart
    | play op => cases op <;> rfl
    | _ => rfl
  | showWindow =>
    cases b with
    | play op => cases op <;> rfl
    | _ => rfl
  | _ => cases b <;> rfl

theorem propertyAfter_comm (s : Sight α) {target : String} {a b : Command α}
    (apart : a.slot target ≠ b.slot target) :
    (s.write a).propertyAfter b = (s.write b).propertyAfter a := by
  cases a with
  | property element name type value =>
    cases b with
    | property element' name' type' value' =>
      have other : ¬(element = element' ∧ name = name') := by
        rintro ⟨rfl, rfl⟩
        exact apart rfl
      simp only [write, propertyAfter]
      cases Graph.readValue type.name value <;> cases Graph.readValue type'.name value'
      case ok.ok v v' => exact congrArg Sight.property (s.setProperty_comm other v v')
      all_goals rfl
    | _ => rfl
  | _ => cases b <;> rfl

theorem write_comm (s : Sight α) {target : String} {a b : Command α}
    (apart : a.slot target ≠ b.slot target) : (s.write a).write b = (s.write b).write a := by
  rw [write, s.bareAfter_comm apart, s.propertyAfter_comm apart]
  rfl

end Sight

namespace View

variable [Number α]

theorem node_write_of_ne (v : View α) {target other : String} (apart : other ≠ target)
    (command : Command α) (line : Nat) :
    (v.write (.command target command line)).node other = v.node other :=
  Function.update_of_ne apart ..

theorem node_write (v : View α) (target : String) (command : Command α) (line : Nat) :
    (v.write (.command target command line)).node target =
      (v.node target).map fun s => s.write command := Function.update_self ..

theorem check_write (v : View α) {a b : Action α} (apart : a.slot ≠ b.slot) :
    (v.write a).check b = v.check b := by
  cases a with
  | terminate line => rfl
  | command target command line =>
    cases b with
    | terminate => rfl
    | command target' command' line' =>
      by_cases same : target' = target
      · subst same
        simp only [check, node_write]
        cases v.node target' with
        | none => rfl
        | some s => exact s.check_write apart
      · simp only [check, node_write_of_ne v same]

theorem motionAfter_comm (v : View α) {target target' : String} {a b : Command α}
    (line line' : Nat) (apart : a.slot target ≠ b.slot target') :
    (v.write (.command target a line)).motionAfter target' b =
      (v.write (.command target' b line')).motionAfter target a := by
  cases a with
  | moveWindow move =>
    cases b with
    | moveWindow move' =>
      -- Neither move starts where the other one has got to, as they are moves of two nodes.
      have other : target ≠ target' := fun here => apart (congrArg Slot.position here)
      simp only [write, motionAfter, motionOf, Function.update_of_ne other,
        Function.update_of_ne other.symm]
      rw [Function.update_comm other]
    | _ => rfl
  | _ => cases b <;> rfl

theorem write_comm (v : View α) {a b : Action α} (apart : a.slot ≠ b.slot) :
    (v.write a).write b = (v.write b).write a := by
  cases a with
  | terminate line => rfl
  | command target command line =>
    cases b with
    | terminate => rfl
    | command target' command' line' =>
      have motion := v.motionAfter_comm line line' apart
      simp only [write, mk.injEq, and_true] at motion ⊢
      refine ⟨?_, motion⟩
      by_cases same : target' = target
      · subst same
        simp only [Function.update_self, Function.update_idem, Option.map_map]
        exact congrArg (fun f => Function.update v.node target' (Option.map f (v.node target')))
          (funext fun s => s.write_comm apart)
      · rw [Function.update_of_ne same, Function.update_of_ne (Ne.symm same),
          Function.update_comm same]

theorem check_next (v : View α) {a b : Action α} (apart : a.slot ≠ b.slot) :
    (v.next a).check b = v.check b := by
  rw [next]
  cases v.check a with
  | ok u => exact v.check_write apart
  | error fault => rfl

theorem next_comm (v : View α) {a b : Action α} (apart : a.slot ≠ b.slot) :
    (v.next a).next b = (v.next b).next a := by
  rw [next, v.check_next apart, next.eq_def (v.next b), v.check_next apart.symm]
  cases first : v.check a <;> cases second : v.check b <;> simp only [next, first, second]
  exact v.write_comm apart

end View

/-! The actions that are not superseded -/

def Action.Apart (a b : Action α) : Prop := a.slot ≠ b.slot

theorem Action.Apart.symm {a b : Action α} (apart : a.Apart b) : b.Apart a := Ne.symm apart

instance : Std.Symm (Action.Apart (α := α)) := ⟨fun _ _ => Action.Apart.symm⟩

namespace ActionGroup

theorem sublist_effective (actions : List (Action α)) : (effective actions).Sublist actions := by
  induction actions with
  | nil => exact .slnil
  | cons action rest ih =>
    rw [effective]
    split
    · exact ih.cons action
    · exact ih.cons_cons action

theorem sublist_taken (group : ActionGroup α) : group.taken.Sublist group.actions := by
  rw [taken]
  cases group.mode with
  | sequential => exact .refl group.actions
  | parallel => exact sublist_effective group.actions

theorem apart_effective (actions : List (Action α)) :
    (effective actions).Pairwise Action.Apart := by
  induction actions with
  | nil => exact .nil
  | cons action rest ih =>
    rw [effective]
    split
    · exact ih
    · next unwritten =>
      refine List.pairwise_cons.2 ⟨fun other member same => unwritten ?_, ih⟩
      have later : other ∈ rest := (sublist_effective rest).subset member
      exact List.any_eq_true.2 ⟨other, later, decide_eq_true same.symm⟩

end ActionGroup

namespace View

variable [Number α]

/-- Whether the group goes on after an action. -/
def Allows (v : View α) (action : Action α) : Prop :=
  ∀ fault, v.check action = .error fault → fault.recoverable = true

def verdict (v : View α) (action : Action α) : Verdict :=
  match v.check action with
  | .ok () => .applied
  | .error fault => .skipped fault

theorem allows_next (v : View α) {a b : Action α} (apart : a.Apart b) :
    (v.next a).Allows b ↔ v.Allows b := by
  rw [Allows, v.check_next apart, Allows]

theorem verdict_next (v : View α) {a b : Action α} (apart : a.Apart b) :
    (v.next a).verdict b = v.verdict b := by
  rw [verdict, v.check_next apart, verdict]

theorem foldl_next_perm (v : View α) {first second : List (Action α)} (perm : first.Perm second)
    (apart : first.Pairwise Action.Apart) : first.foldl next v = second.foldl next v := by
  refine perm.foldl_eq' (fun a before b after w => ?_) v
  by_cases same : a = b
  · rw [same]
  · exact w.next_comm (apart.forall before after same)

end View

namespace Desk

variable [Number α]

theorem eval_applyOrSkip {d : Desk α} (steady : d.graph.backend.Steady) (action : Action α) :
    ∃ e, e.view = d.view.next action ∧
      ((d.view.Allows action ∧ (applyOrSkip action).Returns d (d.view.verdict action) e) ∨
        (¬d.view.Allows action ∧ ∀ verdict e', ¬(applyOrSkip action).Returns d verdict e')) := by
  obtain ⟨e, evaluated, next⟩ := follows_apply steady action
  refine ⟨e, next, ?_⟩
  simp only [Act.Returns, applyOrSkip, Act.eval_bind, Act.eval_attempt, evaluated, View.Allows,
    View.verdict]
  cases d.view.check action with
  | ok u => exact .inl ⟨fun _ failed => (nomatch failed), rfl⟩
  | error fault =>
    by_cases skips : fault.recoverable = true
    · refine .inl ⟨?_, ?_⟩
      · rintro _ ⟨⟩
        exact skips
      · simp only [if_pos skips]
        rfl
    · refine .inr ⟨fun allows => skips (allows fault rfl), fun verdict e' returned => ?_⟩
      simp only [if_neg skips] at returned
      cases returned

theorem steady_of_applyOrSkip {d e : Desk α} (steady : d.graph.backend.Steady) {action : Action α}
    {verdict : Verdict} (returned : (applyOrSkip action).Returns d verdict e) :
    e.graph.backend.Steady := by
  rw [((performs_applyOrSkip action).of_returns returned).graph.backend]
  exact steady

/-- The verdict on each action is that of the view before all of them. -/
theorem returns_applyAll {d : Desk α} (steady : d.graph.backend.Steady) {actions : List (Action α)}
    (apart : actions.Pairwise Action.Apart) (allowed : ∀ action ∈ actions, d.view.Allows action) :
    ∃ e, (applyAll actions).Returns d (actions.map fun action => (action, d.view.verdict action)) e ∧
      e.view = actions.foldl View.next d.view := by
  -- The desk changes on the way; what is allowed and the verdicts do not.
  induction actions generalizing d with
  | nil => exact ⟨d, rfl, rfl⟩
  | cons action rest ih =>
    obtain ⟨others, apart⟩ := List.pairwise_cons.1 apart
    obtain ⟨d₁, next, ⟨-, returned⟩ | ⟨refused, -⟩⟩ := eval_applyOrSkip steady action
    case inr => exact absurd (allowed action List.mem_cons_self) refused
    have still : ∀ other ∈ rest, d₁.view.Allows other := fun other member => by
      rw [next, View.allows_next _ (others other member)]
      exact allowed other (List.mem_cons_of_mem _ member)
    obtain ⟨e, more, view⟩ := ih (steady_of_applyOrSkip steady returned) apart still
    refine ⟨e, ?_, by rw [view, next, List.foldl_cons]⟩
    have same : (rest.map fun other => (other, d₁.view.verdict other)) =
        rest.map fun other => (other, d.view.verdict other) :=
      List.map_congr_left fun other member => by
        rw [next, View.verdict_next _ (others other member)]
    rw [same] at more
    simp only [applyAll, Act.returns_bind, Act.returns_pure]
    exact ⟨_, d₁, returned, _, e, more, rfl, rfl⟩

theorem allows_of_applyAll {d e : Desk α} (steady : d.graph.backend.Steady)
    {actions : List (Action α)} (apart : actions.Pairwise Action.Apart)
    {outcomes : List (Action α × Verdict)} (returned : (applyAll actions).Returns d outcomes e) :
    ∀ action ∈ actions, d.view.Allows action := by
  induction actions generalizing d e outcomes with
  | nil => nofun
  | cons action rest ih =>
    obtain ⟨others, apart⟩ := List.pairwise_cons.1 apart
    simp only [applyAll, Act.returns_bind] at returned
    obtain ⟨verdict, d₁, applied, outcomes, d₂, more, -⟩ := returned
    obtain ⟨d', next, ⟨allowed, returned⟩ | ⟨-, fails⟩⟩ := eval_applyOrSkip steady action
    case inr => exact absurd applied (fails verdict d₁)
    obtain ⟨-, rfl⟩ := applied.determined returned
    intro other member
    rcases List.mem_cons.1 member with rfl | later
    · exact allowed
    · rw [← View.allows_next _ (others other later), ← next]
      exact ih (steady_of_applyOrSkip steady applied) apart more other later

end Desk

/-- The actions of a parallel group that are not superseded may be applied in any order. If they come
to their end in one order, they do in every other; the same actions are applied, the same are
skipped for the same faults, and the nodes and the moves are left the same. -/
theorem effective_actions_in_any_order [Number α] {d e : Desk α}
    (steady : d.graph.backend.Steady) {actions first second : List (Action α)}
    (orderly : first.Perm (ActionGroup.effective actions))
    (reordered : second.Perm (ActionGroup.effective actions))
    {outcomes : List (Action α × Verdict)} (returned : (Desk.applyAll first).Returns d outcomes e) :
    ∃ outcomes' e', (Desk.applyAll second).Returns d outcomes' e' ∧
      outcomes'.Perm outcomes ∧ e'.view = e.view := by
  have perm : second.Perm first := reordered.trans orderly.symm
  have apart : first.Pairwise Action.Apart :=
    orderly.symm.pairwise (ActionGroup.apart_effective actions) Action.Apart.symm
  have apart' : second.Pairwise Action.Apart := perm.symm.pairwise apart Action.Apart.symm
  have allowed := Desk.allows_of_applyAll steady apart returned
  obtain ⟨e₁, returned₁, view₁⟩ := Desk.returns_applyAll steady apart allowed
  obtain ⟨e', returned', view'⟩ := Desk.returns_applyAll steady apart' fun action member =>
    allowed action (perm.mem_iff.1 member)
  obtain ⟨rfl, rfl⟩ := returned.determined returned₁
  refine ⟨_, e', returned', perm.map _, ?_⟩
  rw [view', view₁, View.foldl_next_perm _ perm apart']

namespace Sample

def desk : Desk Scalar :=
  let template : Template := ⟨"w", 0, ⟨"", [], []⟩, [], .empty, .empty, false⟩
  let node : Node Scalar :=
    ⟨"a", template, [], .name "a", .empty, .empty, .stopped, some ⟨0, 0, 9, 9, false⟩, none, 0⟩
  ⟨{ Graph.start .empty .refuse .obliging with nodes := Table.empty.insert "a" node }, .empty⟩

def actions : List (Action Scalar) :=
  [.command "a" (.play .start) 1, .command "a" .showWindow 2, .command "b" (.play .start) 3,
    .command "a" (.play .pause) 4,
    .command "a" (.moveWindow ⟨"a", 0, 0, 0, 1, 1, 1, .jump, .jump⟩) 5, .terminate 6]

end Sample

theorem effective_actions_in_any_order_sample :
    let effective := ActionGroup.effective Sample.actions
    Sample.desk.graph.backend.Steady ∧ effective.reverse.Perm effective ∧
      ∃ outcomes e, (Desk.applyAll effective).Returns Sample.desk outcomes e ∧
        ∃ outcomes' e', (Desk.applyAll effective.reverse).Returns Sample.desk outcomes' e' ∧
          outcomes'.Perm outcomes ∧ e'.view = e.view := by
  intro effective
  have steady : Sample.desk.graph.backend.Steady := Backend.steady_obliging
  have reordered : effective.reverse.Perm effective := effective.reverse_perm
  have ok : ((Desk.applyAll effective).eval Sample.desk).1.isOk = true := by decide +kernel
  obtain ⟨outcomes, returned⟩ := Act.exists_returns_of_isOk ok
  exact ⟨steady, reordered, outcomes, _, returned,
    effective_actions_in_any_order steady (.refl _) reordered returned⟩

end ShowControl
