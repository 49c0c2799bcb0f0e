import ShowControl.Proofs.Number.Exact
import ShowControl.Proofs.Property
import ShowControl.Proofs.Show.Group

/-! What the slots hold.

Actions that are all applied leave in a slot what the last of them on it gives, whatever the earlier
ones gave. So it makes no difference to the slots whether a group is applied in sequence or in
parallel, as long as nothing in it is skipped. -/

set_option autoImplicit false
namespace ShowControl

variable {α : Type}

/-- What a slot may hold. A move counts without the place that it starts from. -/
inductive Content (α : Type) where
  | transport (state : Transport)
  | segment (ends : Option (α × α))
  | property (v : PropertyValue)
  | visible (shown : Bool)
  | motion (clock : Option String) (t0 t1 : α) (stop : α × α) (easeX easeY : Easing)

def Motion.content (motion : Motion α) : Content α :=
  .motion motion.clock motion.t0 motion.t1 motion.stop motion.easeX motion.easeY

def Sight.content (s : Sight α) : Slot → Option (Content α)
  | .transport _ => some (.transport s.bare.transport)
  | .segment _ => some (.segment s.bare.segment)
  | .property _ element name => (s.property element name).map .property
  | .visibility _ => s.bare.window.map fun window => .visible window.visible
  | .ending | .position _ => none

def Slot.target? : Slot → Option String
  | ending => none
  | transport target | segment target | property target _ _ | visibility target
  | position target => some target

theorem Command.target?_slot (target : String) (command : Command α) :
    (command.slot target).target? = some target := by
  cases command <;> rfl

def View.content (v : View α) (slot : Slot) : Option (Content α) :=
  match slot with
  | .ending => none
  | .transport target | .segment target | .property target _ _ | .visibility target =>
    (v.node target).bind fun s => s.content slot
  | .position target => (v.motion target).map Motion.content

def PlayOp.state : PlayOp → Transport
  | start => .playing
  | pause => .paused
  | stop => .stopped

def Command.gives : Command α → Option (Content α)
  | .play op => some (.transport op.state)
  | .seek start stop => some (.segment (some (start, stop)))
  | .property _ _ type value => (Graph.readValue type.name value).toOption.map .property
  | .showWindow => some (.visible true)
  | .moveWindow m => some (.motion (some m.clock) m.t0 m.t1 (m.x1, m.y1) m.easeX m.easeY)

def Action.gives : Action α → Option (Content α)
  | .terminate _ => none
  | .command _ what _ => what.gives

namespace Sight

theorem content_write_self {s : Sight α} {target : String} {command : Command α}
    (applies : s.check target command = .ok ()) (still : ∀ m, command ≠ .moveWindow m) :
    (s.write command).content (command.slot target) = command.gives := by
  cases command with
  | play op => cases op <;> rfl
  | seek start stop => rfl
  | property element name type value =>
    obtain ⟨u, -, applies⟩ := ok_bind_iff.1 applies
    obtain ⟨v, read, -⟩ := ok_bind_iff.1 applies
    simp only [content, Command.slot, Command.gives, write, propertyAfter, read, setProperty,
      Function.update_self]
    rfl
  | showWindow =>
    simp only [check] at applies
    split at applies
    · next windowed =>
      obtain ⟨w, window⟩ := Option.isSome_iff_exists.1 windowed
      simp only [content, Command.slot, Command.gives, write, bareAfter, Node.showWindow, window,
        Option.map_some]
    · cases applies
  | moveWindow m => exact absurd rfl (still m)

theorem content_write_of_ne (s : Sight α) {target : String} {command : Command α} {slot : Slot}
    (own : slot.target? = some target) (apart : slot ≠ command.slot target) :
    (s.write command).content slot = s.content slot := by
  cases command with
  | play op =>
    cases slot with
    | transport => cases own; exact absurd rfl apart
    | _ => cases op <;> rfl
  | seek start stop =>
    cases slot with
    | segment => cases own; exact absurd rfl apart
    | _ => rfl
  | property element name type value =>
    cases slot with
    | property _ element' name' =>
      cases own
      have other : ¬(element = element' ∧ name = name') := by
        rintro ⟨rfl, rfl⟩
        exact apart rfl
      simp only [content, write, propertyAfter]
      cases Graph.readValue type.name value with
      | error fault => rfl
      | ok v => exact congrArg _ (property_setProperty s other v)
    | _ => rfl
  | showWindow =>
    cases slot with
    | visibility => cases own; exact absurd rfl apart
    | _ => rfl
  | moveWindow m => cases slot <;> rfl

theorem type_of_checkProperty {s : Sight α} {element property typeName : String} {u : Unit}
    (checked : s.checkProperty element property typeName = .ok u) {current : PropertyValue}
    (given : s.property element property = some current) : current.type.name = typeName := by
  rw [checkProperty] at checked
  split at checked
  · cases checked
  · rw [given] at checked
    dsimp only at checked
    split at checked
    · next same => exact same
    · cases checked

theorem readValue_name (type : PropertyType) (raw : String) :
    Graph.readValue type.name raw =
      (type.read raw).mapError fun fault => .ofDesk (.badValue fault) := by
  rw [Graph.readValue, PropertyType.ofName?_name]

/-- A command that applies after another one on its slot applied without it: it has the type that
the other one gave the property. -/
theorem check_of_write {s : Sight α} {target : String} {first second : Command α}
    (same : first.slot target = second.slot target) (before : s.check target first = .ok ())
    (after : (s.write first).check target second = .ok ()) : s.check target second = .ok () := by
  cases second with
  | play | seek => rfl
  | showWindow =>
    cases first with
    | showWindow => exact before
    | _ => cases same
  | moveWindow m =>
    cases first with
    | moveWindow m' => exact before
    | _ => cases same
  | property element name type value =>
    cases first with
    | property element' name' type' value' =>
      obtain ⟨rfl, rfl⟩ : element' = element ∧ name' = name := by
        cases same
        exact ⟨rfl, rfl⟩
      obtain ⟨u, checked, before⟩ := ok_bind_iff.1 before
      obtain ⟨v, read, -⟩ := ok_bind_iff.1 before
      obtain ⟨u', checked', rest⟩ := ok_bind_iff.1 after
      have given : (s.write (.property element' name' type' value')).property element' name' =
          some v := by
        simp only [write, propertyAfter, read, setProperty, Function.update_self]
      -- A value that is read has the type that it is read as, and the second command is checked
      -- against it.
      rw [readValue_name, ok_mapError_iff] at read
      obtain ⟨rfl, -⟩ := PropertyType.valid_of_read read
      obtain rfl := PropertyType.name_injective (type_of_checkProperty checked' given)
      exact ok_bind_iff.2 ⟨u, checked, rest⟩
    | _ => cases same

end Sight

namespace View

variable [Number α]

theorem content_write_self {v : View α} {action : Action α} (applies : v.check action = .ok ()) :
    (v.write action).content action.slot = action.gives := by
  cases action with
  | terminate line => rfl
  | command target command line =>
    cases present : v.node target with
    | none =>
      rw [check_absent present] at applies
      cases applies
    | some s =>
      simp only [check, present] at applies
      cases command with
      | moveWindow m =>
        simp only [Action.slot, Command.slot, content, write, motionAfter, Function.update_self]
        rfl
      | play | seek | property | showWindow =>
        have given := Sight.content_write_self applies fun _ same => by cases same
        simp only [Action.slot, Command.slot, content, node_write, present] at given ⊢
        exact given

theorem content_write_of_ne (v : View α) {action : Action α} {slot : Slot}
    (apart : slot ≠ action.slot) : (v.write action).content slot = v.content slot := by
  cases action with
  | terminate line => rfl
  | command target command line =>
    have node (other : String) (own : slot.target? = some other) :
        ((v.write (.command target command line)).node other).bind (fun s => s.content slot) =
          (v.node other).bind fun s => s.content slot := by
      by_cases here : other = target
      · subst here
        rw [node_write, Option.bind_map]
        exact congrArg _ (funext fun s => s.content_write_of_ne own apart)
      · rw [node_write_of_ne v here]
    cases slot with
    | ending => rfl
    | transport other | segment other | property other | visibility other => exact node other rfl
    | position other =>
      cases command with
      | moveWindow m =>
        have elsewhere : other ≠ target := fun here => apart (congrArg Slot.position here)
        simp only [content, write, motionAfter, Function.update_of_ne elsewhere]
      | _ => rfl

theorem check_of_write {v : View α} {first second : Action α} (before : v.check first = .ok ())
    (after : (v.write first).check second = .ok ()) : v.check second = .ok () := by
  by_cases same : first.slot = second.slot
  · cases first with
    | terminate line => exact after
    | command target command line =>
      cases second with
      | terminate line' => rfl
      | command target' command' line' =>
        obtain rfl : target = target' := by
          have targets := congrArg Slot.target? same
          simpa only [Action.slot, Command.target?_slot, Option.some.injEq] using targets
        cases present : v.node target with
        | none =>
          rw [check_absent present] at before
          cases before
        | some s =>
          simp only [check, node_write, present, Option.map_some] at before after ⊢
          exact Sight.check_of_write same before after
  · rw [← v.check_write same]
    exact after

/-- Each of the actions is applied in the state that those before it lead to. -/
def Takes (v : View α) : List (Action α) → Prop
  | [] => True
  | action :: rest => v.check action = .ok () ∧ (v.write action).Takes rest

theorem Takes.check {v : View α} {actions : List (Action α)} (takes : v.Takes actions) :
    ∀ action ∈ actions, v.check action = .ok () := by
  induction actions generalizing v with
  | nil => nofun
  | cons first rest ih =>
    obtain ⟨applies, takes⟩ := takes
    intro action member
    rcases List.mem_cons.1 member with rfl | later
    · exact applies
    · exact check_of_write applies (ih takes action later)

theorem takes_of_apart {v : View α} {actions : List (Action α)}
    (apart : actions.Pairwise Action.Apart)
    (applies : ∀ action ∈ actions, v.check action = .ok ()) : v.Takes actions := by
  induction actions generalizing v with
  | nil => trivial
  | cons first rest ih =>
    obtain ⟨others, apart⟩ := List.pairwise_cons.1 apart
    refine ⟨applies first List.mem_cons_self, ih apart fun action later => ?_⟩
    rw [v.check_write (others action later)]
    exact applies action (List.mem_cons_of_mem first later)

theorem Takes.foldl_next {v : View α} {actions : List (Action α)} (takes : v.Takes actions) :
    actions.foldl next v = actions.foldl write v := by
  induction actions generalizing v with
  | nil => rfl
  | cons first rest ih =>
    obtain ⟨applies, takes⟩ := takes
    have stepped : v.next first = v.write first := by rw [next, applies]
    rw [List.foldl_cons, List.foldl_cons, stepped, ih takes]

end View

theorem GroupResult.skipped_eq_nil_iff {outcomes : List (Action α × Verdict)} :
    (ofOutcomes outcomes).skipped = [] ↔ ∀ outcome ∈ outcomes, outcome.2 = .applied := by
  simp [skipped, ofOutcomes]

namespace ActionGroup

def lastOn? (actions : List (Action α)) (slot : Slot) : Option (Action α) :=
  actions.reverse.find? fun action => action.slot = slot

theorem lastOn?_cons (action : Action α) (rest : List (Action α)) (slot : Slot) :
    lastOn? (action :: rest) slot =
      (lastOn? rest slot).or (if action.slot = slot then some action else none) := by
  simp only [lastOn?, List.reverse_cons, List.find?_append, List.find?_singleton,
    decide_eq_true_eq]

theorem lastOn?_isSome_iff {actions : List (Action α)} {slot : Slot} :
    (lastOn? actions slot).isSome = true ↔ writes actions slot = true := by
  simp [lastOn?, writes]

theorem lastOn?_effective (actions : List (Action α)) (slot : Slot) :
    lastOn? (effective actions) slot = lastOn? actions slot := by
  induction actions with
  | nil => rfl
  | cons action rest ih =>
    rw [effective]
    split
    · next written =>
      rw [ih, lastOn?_cons]
      split
      · next same =>
        subst same
        obtain ⟨later, found⟩ := Option.isSome_iff_exists.1 (lastOn?_isSome_iff.2 written)
        rw [found, Option.some_or]
      · rw [Option.or_none]
    · rw [lastOn?_cons, lastOn?_cons, ih]

end ActionGroup

variable [Number α]

theorem View.Takes.content {v : View α} {actions : List (Action α)} (takes : v.Takes actions)
    (slot : Slot) : (actions.foldl View.write v).content slot =
      (ActionGroup.lastOn? actions slot).elim (v.content slot) Action.gives := by
  induction actions generalizing v with
  | nil => rfl
  | cons first rest ih =>
    obtain ⟨applies, takes⟩ := takes
    rw [List.foldl_cons, ih takes, ActionGroup.lastOn?_cons]
    -- The first action counts only if no later one is on the slot.
    cases ActionGroup.lastOn? rest slot with
    | some last => rfl
    | none =>
      by_cases own : first.slot = slot
      · subst own
        rw [if_pos rfl]
        exact content_write_self applies
      · rw [if_neg own]
        exact content_write_of_ne v (Ne.symm own)

omit [Number α] in
theorem View.verdict_eq_applied_iff {v : View α} {action : Action α} :
    v.verdict action = .applied ↔ v.check action = .ok () := by
  rw [verdict]
  cases v.check action <;> simp

namespace Desk

theorem takes_of_applyAll {d e : Desk α} (steady : d.graph.backend.Steady)
    {actions : List (Action α)} {outcomes : List (Action α × Verdict)}
    (returned : (applyAll actions).Returns d outcomes e)
    (complete : ∀ outcome ∈ outcomes, outcome.2 = .applied) :
    d.view.Takes actions ∧ e.view = actions.foldl View.write d.view := by
  induction actions generalizing d outcomes with
  | nil =>
    obtain ⟨rfl, rfl⟩ := (Act.returns_pure ..).1 returned
    exact ⟨trivial, rfl⟩
  | cons action rest ih =>
    simp only [applyAll, Act.returns_bind, Act.returns_pure] at returned
    obtain ⟨verdict, d₁, first, others, _, more, rfl, rfl⟩ := returned
    obtain ⟨applied, others⟩ := List.forall_mem_cons.1 complete
    obtain ⟨d', next, ⟨-, returned⟩ | ⟨-, fails⟩⟩ := eval_applyOrSkip steady action
    case inr => exact absurd first (fails verdict d₁)
    obtain ⟨rfl, rfl⟩ := first.determined returned
    have applies := View.verdict_eq_applied_iff.1 applied
    have stepped : d₁.view = d.view.write action := by rw [next, View.next, applies]
    obtain ⟨takes, last⟩ := ih (steady_of_applyOrSkip steady first) more others
    rw [stepped] at takes last
    exact ⟨⟨applies, takes⟩, last⟩

theorem returns_applyAll_of_apart {d : Desk α} (steady : d.graph.backend.Steady)
    {actions : List (Action α)} (apart : actions.Pairwise Action.Apart)
    (applies : ∀ action ∈ actions, d.view.check action = .ok ()) :
    ∃ e, (applyAll actions).Returns d (actions.map fun action => (action, .applied)) e ∧
      e.view = actions.foldl View.write d.view := by
  have allowed : ∀ action ∈ actions, d.view.Allows action := fun action member fault failed => by
    rw [applies action member] at failed
    cases failed
  obtain ⟨e, returned, view⟩ := returns_applyAll steady apart allowed
  have verdicts : (actions.map fun action => (action, d.view.verdict action)) =
      actions.map fun action => (action, .applied) :=
    List.map_congr_left fun action member => by
      rw [View.verdict_eq_applied_iff.2 (applies action member)]
  rw [verdicts] at returned
  exact ⟨e, returned, view.trans (View.takes_of_apart apart applies).foldl_next⟩

end Desk

/-- A parallel group comes to what its actions come to in sequence, if none of them is skipped
there. It comes to its end, leaves out no more than the superseded actions, and every slot holds the
same after it: the state and the segment of each node, its properties, whether its window is shown,
and the move that it has. -/
theorem parallel_refines_sequential {d e : Desk α} (steady : d.graph.backend.Steady)
    {actions : List (Action α)} {result : GroupResult α}
    (returned : (Desk.execute ⟨.sequential, actions⟩).Returns d result e)
    (complete : result.skipped = []) :
    ∃ result' e', (Desk.execute ⟨.parallel, actions⟩).Returns d result' e' ∧
      (∀ outcome ∈ result'.skipped, outcome.2 = .superseded) ∧
      ∀ slot, e'.view.content slot = e.view.content slot := by
  obtain ⟨outcomes, applied, rfl⟩ := Desk.returns_execute.1 returned
  have verdicts : ∀ outcome ∈ outcomes, outcome.2 = .applied :=
    GroupResult.skipped_eq_nil_iff.1 complete
  obtain ⟨takes, last⟩ : d.view.Takes actions ∧ e.view = actions.foldl View.write d.view :=
    Desk.takes_of_applyAll steady applied verdicts
  have apart := ActionGroup.apart_effective actions
  have applies : ∀ action ∈ ActionGroup.effective actions, d.view.check action = .ok () :=
    fun action member => takes.check action ((ActionGroup.sublist_effective actions).subset member)
  obtain ⟨e', applied', last'⟩ := Desk.returns_applyAll_of_apart steady apart applies
  refine ⟨_, e', Desk.returns_execute.2 ⟨_, applied', rfl⟩, ?_, fun slot => ?_⟩
  · intro outcome member
    obtain ⟨left, unapplied⟩ := List.mem_filter.1 member
    rcases List.mem_append.1 left with superseded | taken
    · obtain ⟨action, -, rfl⟩ := List.mem_map.1 superseded
      rfl
    · obtain ⟨action, -, rfl⟩ := List.mem_map.1 taken
      exact absurd rfl (of_decide_eq_true unapplied)
  · rw [last, last', takes.content, (View.takes_of_apart apart applies).content,
      ActionGroup.lastOn?_effective]

namespace Sample

def console : Desk ℚ :=
  let template : Template :=
    ⟨"w", 0, ⟨"", [⟨"fakesrc", "s", .empty⟩], []⟩, [], .empty, .empty, false⟩
  let node : Node ℚ :=
    ⟨"a", template, [], .name "a", .empty, .empty, .stopped, some ⟨0, 0, 9, 9, false⟩, none, 0⟩
  ⟨{ Graph.start .empty .refuse .obliging with nodes := Table.empty.insert "a" node }, .empty⟩

def retakes : List (Action ℚ) :=
  [.command "a" (.property "s" "freq" .int "5") 1,
    .command "a" (.moveWindow ⟨"a", 0, 0, 0, 1, 1, 1, .jump, .jump⟩) 2,
    .command "a" (.play .start) 3, .command "a" (.property "s" "freq" .int "7") 4,
    .command "a" (.seek 0 1) 5, .command "a" (.play .pause) 6, .command "a" .showWindow 7,
    .command "a" (.moveWindow ⟨"a", 1, 0, 0, 2, 9, 9, .linear, .linear⟩) 8, .terminate 9]

end Sample

theorem parallel_refines_sequential_sample :
    Sample.console.graph.backend.Steady ∧
      ∃ result e, (Desk.execute ⟨.sequential, Sample.retakes⟩).Returns Sample.console result e ∧
        result.skipped = [] ∧
        ∃ result' e', (Desk.execute ⟨.parallel, Sample.retakes⟩).Returns Sample.console result' e' ∧
          (∀ outcome ∈ result'.skipped, outcome.2 = .superseded) ∧
          ∀ slot, e'.view.content slot = e.view.content slot := by
  have steady : Sample.console.graph.backend.Steady := Backend.steady_obliging
  have ok : ((Desk.execute ⟨.sequential, Sample.retakes⟩).eval Sample.console).1.isOk = true := by
    decide +kernel
  obtain ⟨result, returned⟩ := Act.exists_returns_of_isOk ok
  have none : ∀ r ∈ ((Desk.execute ⟨.sequential, Sample.retakes⟩).eval Sample.console).1.toOption,
      r.skipped.length = 0 := by
    decide +kernel
  have complete : result.skipped = [] := by
    refine List.eq_nil_of_length_eq_zero (none result ?_)
    rw [returned]
    rfl
  exact ⟨steady, result, _, returned, complete,
    parallel_refines_sequential steady returned complete⟩

end ShowControl
