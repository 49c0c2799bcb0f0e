import ShowControl.Proofs.Number.Exact
import ShowControl.Proofs.Property
import ShowControl.Proofs.Show.Parallel
import ShowControl.Proofs.Show.Provision

/-! No fault stops a show that has been built.

What the actions of a show are for is there from the build on. So an action is applied, or it is
skipped because its value does not go with the property; and where every number has a nearest integer,
nothing else in a show can fail. -/

set_option autoImplicit false
namespace ShowControl

variable {α : Type} {b : Blueprint}

/-- The fault is a matter of the value that a property is given. -/
def DeskCause.OfValue (cause : DeskCause) : Prop :=
  cause.family = .propertyValue ∨ cause.family = .typeMismatch

theorem DeskCause.OfValue.recoverable {cause : DeskCause} (ofValue : cause.OfValue) :
    (Fault.ofDesk cause).recoverable = true := by
  rcases ofValue with family | family
  · exact congrArg DeskFamily.recoverable family
  · exact congrArg DeskFamily.recoverable family

/-- The action is applied, superseded, or skipped for its value. -/
def Verdict.Harmless : Verdict → Prop
  | .applied | .superseded => True
  | .skipped fault => ∃ cause, fault = .ofDesk cause ∧ cause.OfValue

def GroupResult.Harmless (result : GroupResult α) : Prop :=
  ∀ outcome ∈ result.outcomes, outcome.2.Harmless

/-! Views in which the declared nodes are there -/

/-- What stands in the way of a command that the node is for. -/
theorem Sight.check_of_serves {s : Sight α} {command : Command α}
    (serves : s.bare.template.Serves command)
    (windowed : s.bare.window.isSome = s.bare.template.hasWindow) (target : String) :
    s.check target command = .ok () ∨
      ∃ cause, s.check target command = .error (.ofDesk cause) ∧ cause.OfValue := by
  cases command with
  | play | seek => exact .inl rfl
  | showWindow => exact .inl (if_pos (windowed.trans serves))
  | moveWindow => exact .inl (if_pos (windowed.trans serves))
  | property element name type value =>
    -- The element is there and the type is known; the value before and the text are left to differ.
    have known : ¬(s.bare.template.layout.element? element).isNone = true := by
      rw [Option.isNone_iff_eq_none, ← Option.not_isSome_iff_eq_none, not_not]
      exact serves
    have read : Graph.readValue type.name value =
        (type.read value).mapError fun fault => .ofDesk (.badValue fault) := by
      rw [Graph.readValue, PropertyType.ofName?_name]
    have checked : s.checkProperty element name type.name = .ok () ∨
        ∃ current, s.checkProperty element name type.name =
          .error (.ofDesk (.otherType s.bare.name element name current type.name)) := by
      rw [checkProperty, if_neg known]
      split
      · split
        · exact .inl rfl
        · exact .inr ⟨_, rfl⟩
      · exact .inl rfl
    rw [check, read]
    obtain checked | ⟨current, checked⟩ := checked
    · rw [checked]
      cases type.read value with
      | ok v => exact .inl rfl
      | error fault => exact .inr ⟨.badValue fault, rfl, .inl rfl⟩
    · rw [checked]
      exact .inr ⟨_, rfl, .inr rfl⟩

/-- The node is declared, and has a window. -/
def Blueprint.Windowed (b : Blueprint) (name : String) : Prop :=
  ∃ t, b.declared.get? name = some t ∧ t.hasWindow = true

/-- The declared nodes are there, and what moves has a window. -/
structure View.Sane (b : Blueprint) (v : View α) : Prop where
  staffed (name : String) (t : Template) : b.declared.get? name = some t →
    ∃ s, v.node name = some s ∧ s.bare.template = t ∧ s.bare.window.isSome = t.hasWindow
  moving (name : String) (motion : Motion α) : v.motion name = some motion →
    b.Windowed motion.node

namespace View.Sane

variable {v : View α}

theorem check (sane : v.Sane b) {action : Action α} (serves : b.Serves action) :
    v.check action = .ok () ∨ ∃ cause, v.check action = .error (.ofDesk cause) ∧ cause.OfValue := by
  cases action with
  | terminate line => exact .inl rfl
  | command target command line =>
    obtain ⟨t, declared, serves⟩ := serves
    obtain ⟨s, present, rfl, windowed⟩ := sane.staffed target t declared
    simp only [View.check, present]
    exact Sight.check_of_serves serves windowed target

/-- A node may change, but not its template, and its window stays. -/
theorem change (sane : v.Sane b) (target : String) {change : Sight α → Sight α}
    (template : ∀ s, (change s).bare.template = s.bare.template)
    (window : ∀ s, (change s).bare.window.isSome = s.bare.window.isSome) :
    ({ v with node := Function.update v.node target ((v.node target).map change) } : View α).Sane b := by
  refine ⟨fun name t declared => ?_, sane.moving⟩
  obtain ⟨s, present, same, windowed⟩ := sane.staffed name t declared
  by_cases here : name = target
  · subst here
    refine ⟨change s, ?_, (template s).trans same, (window s).trans windowed⟩
    exact (Function.update_self ..).trans (congrArg (Option.map change) present)
  · exact ⟨s, (Function.update_of_ne here ..).trans present, same, windowed⟩

theorem allows (sane : v.Sane b) {action : Action α} (serves : b.Serves action) :
    v.Allows action := by
  intro fault failed
  obtain passed | ⟨cause, refused, ofValue⟩ := sane.check serves
  · cases passed.symm.trans failed
  · obtain rfl : Fault.ofDesk cause = fault := Except.error.inj (refused.symm.trans failed)
    exact ofValue.recoverable

theorem harmless (sane : v.Sane b) {action : Action α} (serves : b.Serves action) :
    (v.verdict action).Harmless := by
  rw [View.verdict]
  obtain passed | ⟨cause, refused, ofValue⟩ := sane.check serves
  · rw [passed]
    exact trivial
  · rw [refused]
    exact ⟨cause, rfl, ofValue⟩

variable [Number α]

theorem write (sane : v.Sane b) {action : Action α} (serves : b.Serves action) :
    (v.write action).Sane b := by
  cases action with
  | terminate line => exact sane
  | command target command line =>
    have still : ∀ s : Sight α, (s.write command).bare.template = s.bare.template ∧
        (s.write command).bare.window.isSome = s.bare.window.isSome := by
      intro s
      cases command with
      | play op => cases op <;> exact ⟨rfl, rfl⟩
      | showWindow => exact ⟨rfl, Option.isSome_map ..⟩
      | seek | property | moveWindow => exact ⟨rfl, rfl⟩
    have changed := sane.change target (fun s => (still s).1) fun s => (still s).2
    refine ⟨changed.staffed, fun name motion moving => ?_⟩
    cases command with
    | moveWindow move =>
      -- The node of a new move was checked for its window.
      simp only [View.write, motionAfter] at moving
      by_cases here : name = target
      · subst here
        rw [Function.update_self] at moving
        cases moving
        exact serves
      · rw [Function.update_of_ne here] at moving
        exact sane.moving name motion moving
    | play | seek | property | showWindow => exact sane.moving name motion moving

theorem next (sane : v.Sane b) {action : Action α} (serves : b.Serves action) :
    (v.next action).Sane b := by
  rw [View.next]
  split
  · exact sane.write serves
  · exact sane

end View.Sane

/-! On the desk -/

namespace Desk

structure Sane (b : Blueprint) (d : Desk α) : Prop where
  steady : d.graph.backend.Steady
  view : d.view.Sane b

theorem Sane.animate {d : Desk α} (sane : d.Sane b) {animator : Animator α}
    (moving : ∀ name motion, animator.motion? name = some motion → b.Windowed motion.node) :
    Sane b { d with animator } :=
  ⟨sane.steady, sane.view.staffed, moving⟩

variable [Number α]

theorem secures_applyOrSkip {action : Action α} (serves : b.Serves action) :
    Act.Secures (Sane b) (applyOrSkip action) Verdict.Harmless := by
  intro d sane
  obtain ⟨e, next, ⟨-, returned⟩ | ⟨refused, -⟩⟩ := eval_applyOrSkip sane.steady action
  · have steady := steady_of_applyOrSkip sane.steady returned
    have view : e.view.Sane b := next ▸ sane.view.next serves
    exact ⟨_, e, returned, ⟨steady, view⟩, sane.view.harmless serves⟩
  · exact absurd (sane.view.allows serves) refused

theorem secures_applyAll {actions : List (Action α)} (serve : ∀ action ∈ actions, b.Serves action) :
    Act.Secures (Sane b) (applyAll actions) fun outcomes =>
      ∀ outcome ∈ outcomes, outcome.2.Harmless := by
  induction actions with
  | nil => exact Act.secures_pure fun _ member => nomatch member
  | cons action rest ih =>
    obtain ⟨serves, serve⟩ := List.forall_mem_cons.1 serve
    refine Act.secures_bind (secures_applyOrSkip serves) fun verdict harmless => ?_
    refine Act.secures_bind (ih serve) fun others rest => ?_
    exact Act.secures_pure (List.forall_mem_cons.2 ⟨harmless, rest⟩)

omit [Number α] in
theorem secures_supersedeAll (actions : List (Action α)) :
    Act.Secures (Sane b) (supersedeAll actions) fun outcomes =>
      ∀ outcome ∈ outcomes, outcome.2.Harmless := by
  refine Act.secures_of_eval (f := id) (eval_supersedeAll actions) (fun _ => id) ?_
  exact List.forall_mem_map.2 fun _ _ => trivial

theorem secures_execute {group : ActionGroup α} (serve : ∀ action ∈ group.actions, b.Serves action) :
    Act.Secures (Sane b) (execute group) GroupResult.Harmless := by
  have taken : ∀ action ∈ group.taken, b.Serves action :=
    fun action member => serve action (group.sublist_taken.subset member)
  rw [execute_eq]
  refine Act.secures_bind (secures_supersedeAll _) fun superseded left => ?_
  refine Act.secures_bind (secures_applyAll taken) fun outcomes right => ?_
  exact Act.secures_pure (List.forall_mem_append.2 ⟨left, right⟩)

/-! An advance -/

theorem secures_place {node : String} (windowed : b.Windowed node) (x y : Int) :
    Act.Secures (Sane b) ((stage : Stage (Desk α) α).place node x y) fun _ => True := by
  intro d sane
  obtain ⟨t, declared, has⟩ := windowed
  obtain ⟨s, present, -, window⟩ := sane.view.staffed node t declared
  obtain ⟨live, here, rfl⟩ := Option.map_eq_some_iff.1 present
  obtain ⟨w, shown⟩ := Option.isSome_iff_exists.1 (window.trans has)
  have evaluated := Graph.eval_moveWindow sane.steady node x y
  rw [windowed_eq here, show live.window = some w from shown] at evaluated
  have placed : ∀ graph, (Graph.moveWindow node x y).Returns d.graph () graph →
      (stage.place node x y).Returns d () { d with graph } :=
    fun graph moved => (Act.returns_zoom ..).2 ⟨graph, moved, rfl⟩
  refine ⟨(), _, placed _ evaluated, ?_, trivial⟩
  -- A window that is in its place already is not moved.
  split
  · exact sane
  · refine ⟨sane.steady, ?_⟩
    rw [view_modifyNode d _ node (fun s => { s with bare := s.bare.moveWindow x y }) fun _ => rfl]
    exact sane.view.change node (fun _ => rfl) fun _ => Option.isSome_map ..

theorem secures_retire (number : Nat) (node : String) :
    Act.Secures (Sane b) ((stage : Stage (Desk α) α).retire number node) fun _ => True := by
  refine Act.secures_get fun d sane => ?_
  show Act.Secures _ (if _ then _ else _) _
  split
  · -- The moves that are left are those of the desk that was looked at.
    refine Act.secures_bind (Act.secures_modify fun e kept => kept.animate ?_) fun _ _ => ?_
    · intro name motion moving
      rw [Animator.motion?, Animator.get?_remove] at moving
      split at moving
      · cases moving
      · exact sane.view.moving name motion moving
    · exact Act.secures_pure trivial
  · exact Act.secures_pure trivial

variable [Number.Finite α]

theorem secures_advanceMotion {motion : Motion α} (windowed : b.Windowed motion.node)
    (number : Nat) :
    Act.Secures (Sane b) (stage.advanceMotion number motion) fun _ => True := by
  have pixel (x : α) : ∃ n, Stage.pixel x = .ok n := by
    obtain ⟨n, rounded⟩ := Number.Finite.rounds x
    exact ⟨n, by rw [Stage.pixel, rounded, mapError_ok]⟩
  refine Act.secures_get fun d _ => ?_
  split
  · exact Act.secures_pure trivial
  next time now =>
  show Act.Secures _ (if time < motion.t0 then _ else _) _
  split
  · exact Act.secures_pure trivial
  · obtain ⟨left, toLeft⟩ := pixel (motion.position time).1
    obtain ⟨top, toTop⟩ := pixel (motion.position time).2
    refine Act.secures_bind (Act.secures_ofExcept toLeft) fun _ _ => ?_
    refine Act.secures_bind (Act.secures_ofExcept toTop) fun _ _ => ?_
    refine Act.secures_bind (secures_place windowed _ _) fun _ _ => ?_
    split
    · refine Act.secures_bind (secures_retire number motion.node) fun _ _ => ?_
      refine Act.secures_bind (Act.secures_log _ _) fun _ _ => ?_
      exact Act.secures_pure trivial
    · exact Act.secures_pure trivial

theorem secures_advanceMotions {entries : List (Nat × Motion α)}
    (windowed : ∀ entry ∈ entries, b.Windowed entry.2.node) :
    Act.Secures (Sane b) (stage.advanceMotions entries) fun _ => True := by
  induction entries with
  | nil => exact Act.secures_pure trivial
  | cons entry rest ih =>
    obtain ⟨first, windowed⟩ := List.forall_mem_cons.1 windowed
    refine Act.secures_bind (secures_advanceMotion first entry.1) fun _ _ => ?_
    exact Act.secures_bind (ih windowed) fun _ _ => Act.secures_pure trivial

theorem secures_advance : Act.Secures (Sane b) (stage : Stage (Desk α) α).advance fun _ => True := by
  refine Act.secures_get fun d sane => secures_advanceMotions fun entry member => ?_
  obtain ⟨node, found⟩ := Table.mem_values_iff.1 member
  exact sane.view.moving node entry.2 (congrArg (Option.map Prod.snd) found)

end Desk

/-! In the show -/

namespace Show

/-- The invariant of a run: no fault can come up, and none has. -/
structure Safe (b : Blueprint) (s : Show α) : Prop where
  desk : s.desk.Sane b
  served : ∀ cue ∈ s.program.cues, b.ServesCue cue
  harmless : ∀ entry ∈ s.completed, entry.2.Harmless

namespace Safe

variable {s : Show α}

theorem finished (safe : s.Safe b) (reason : String) (cancel : Bool) :
    (s.finished reason cancel).Safe b := by
  refine ⟨?_, safe.served, safe.harmless⟩
  cases cancel with
  | false => exact safe.desk
  | true =>
    refine safe.desk.animate fun name motion moving => ?_
    cases moving

theorem drained (safe : s.Safe b) : s.drained.Safe b := by
  rw [Show.drained]
  split
  · exact safe.finished _ _
  · exact safe

theorem fired (safe : s.Safe b) {cue : Cue α} {result : GroupResult α} {desk : Desk α}
    (sane : desk.Sane b) (harmless : result.Harmless) : (s.fired cue result desk).Safe b := by
  have completed : Safe b { s with
      dispatched := s.dispatched ++ [cue], desk, completed := s.completed ++ [(cue, result)] } :=
    ⟨sane, safe.served, List.forall_mem_append.2
      ⟨safe.harmless, List.forall_mem_singleton.2 harmless⟩⟩
  rw [Show.fired]
  split
  · exact completed.finished _ _
  · exact completed

end Safe

theorem secures_finish (reason : String) (cancel : Bool) :
    Act.Secures (Safe (α := α) b) (finish reason cancel) fun _ => True :=
  Act.secures_of_eval (eval_finish reason cancel) (fun _ safe => safe.finished reason cancel) trivial

theorem secures_terminate (reason : String) :
    Act.Secures (Safe (α := α) b) (terminate reason) fun _ => True := by
  refine Act.secures_get fun s _ => ?_
  split
  · exact Act.secures_pure trivial
  · exact secures_finish reason true

theorem secures_checkDrain : Act.Secures (Safe (α := α) b) checkDrain fun _ => True :=
  Act.secures_of_eval eval_checkDrain (fun _ safe => safe.drained) trivial

theorem secures_enterPhase (phase : Phase) :
    Act.Secures (Safe (α := α) b) (enterPhase phase) fun _ => True := by
  refine Act.secures_of_eval (eval_enterPhase phase) (fun s safe => ?_) trivial
  split
  · exact safe
  · exact ⟨safe.desk, safe.served, safe.harmless⟩

variable [Number α]

theorem secures_dispatch {cue : Cue α} (served : b.ServesCue cue) :
    Act.Secures (Safe b) (dispatch cue) fun _ => True := by
  intro s safe
  obtain ⟨result, desk, executed, sane, harmless⟩ := Desk.secures_execute served s.desk safe.desk
  have returned := (returns_dispatch cue s _ ()).2 ⟨result, desk, executed, rfl⟩
  exact ⟨(), _, returned, safe.fired sane harmless, trivial⟩

theorem secures_dispatchAll {cues : List (Cue α)} (served : ∀ cue ∈ cues, b.ServesCue cue) :
    Act.Secures (Safe b) (dispatchAll cues) fun _ => True := by
  induction cues with
  | nil => exact Act.secures_pure trivial
  | cons cue rest ih =>
    obtain ⟨first, served⟩ := List.forall_mem_cons.1 served
    refine Act.secures_get fun s _ => ?_
    split
    · exact Act.secures_bind (secures_dispatch first) fun _ _ => ih served
    · exact Act.secures_pure trivial

theorem secures_dispatchUpTo (value : α) {line : List (α × Cue α)}
    (served : ∀ entry ∈ line, b.ServesCue entry.2) :
    Act.Secures (Safe b) (dispatchUpTo value line) fun _ => True := by
  induction line with
  | nil => exact Act.secures_pure trivial
  | cons entry rest ih =>
    obtain ⟨first, served⟩ := List.forall_mem_cons.1 served
    refine Act.secures_get fun s _ => ?_
    split
    · exact ih served
    · split
      · exact Act.secures_pure trivial
      · refine Act.secures_bind (secures_dispatch first) fun _ _ => Act.secures_get fun s _ => ?_
        split
        · exact ih served
        · exact Act.secures_pure trivial

theorem secures_begin : Act.Secures (Safe b) (begin : Act (Show α) Unit) fun _ => True := by
  refine Act.secures_get fun s safe => ?_
  split
  · refine Act.secures_bind (secures_enterPhase _) fun _ _ => ?_
    refine Act.secures_bind (secures_dispatchAll fun cue member => ?_) fun _ _ => secures_checkDrain
    exact safe.served cue (List.mem_filter.1 member).1
  · exact Act.secures_pure trivial

theorem secures_recordProgress (clock : String) (value : α) :
    Act.Secures (Safe b) (onGraph (Graph.recordProgress clock (some value))) fun _ => True := by
  intro s safe
  have recorded : (onGraph (Graph.recordProgress clock (some value))).eval s =
      (.ok (), s.noted clock value) := by
    simp only [onGraph, onDesk, Desk.onGraph, Act.eval_zoom, eval_recordProgress]
    rfl
  refine ⟨(), _, recorded, ⟨⟨safe.desk.steady, ?_⟩, safe.served, safe.harmless⟩, trivial⟩
  exact ⟨safe.desk.view.staffed, safe.desk.view.moving⟩

theorem secures_handleProgress (clock : String) (value : α) :
    Act.Secures (Safe b) (handleProgress clock (some value)) fun _ => True := by
  refine Act.secures_bind (secures_recordProgress clock value) fun _ _ => ?_
  refine Act.secures_bind (Act.secures_log _ _) fun _ _ => Act.secures_get fun s safe => ?_
  refine secures_dispatchUpTo value fun entry member => ?_
  exact safe.served entry.2 (Program.mem_timelineOn.1 member).1

theorem secures_handleCallback (node : String) (event : Option String) :
    Act.Secures (Safe (α := α) b) (handleCallback node event) fun _ => True := by
  cases event with
  | none => exact Act.secures_log _ _
  | some event =>
    refine Act.secures_get fun s safe => ?_
    -- The cues are those of the show as it was before the event was noted.
    have cues : Act.Secures (Safe b) (dispatchAll (s.program.callbackCuesOn node event))
        fun _ => True :=
      secures_dispatchAll fun cue member => safe.served cue (List.mem_filter.1 member).1
    split
    · exact Act.secures_log _ _
    · split
      · refine Act.secures_bind (Act.secures_modify fun s safe => ?_) fun _ _ => ?_
        · exact ⟨safe.desk, safe.served, safe.harmless⟩
        · exact Act.secures_bind (Act.secures_log _ _) fun _ _ => cues
      · exact Act.secures_bind (Act.secures_log _ _) fun _ _ => cues

theorem secures_handle {signal : Signal α} (valued : ∀ source, signal ≠ .progress source none) :
    Act.Secures (Safe b) (handle signal) fun _ => True := by
  refine Act.secures_get fun s _ => ?_
  split
  · split
    · exact secures_terminate _
    · next source value =>
      split
      · exact Act.secures_log _ _
      · cases value with
        | none => exact absurd rfl (valued source)
        | some value => exact secures_handleProgress _ value
    · split
      · exact Act.secures_log _ _
      · next node _ => exact secures_handleCallback node _
  · exact Act.secures_log _ _

theorem secures_tick [Number.Finite α] :
    Act.Secures (Safe b) (tick : Act (Show α) (List String)) fun _ => True := by
  refine Act.secures_get fun s _ => ?_
  split
  · have advanced : Act.Secures (Safe b) (onDesk (Desk.stage : Stage (Desk α) α).advance)
        fun _ => True :=
      Act.secures_zoom Desk.secures_advance (fun _ safe => safe.desk)
        fun _ _ safe sane => ⟨sane, safe.served, safe.harmless⟩
    refine Act.secures_bind advanced fun _ _ => ?_
    exact Act.secures_bind secures_checkDrain fun _ _ => Act.secures_pure trivial
  · exact Act.secures_pure trivial

theorem safe_of_build {program : Program α} {config : Config α} {backend : Backend α}
    (steady : backend.Steady) {report : Report} {s : Show α}
    (built : build.Returns (ofProgram program config backend) report s) : ∃ b, s.Safe b := by
  obtain ⟨b, staffed, steady, served⟩ := provided_of_build steady built
  have builds : Builds _ s := builds_build.of_returns built
  refine ⟨b, ⟨steady, fun name t declared => ?_, fun name motion moving => ?_⟩, ?_, ?_⟩
  · obtain ⟨node, live, template, windowed⟩ := staffed name t declared
    exact ⟨node.sight, Desk.view_node live, template, windowed⟩
  · have fresh := fresh_of_build (fresh_ofProgram program config backend) built
    have still : s.desk.animator.motion? name = none := by
      rw [Animator.motion?, fresh.motionless, Table.get?_empty, Option.map_none]
    cases still.symm.trans moving
  · rw [builds]
    exact served
  · rw [builds]
    exact fun _ member => absurd member List.not_mem_nil

end Show

section Run

variable [Number α] [Number.Finite α]

/-- Progress that an operation brings comes with a value. -/
def Operation.Valued (operation : Operation α) : Prop :=
  ∀ source, operation ≠ .handle (.progress source none)

theorem secures_act {operation : Operation α} (valued : operation.Valued) :
    Act.Secures (Show.Safe b) operation.act fun _ => True := by
  cases operation with
  | begin => exact Show.secures_begin
  | handle signal =>
    exact Show.secures_handle fun source same => valued source (congrArg Operation.handle same)
  | tick => exact Act.secures_bind Show.secures_tick fun _ _ => Act.secures_pure trivial
  | terminate reason => exact Show.secures_terminate reason

/-- From a safe show every operation comes to its end. -/
theorem run_of_safe {s : Show α} (safe : s.Safe b) {operations : List (Operation α)}
    (valued : ∀ operation ∈ operations, operation.Valued) :
    ∃ steps t, Run s steps t ∧ steps.map Step.operation = operations ∧ t.Safe b := by
  -- A run grows at its end, and so does the list of its operations.
  induction operations using List.reverseRecOn with
  | nil => exact ⟨[], s, .rest s, rfl, safe⟩
  | append_singleton earlier operation ih =>
    obtain ⟨valued, last⟩ := List.forall_mem_append.1 valued
    obtain ⟨steps, t, run, same, safe⟩ := ih valued
    obtain ⟨_, u, returned, safe, -⟩ :=
      secures_act (last operation (List.mem_singleton_self operation)) t safe
    refine ⟨_, u, run.next returned, ?_, safe⟩
    rw [List.map_append, same]
    rfl

/-- No fault stops a show that has been built. All operations come to their ends, whatever they are
and in whatever order, and an action that is not applied has been superseded or does not have a value
for its property. -/
theorem built_show_is_safe (program : Program α) (config : Config α) {backend : Backend α}
    (steady : backend.Steady) {report : Report} {s : Show α}
    (built : Show.build.Returns (Show.ofProgram program config backend) report s)
    {operations : List (Operation α)} (valued : ∀ operation ∈ operations, operation.Valued) :
    ∃ steps t, Run s steps t ∧ steps.map Step.operation = operations ∧
      ∀ entry ∈ t.completed, ∀ outcome ∈ entry.2.outcomes, outcome.2.Harmless := by
  obtain ⟨b, safe⟩ := Show.safe_of_build steady built
  obtain ⟨steps, t, run, same, safe⟩ := run_of_safe safe valued
  exact ⟨steps, t, run, same, safe.harmless⟩

end Run

namespace Sample

/-- The first cue sets a property to a word where a number should be, the second moves a window. -/
def careless : String :=
  "raw w 0 fakesrc name=src\nraw gtktag string window\nwar\nnew w a\n" ++
  "on pre act a prop src blocks int many\n" ++
  "on progress a 0.5 act a window move a 1 0 0 2 9 9 linear mcos\n" ++
  "on callback a end act a play stop\n"

def evening : List (Operation ℚ) :=
  [.begin, .handle (.progress (.name "a") (some (3 / 2))), .tick, .handle (.stop none), .tick]

end Sample

set_option maxRecDepth 20000 in
/-- The sample show with exact numbers, to which the stop comes before the end. -/
theorem built_show_is_safe_sample :
    let program : Program ℚ := Script.programOf Sample.careless
    program.Compiled ∧ (Backend.obliging : Backend ℚ).Steady ∧
      (∀ operation ∈ Sample.evening, operation.Valued) ∧
      ∃ report s, Show.build.Returns (Show.ofProgram program .standard .obliging) report s ∧
        ∃ steps t, Run s steps t ∧ steps.map Step.operation = Sample.evening ∧
          ∀ entry ∈ t.completed, ∀ outcome ∈ entry.2.outcomes, outcome.2.Harmless := by
  intro program
  have checks : (((Script.compile Sample.careless : Act Library (Program ℚ)).eval .empty).1.isOk &&
      (Show.build.eval (Show.ofProgram program .standard .obliging)).1.isOk) = true := by
    decide +kernel
  obtain ⟨compiles, builds⟩ := Bool.and_eq_true_iff.1 checks
  obtain ⟨report, built⟩ := Act.exists_returns_of_isOk builds
  have valued : ∀ operation ∈ Sample.evening, operation.Valued := by
    simp [Sample.evening, Operation.Valued]
  exact ⟨Script.compiled_programOf compiles, Backend.steady_obliging, valued, report, _, built,
    built_show_is_safe program .standard Backend.steady_obliging built valued⟩

end ShowControl
