import Mathlib.Logic.Relation
import ShowControl.Proofs.Show.Moves
import ShowControl.Proofs.Show.Operation

/-! What operations change, whether or not a fault cuts them short.

All that an operation does to a show is made up of a few single changes, most of which need a show
that is running. What each of them preserves, every operation does. -/

set_option autoImplicit false
namespace ShowControl.Show

variable {α : Type}

/-- A single change. -/
inductive Alters : Show α → Show α → Prop where
  | begins {s : Show α} : s.phase = .idle → Alters s (s.entered .running)
  | fires {s : Show α} {cue : Cue α} {desk : Desk α} : s.running = true →
      Desk.Performs s.desk desk →
      Alters s { s with dispatched := s.dispatched ++ [cue], desk }
  | completes {s : Show α} {cue : Cue α} {result : GroupResult α} : s.running = true →
      Alters s { s with completed := s.completed ++ [(cue, result)] }
  | hears {s : Show α} {progress : Table String α} : s.running = true →
      Alters s { s with desk := { s.desk with graph := { s.desk.graph with progress } } }
  | reports {s : Show α} {node event : String} : s.running = true →
      Alters s { s with ended := s.ended ++ [(node, event)] }
  | advances {s : Show α} {desk : Desk α} : s.running = true → Desk.Wired s.desk desk →
      Alters s { s with desk }
  | ends {s : Show α} {reason : String} {cancel : Bool} : s.isOver = false →
      cancel = true ∨ s.desk.animator.count = 0 → Alters s (s.finished reason cancel)

/-- Single changes one after the other. -/
def Becomes : Show α → Show α → Prop := Relation.ReflTransGen Alters

instance : IsPreorder (Show α) Becomes where
  refl _ := .refl
  trans _ _ _ := .trans

theorem Alters.becomes {s t : Show α} (alters : Alters s t) : Becomes s t := .single alters

/-- What every single change preserves, all of them do. -/
theorem Becomes.preserves {R : Show α → Show α → Prop} [IsPreorder (Show α) R]
    (single : ∀ s t, Alters s t → R s t) {s t : Show α} (becomes : Becomes s t) : R s t := by
  induction becomes with
  | refl => exact refl_of R s
  | tail _ alters ih => exact trans_of R ih (single _ _ alters)

/-! What operations come to -/

theorem becomes_terminate (reason : String) :
    (terminate reason : Act (Show α) Unit).Keeps Becomes := by
  intro s
  rw [eval_terminate]
  split
  · exact refl_of Becomes s
  · next notOver => exact (Alters.ends (Bool.eq_false_iff.2 notOver) (.inl rfl)).becomes

theorem becomes_checkDrain : (checkDrain : Act (Show α) Unit).Keeps Becomes := by
  intro s
  rw [eval_checkDrain, drained]
  split
  · next exhausted =>
    simp only [Show.exhausted, Bool.and_eq_true, decide_eq_true_eq] at exhausted
    exact (Alters.ends (isOver_of_running exhausted.1.1) (.inr exhausted.2)).becomes
  · exact refl_of Becomes s

variable [Number α]

theorem becomes_dispatch {s : Show α} (running : s.running = true) (cue : Cue α) :
    Becomes s ((dispatch cue).eval s).2 := by
  have performs := Desk.performs_execute cue.group s.desk
  rw [eval_dispatch]
  generalize (Desk.execute cue.group).eval s.desk = outcome at performs
  obtain ⟨fault | result, desk⟩ := outcome
  · exact (Alters.fires running performs).becomes
  · have fires : Becomes s { s with dispatched := s.dispatched ++ [cue], desk } :=
      (Alters.fires running performs).becomes
    have completes : Becomes s { s with
        dispatched := s.dispatched ++ [cue], desk, completed := s.completed ++ [(cue, result)] } :=
      fires.tail (.completes running)
    simp only [fired]
    split
    · refine trans_of Becomes completes (Alters.ends ?_ (.inl rfl)).becomes
      exact isOver_of_running running
    · exact completes

theorem becomes_dispatchAll (cues : List (Cue α)) : (dispatchAll cues).Keeps Becomes := by
  induction cues with
  | nil => exact Act.keeps_pure ()
  | cons cue rest ih =>
    intro s
    -- The test for running only reads the show, so that its branches are about the same one.
    refine Act.kept_bind (refl_of Becomes s) ?_
    rintro _ ⟨rfl⟩
    show Becomes s (Act.eval (if s.running = true then _ else _) s).2
    split
    · next running => exact Act.kept_bind (becomes_dispatch running cue) fun _ _ => ih _
    · exact refl_of Becomes s

theorem becomes_dispatchUpTo {s : Show α} (running : s.running = true) (value : α)
    (line : List (α × Cue α)) : Becomes s ((dispatchUpTo value line).eval s).2 := by
  induction line generalizing s with
  | nil => exact refl_of Becomes s
  | cons entry rest ih =>
    refine Act.kept_bind (refl_of Becomes s) ?_
    rintro _ ⟨rfl⟩
    show Becomes s (Act.eval (if s.hasFired entry.2 = true then _ else _) s).2
    split
    · exact ih running
    · split
      · exact refl_of Becomes s
      · refine Act.kept_bind (becomes_dispatch running _) fun _ _ => ?_
        -- The cue may have ended the show, and then the scan stops.
        refine Act.kept_bind (refl_of Becomes _) ?_
        rintro t ⟨rfl⟩
        split
        · next still => exact ih still
        · exact refl_of Becomes _

/-- What a show does when it begins. -/
theorem eval_begin_of_idle {s : Show α} (idle : s.phase = .idle) :
    begin.eval s = (dispatchAll s.program.preCues >>= fun _ => checkDrain).eval
      (s.entered .running) := by
  simp only [begin, Act.eval_bind, Act.eval_get, if_pos idle, eval_enterPhase]
  rw [if_neg (by rw [idle]; decide)]

theorem becomes_opening (s : Show α) :
    Becomes s ((dispatchAll s.program.preCues >>= fun _ => checkDrain).eval s).2 :=
  Act.keeps_bind (becomes_dispatchAll _) (fun _ => becomes_checkDrain) s

theorem becomes_begin : (begin : Act (Show α) Unit).Keeps Becomes := by
  intro s
  by_cases idle : s.phase = .idle
  · rw [eval_begin_of_idle idle]
    exact trans_of Becomes (Alters.begins idle).becomes (becomes_opening (s.entered .running))
  · simp only [begin, Act.eval_bind, Act.eval_get, if_neg idle, Act.eval_pure]
    exact refl_of Becomes s

theorem becomes_recordProgress {s : Show α} (running : s.running = true) (clock : String)
    (value : Option α) : Becomes s ((onGraph (Graph.recordProgress clock value)).eval s).2 := by
  have kept : ∃ progress, ((Graph.recordProgress clock value).eval s.graph).2 =
      { s.graph with progress } := by
    cases value with
    | none =>
      simp only [Graph.recordProgress, Act.eval_bind, Act.eval_get, Act.eval_modify]
      split <;> exact ⟨_, rfl⟩
    | some value =>
      rw [eval_recordProgress]
      exact ⟨_, rfl⟩
  obtain ⟨progress, kept⟩ := kept
  -- Losing a value is a fault, but it too changes nothing else.
  have after : ((onGraph (Graph.recordProgress clock value)).eval s).2 =
      { s with desk := { s.desk with graph := { s.desk.graph with progress } } } :=
    congrArg (fun graph => { s with desk := { s.desk with graph } }) kept
  rw [after]
  exact (Alters.hears running).becomes

theorem becomes_handleProgress {s : Show α} (running : s.running = true) (clock : String)
    (value : Option α) : Becomes s ((handleProgress clock value).eval s).2 := by
  refine Act.kept_bind (becomes_recordProgress running clock value) fun _ _ => ?_
  have still : ((onGraph (Graph.recordProgress clock value)).eval s).2.running = true := running
  generalize ((onGraph (Graph.recordProgress clock value)).eval s).2 = t at still
  cases value with
  | none => exact refl_of Becomes t
  | some value =>
    refine Act.kept_bind (refl_of Becomes t) fun _ _ => Act.kept_bind (refl_of Becomes t) ?_
    rintro _ ⟨rfl⟩
    exact becomes_dispatchUpTo still value _

theorem becomes_handleCallback {s : Show α} (running : s.running = true) (node : String)
    (event : Option String) : Becomes s ((handleCallback node event).eval s).2 := by
  cases event with
  | none => exact refl_of Becomes s
  | some event =>
    refine Act.kept_bind (refl_of Becomes s) ?_
    rintro _ ⟨rfl⟩
    show Becomes s (Act.eval (if _ then _ else _) s).2
    split
    · exact refl_of Becomes s
    · have released : (Act.info s!"Callback {event} from {node}" >>= fun _ =>
          dispatchAll (s.program.callbackCuesOn node event)).Keeps Becomes :=
        Act.keeps_bind (Act.keeps_log _ _) fun _ => becomes_dispatchAll _
      split
      · exact Act.kept_bind (Alters.reports running).becomes fun _ _ => released _
      · exact released s

theorem becomes_handle (signal : Signal α) : (handle signal).Keeps Becomes := by
  intro s
  refine Act.kept_bind (refl_of Becomes s) ?_
  rintro _ ⟨rfl⟩
  show Becomes s (Act.eval (if s.running = true then _ else _) s).2
  split
  · next running =>
    cases signal with
    | stop reason => exact becomes_terminate _ s
    | progress source value =>
      cases found : s.graph.resolve source with
      | none =>
        simp only [found]
        exact refl_of Becomes s
      | some clock =>
        simp only [found]
        exact becomes_handleProgress running clock value
    | callback source event =>
      cases found : s.graph.resolve source with
      | none =>
        simp only [found]
        exact refl_of Becomes s
      | some node =>
        simp only [found]
        exact becomes_handleCallback running node event
  · exact refl_of Becomes s

theorem becomes_tick : (tick : Act (Show α) (List String)).Keeps Becomes := by
  intro s
  refine Act.kept_bind (refl_of Becomes s) ?_
  rintro _ ⟨rfl⟩
  split
  · next running =>
    refine Act.kept_bind (Alters.advances running (Desk.wired_advance s.desk)).becomes fun _ _ => ?_
    exact Act.keeps_bind becomes_checkDrain (fun _ => Act.keeps_pure _) _
  · exact refl_of Becomes s

theorem becomes_act (operation : Operation α) : operation.act.Keeps Becomes := by
  cases operation with
  | begin => exact becomes_begin
  | handle signal => exact becomes_handle signal
  | tick => exact Act.keeps_bind becomes_tick fun _ => Act.keeps_pure _
  | terminate reason => exact becomes_terminate reason

/-! What operations leave as it is -/

/-- No node has got another handle or name, and a show that goes on has its signals untouched. -/
structure Attends (s t : Show α) : Prop where
  handles : t.graph.handles = s.graph.handles
  names : t.graph.nodes.keys = s.graph.nodes.keys
  signals : t.isOver = false → s.isOver = false ∧ t.channel = s.channel

omit [Number α] in
instance : IsPreorder (Show α) Attends where
  refl _ := ⟨rfl, rfl, fun notOver => ⟨notOver, rfl⟩⟩
  trans _ _ _ first second := by
    refine ⟨second.handles.trans first.handles, second.names.trans first.names, fun notOver => ?_⟩
    obtain ⟨before, same⟩ := second.signals notOver
    exact ⟨(first.signals before).1, same.trans (first.signals before).2⟩

omit [Number α] in
theorem Attends.resolve {s t : Show α} (attends : Attends s t) (handle : Handle) :
    t.graph.resolve handle = s.graph.resolve handle := by
  have named (name : String) : t.graph.nodes.contains name = s.graph.nodes.contains name := by
    rw [Bool.eq_iff_iff, Table.contains_iff, Table.contains_iff, attends.names]
  simp only [Graph.resolve, attends.handles, named]

omit [Number α] in
theorem Alters.attends {s t : Show α} (alters : Alters s t) : Attends s t := by
  cases alters with
  | begins idle => exact ⟨rfl, rfl, fun _ => ⟨isOver_eq_false.2 (.inl idle), rfl⟩⟩
  | fires _ performs =>
    exact ⟨performs.graph.handles, performs.graph.names, fun notOver => ⟨notOver, rfl⟩⟩
  | advances _ wired => exact ⟨wired.handles, wired.names, fun notOver => ⟨notOver, rfl⟩⟩
  | @ends reason cancel => cases cancel <;> exact ⟨rfl, rfl, nofun⟩
  | completes | hears | reports => exact ⟨rfl, rfl, fun notOver => ⟨notOver, rfl⟩⟩

theorem attends_act (operation : Operation α) : operation.act.Keeps Attends :=
  fun s => (becomes_act operation s).preserves fun _ _ => Alters.attends

end ShowControl.Show
