import Mathlib.Data.List.Infix
import ShowControl.Proofs.Show.Run

/-! When progress cues fire.

In a run, the cues of a clock fire in the order of its timeline, and while the show is running exactly
those have fired whose threshold the largest progress so far has come to. How the progress was
sampled, and what other signals came in between, makes no difference. -/

set_option autoImplicit false
namespace ShowControl

/-! Predicates that hold of the front part of a list -/

section Front

variable {β : Type}

theorem filter_eq_nil_of_head {p : β → Bool} {a : β} {l : List β}
    (front : (a :: l).Pairwise fun a b => p b = true → p a = true) (fails : ¬p a = true) :
    l.filter p = [] :=
  List.filter_eq_nil_iff.2 fun b member holds =>
    fails ((List.pairwise_cons.1 front).1 b member holds)

theorem filter_isPrefix {p : β → Bool} {l : List β}
    (front : l.Pairwise fun a b => p b = true → p a = true) : l.filter p <+: l := by
  induction l with
  | nil => exact List.prefix_rfl
  | cons a l ih =>
    by_cases holds : p a = true
    · rw [List.filter_cons_of_pos holds]
      exact List.cons_prefix_cons.2 ⟨rfl, ih (List.pairwise_cons.1 front).2⟩
    · rw [List.filter_cons_of_neg holds, filter_eq_nil_of_head front holds]
      exact List.nil_prefix

theorem filter_append_takeWhile {p q : β → Bool} {l : List β}
    (first : l.Pairwise fun a b => p b = true → p a = true)
    (second : l.Pairwise fun a b => q b = true → q a = true) :
    l.filter p ++ (l.filter fun a => !p a).takeWhile q = l.filter fun a => p a || q a := by
  induction l with
  | nil => rfl
  | cons a l ih =>
    have rest := ih (List.pairwise_cons.1 first).2 (List.pairwise_cons.1 second).2
    by_cases holds : p a = true
    · simp [holds, rest]
    · have none := filter_eq_nil_of_head first holds
      rw [none] at rest
      by_cases holds' : q a = true
      · simpa [holds, holds', none] using rest
      · have none' := filter_eq_nil_of_head second holds'
        have neither : ∀ b ∈ l, ¬(p b || q b) = true := by
          intro b member either
          rcases Bool.or_eq_true_iff.1 either with left | right
          · exact List.filter_eq_nil_iff.1 none b member left
          · exact List.filter_eq_nil_iff.1 none' b member right
        simp [holds, holds', none, List.filter_eq_nil_iff.2 neither]

end Front

variable {α : Type} [Number α]

def Step.heard? (step : Step α) (clock : String) : Option α :=
  (step.before.hears? step.operation).bind fun (other, value) =>
    if other = clock then some value else none

def heardOn (steps : List (Step α)) (clock : String) : List α :=
  steps.filterMap fun step => step.heard? clock

namespace Program

def reachedBy (values : List α) (entry : α × Cue α) : Bool :=
  values.any fun value => entry.1 ≤ value

/-- The cues of a clock whose threshold the progress has come to, in the order of the timeline. -/
def reached (p : Program α) (clock : String) (peak : Option α) : List (Cue α) :=
  ((p.timelineOn clock).filter fun entry => peak.any fun value => entry.1 ≤ value).map Prod.snd

variable [Number.Ordered α]

theorem reached_front {p : Program α} (numbered : p.Numbered) (comparable : p.Comparable)
    (clock : String) (value : α) :
    (p.timelineOn clock).Pairwise fun a b =>
      decide (b.1 ≤ value) = true → decide (a.1 ≤ value) = true := by
  refine (timelineOn_sorted numbered comparable clock).imp_of_mem ?_
  intro a b left right before come
  have left := comparable_of_mem_timelineOn comparable left
  have right := comparable_of_mem_timelineOn comparable right
  have upTo : a.1 ≤ b.1 := by
    rcases before with below | ⟨notAbove, _⟩
    · exact Number.le_of_lt left right below
    · exact (Number.not_lt_iff right left).1 notAbove
  exact decide_eq_true (Number.Ordered.le_trans upTo (of_decide_eq_true come))

theorem reachedBy_front {p : Program α} (numbered : p.Numbered) (comparable : p.Comparable)
    (clock : String) (values : List α) :
    (p.timelineOn clock).Pairwise fun a b =>
      reachedBy values b = true → reachedBy values a = true := by
  simp only [reachedBy, List.any_eq_true]
  induction values with
  | nil => exact List.pairwise_of_forall (by simp)
  | cons value values ih =>
    refine ((reached_front numbered comparable clock value).and ih).imp ?_
    rintro a b ⟨first, later⟩ ⟨v, member, come⟩
    rcases List.mem_cons.1 member with rfl | member
    · exact ⟨v, List.mem_cons_self, first come⟩
    · obtain ⟨w, member, come⟩ := later ⟨v, member, come⟩
      exact ⟨w, List.mem_cons_of_mem _ member, come⟩

end Program

namespace Show

theorem filter_due (s : Show α) (value : α) (clock other : String) :
    (s.due value (s.program.timelineOn clock)).filter (fun cue => cue.timedOn other) =
      if clock = other then s.due value (s.program.timelineOn clock) else [] := by
  have timed {cue : Cue α} (member : cue ∈ s.due value (s.program.timelineOn clock)) :
      ∃ threshold, cue.trigger = .progress clock threshold := by
    obtain ⟨⟨threshold, onLine⟩, _⟩ := mem_of_mem_due member
    exact ⟨threshold, Cue.thresholdOn?_eq_some.1 (Program.mem_timelineOn.1 onLine).2⟩
  split
  · next same =>
    refine List.filter_eq_self.2 fun cue member => ?_
    obtain ⟨threshold, trigger⟩ := timed member
    simp [Cue.timedOn, Cue.thresholdOn?, trigger, same]
  · next different =>
    refine List.filter_eq_nil_iff.2 fun cue member => ?_
    obtain ⟨threshold, trigger⟩ := timed member
    simp [Cue.timedOn, Cue.thresholdOn?, trigger, different]

theorem filter_released (s : Show α) (operation : Operation α) (clock : String) :
    (s.released operation).filter (fun cue => cue.timedOn clock) =
      match s.hears? operation with
      | some (other, value) =>
        if other = clock then s.due value (s.program.timelineOn other) else []
      | none => [] := by
  cases heard : s.hears? operation with
  | none =>
    refine List.filter_eq_nil_iff.2 fun cue member timed => ?_
    obtain ⟨threshold, on⟩ := Option.isSome_iff_exists.1 timed
    have pulled := (mem_released member).2
    rw [Cue.thresholdOn?_eq_some.1 on] at pulled
    obtain ⟨⟨value, heard'⟩, _⟩ := pulled
    cases heard.symm.trans heard'
  | some found =>
    obtain ⟨other, value⟩ := found
    have due : s.released operation = s.due value (s.program.timelineOn other) := by
      cases operation with
      | handle signal => simp [released, heard]
      | _ => cases heard
    rw [due, filter_due]

/-- How far the cues of a clock have fired after some steps. -/
structure Firing (p : Program α) (clock : String) (steps : List (Step α)) (s : Show α) : Prop where
  known : ∀ cue ∈ s.dispatched, cue ∈ p.cues
  unstarted : s.phase = .idle → s.dispatched = [] ∧ heardOn steps clock = []
  inOrder : s.dispatched.filter (fun cue => cue.timedOn clock) <+:
    (p.timelineOn clock).map Prod.snd
  upTo : s.running = true → s.dispatched.filter (fun cue => cue.timedOn clock) =
    ((p.timelineOn clock).filter (Program.reachedBy (heardOn steps clock))).map Prod.snd

theorem firing_of_fresh {s : Show α} (fresh : s.Fresh) (clock : String) :
    Firing s.program clock [] s where
  known := by simp [fresh.dispatched]
  unstarted _ := ⟨fresh.dispatched, rfl⟩
  inOrder := by simp [fresh.dispatched]
  upTo running := by simp [fresh.idle, Show.running] at running

theorem Firing.hasFired_iff {p : Program α} {clock : String} {steps : List (Step α)} {s : Show α}
    (firing : Firing p clock steps s) (numbered : p.Numbered) (running : s.running = true)
    {entry : α × Cue α} (member : entry ∈ p.timelineOn clock) :
    s.hasFired entry.2 = Program.reachedBy (heardOn steps clock) entry := by
  obtain ⟨present, on⟩ := Program.mem_timelineOn.1 member
  have timed : entry.2.timedOn clock = true := by simp [Cue.timedOn, on]
  rw [Bool.eq_iff_iff, Show.hasFired_iff]
  constructor
  · intro fired
    obtain ⟨cue, dispatched, order⟩ := List.mem_map.1 fired
    -- The orders tell the cues of a program apart.
    obtain rfl := numbered.eq_of_order (firing.known cue dispatched) present order
    have among : entry.2 ∈ s.dispatched.filter fun cue => cue.timedOn clock :=
      List.mem_filter.2 ⟨dispatched, timed⟩
    rw [firing.upTo running] at among
    obtain ⟨other, reached, same⟩ := List.mem_map.1 among
    obtain ⟨onLine, reached⟩ := List.mem_filter.1 reached
    have on' := (Program.mem_timelineOn.1 onLine).2
    rw [same, on, Option.some.injEq] at on'
    obtain rfl : entry = other := Prod.ext on' same.symm
    exact reached
  · intro reached
    have among : entry.2 ∈ s.dispatched.filter fun cue => cue.timedOn clock := by
      rw [firing.upTo running]
      exact List.mem_map.2 ⟨entry, List.mem_filter.2 ⟨member, reached⟩, rfl⟩
    exact List.mem_map.2 ⟨entry.2, List.mem_of_mem_filter among, rfl⟩

omit [Number α] in
theorem running_of_heard? {s t : Show α} {operation : Operation α} {clock : String} {value : α}
    (heard : Step.heard? ⟨s, operation, t⟩ clock = some value) :
    s.running = true ∧ s.hears? operation = some (clock, value) := by
  obtain ⟨⟨other, v⟩, found, same⟩ := Option.bind_eq_some_iff.1 heard
  simp only [Option.ite_none_right_eq_some, Option.some.injEq] at same
  obtain ⟨rfl, rfl⟩ := same
  refine ⟨?_, found⟩
  simp only [hears?] at found
  split at found
  · split at found
    · next running => exact running
    · cases found
  · cases found

omit [Number α] in
theorem heardOn_append (steps : List (Step α)) (step : Step α) (clock : String) :
    heardOn (steps ++ [step]) clock = heardOn steps clock ++ (step.heard? clock).toList := by
  cases heard : step.heard? clock <;> simp [heardOn, heard]

theorem Firing.silent {p : Program α} {clock : String} {steps : List (Step α)} {s t : Show α}
    {operation : Operation α} (firing : Firing p clock steps s) (does : Does s operation t)
    (known : ∀ cue ∈ t.dispatched, cue ∈ p.cues)
    (heard : Step.heard? ⟨s, operation, t⟩ clock = none) :
    Firing p clock (steps ++ [⟨s, operation, t⟩]) t := by
  obtain ⟨fired, first, dispatched, _⟩ := does.dispatches
  have none : (s.released operation).filter (fun cue => cue.timedOn clock) = [] := by
    rw [filter_released]
    split
    · next other value hears =>
      refine if_neg fun same => ?_
      simp [Step.heard?, hears, same] at heard
    · rfl
  have part := first.filter fun cue => cue.timedOn clock
  rw [none] at part
  have same : t.dispatched.filter (fun cue => cue.timedOn clock) =
      s.dispatched.filter fun cue => cue.timedOn clock := by
    rw [dispatched, List.filter_append, List.prefix_nil.1 part, List.append_nil]
  have values : heardOn (steps ++ [⟨s, operation, t⟩]) clock = heardOn steps clock := by
    simp [heardOn_append, heard]
  constructor
  · exact known
  · intro idle
    obtain rfl := does.eq_of_idle idle
    rw [values]
    exact firing.unstarted idle
  · rw [same]
    exact firing.inOrder
  · intro running
    rw [same, values]
    -- A show that is running now was running before, or has just begun and heard nothing.
    rcases does.phase with rfl | ⟨before, _⟩ | ⟨idle, _⟩ | ⟨_, finished⟩
    · exact firing.upTo running
    · exact firing.upTo (running_iff_phase.2 before)
    · obtain ⟨dispatched, unheard⟩ := firing.unstarted idle
      have unreached : (p.timelineOn clock).filter (Program.reachedBy (heardOn steps clock)) = [] :=
        List.filter_eq_nil_iff.2 fun _ _ => by simp [unheard, Program.reachedBy]
      rw [dispatched, unreached]
      rfl
    · simp [running_iff_phase.1 running] at finished

variable [Number.Ordered α]

/-- The scan stops at a threshold above the value; as all are comparable, that is the first one that
the value has not come to. -/
theorem scan_eq {p : Program α} (comparable : p.Comparable) {clock : String} {value : α}
    (defined : Number.Comparable value) {entry : α × Cue α} (member : entry ∈ p.timelineOn clock) :
    (!decide (value < entry.1)) = decide (entry.1 ≤ value) := by
  have threshold := Program.comparable_of_mem_timelineOn comparable member
  rw [← decide_not, decide_eq_decide]
  exact Number.not_lt_iff defined threshold

theorem scan_front {p : Program α} (numbered : p.Numbered) (comparable : p.Comparable)
    (clock : String) {value : α} (defined : Number.Comparable value) :
    (p.timelineOn clock).Pairwise fun a b =>
      (!decide (value < b.1)) = true → (!decide (value < a.1)) = true := by
  refine (Program.reached_front numbered comparable clock value).imp_of_mem ?_
  intro a b left right front
  rwa [scan_eq comparable defined left, scan_eq comparable defined right]

theorem mem_due {s : Show α} (numbered : s.program.Numbered) (comparable : s.program.Comparable)
    {clock : String} {value threshold : α} (defined : Number.Comparable value) {cue : Cue α}
    (present : cue ∈ s.program.cues) (trigger : cue.trigger = .progress clock threshold)
    (come : threshold ≤ value) (unfired : s.hasFired cue = false) :
    cue ∈ s.due value (s.program.timelineOn clock) := by
  have front := (scan_front numbered comparable clock defined).sublist
    (List.filter_sublist (p := fun entry => !s.hasFired entry.2))
  -- Of the entries that have not fired, the scan takes all those that the value has come to.
  have scan := filter_append_takeWhile (p := fun _ => false)
    (List.pairwise_of_forall fun _ _ impossible => impossible) front
  simp only [List.filter_false, List.nil_append, Bool.not_false, List.filter_true,
    Bool.false_or] at scan
  have onLine : (threshold, cue) ∈ s.program.timelineOn clock :=
    Program.mem_timelineOn.2 ⟨present, Cue.thresholdOn?_eq_some.2 trigger⟩
  rw [due, scan]
  refine List.mem_map.2 ⟨(threshold, cue), ?_, rfl⟩
  refine List.mem_filter.2 ⟨List.mem_filter.2 ⟨onLine, by simp [unfired]⟩, ?_⟩
  rw [scan_eq comparable defined onLine]
  exact decide_eq_true come

theorem Firing.reached_due {p : Program α} {clock : String} {steps : List (Step α)} {s : Show α}
    (firing : Firing p clock steps s) (numbered : p.Numbered) (comparable : p.Comparable)
    (running : s.running = true) {value : α} (defined : Number.Comparable value) :
    ((p.timelineOn clock).filter (Program.reachedBy (heardOn steps clock))).map Prod.snd ++
        s.due value (p.timelineOn clock) =
      ((p.timelineOn clock).filter
        (Program.reachedBy (heardOn steps clock ++ [value]))).map Prod.snd := by
  -- What has fired is what earlier values have reached, so the scan goes on where they stopped.
  have unfired : (p.timelineOn clock).filter (fun entry => !s.hasFired entry.2) =
      (p.timelineOn clock).filter fun entry =>
        !Program.reachedBy (heardOn steps clock) entry :=
    List.filter_congr fun entry member => by rw [firing.hasFired_iff numbered running member]
  rw [due, unfired, ← List.map_append,
    filter_append_takeWhile (Program.reachedBy_front numbered comparable clock _)
      (scan_front numbered comparable clock defined)]
  refine congrArg _ (List.filter_congr fun entry member => ?_)
  rw [scan_eq comparable defined member]
  simp [Program.reachedBy]

theorem Firing.heard {p : Program α} {clock : String} {steps : List (Step α)} {s t : Show α}
    {operation : Operation α} (firing : Firing p clock steps s) (numbered : p.Numbered)
    (comparable : p.Comparable) (program : s.program = p) (does : Does s operation t)
    (known : ∀ cue ∈ t.dispatched, cue ∈ p.cues) {value : α} (defined : Number.Comparable value)
    (heard : Step.heard? ⟨s, operation, t⟩ clock = some value) :
    Firing p clock (steps ++ [⟨s, operation, t⟩]) t := by
  obtain ⟨fired, first, dispatched, all⟩ := does.dispatches
  obtain ⟨running, hears⟩ := running_of_heard? heard
  have due : (s.released operation).filter (fun cue => cue.timedOn clock) =
      s.due value (p.timelineOn clock) := by
    simp [filter_released, hears, program]
  have reached := firing.reached_due numbered comparable running defined
  rw [← firing.upTo running, ← due] at reached
  have values : heardOn (steps ++ [⟨s, operation, t⟩]) clock = heardOn steps clock ++ [value] := by
    simp [heardOn_append, heard]
  have part : t.dispatched.filter (fun cue => cue.timedOn clock) =
      s.dispatched.filter (fun cue => cue.timedOn clock) ++
        fired.filter fun cue => cue.timedOn clock := by
    rw [dispatched, List.filter_append]
  constructor
  · exact known
  · intro idle
    obtain rfl := does.eq_of_idle idle
    simp [idle, running_iff_phase] at running
  · rw [part]
    -- If one of the cues ends the show, only a front part of what is due has fired.
    refine ((List.prefix_append_right_inj _).2 (first.filter _)).trans ?_
    rw [reached]
    exact (filter_isPrefix (Program.reachedBy_front numbered comparable clock _)).map Prod.snd
  · intro still
    rw [part, all still, values, reached]

theorem Firing.step {p : Program α} {clock : String} {steps : List (Step α)} {s t : Show α}
    {operation : Operation α} (firing : Firing p clock steps s) (numbered : p.Numbered)
    (comparable : p.Comparable) (program : s.program = p) (does : Does s operation t)
    (defined : ∀ v ∈ heardOn (steps ++ [⟨s, operation, t⟩]) clock, Number.Comparable v) :
    Firing p clock (steps ++ [⟨s, operation, t⟩]) t := by
  have known : ∀ cue ∈ t.dispatched, cue ∈ p.cues := by
    obtain ⟨fired, first, dispatched, _⟩ := does.dispatches
    intro cue member
    rw [dispatched] at member
    rcases List.mem_append.1 member with before | now
    · exact firing.known cue before
    · exact program ▸ (mem_released (first.subset now)).1
  cases heard : Step.heard? ⟨s, operation, t⟩ clock with
  | none => exact firing.silent does known heard
  | some value =>
    refine firing.heard numbered comparable program does known (defined value ?_) heard
    simp [heardOn_append, heard]

end Show

/-- In every run, the cues of a clock fire in the order of thresholds and, at one threshold, in
script order; and while the show is running, those have fired that the largest progress of the clock
has reached. -/
theorem progress_cues_fire_in_order [Number.Ordered α] {s t : Show α} {steps : List (Step α)}
    {clock : String} (compiled : s.program.Compiled) (fresh : s.Fresh) (run : Run s steps t)
    (defined : ∀ value ∈ heardOn steps clock, Number.Comparable value) :
    (s.program.timelineOn clock).Pairwise Program.precedes ∧
    ((s.program.timelineOn clock).map Prod.snd).Perm
      (s.program.cues.filter fun cue => cue.timedOn clock) ∧
    t.dispatched.filter (fun cue => cue.timedOn clock) <+:
      (s.program.timelineOn clock).map Prod.snd ∧
    (t.running = true → t.dispatched.filter (fun cue => cue.timedOn clock) =
      s.program.reached clock (Number.largest? (heardOn steps clock))) := by
  have numbered := compiled.numbered
  have comparable := compiled.comparable
  -- The progress heard so far is part of what the whole run hears.
  have along := run.preserves numbered
    (P := fun steps t => (∀ value ∈ heardOn steps clock, Number.Comparable value) →
      Show.Firing s.program clock steps t)
    (fun _ => Show.firing_of_fresh fresh clock)
    (fun program _ firing does defined =>
      (firing fun value member => defined value (by
        rw [Show.heardOn_append]
        exact List.mem_append_left _ member)).step numbered comparable program does defined)
  have firing := along.1 defined
  refine ⟨Program.timelineOn_sorted numbered comparable clock,
    s.program.cues_timelineOn clock, firing.inOrder, fun running => ?_⟩
  rw [firing.upTo running, Program.reached]
  refine congrArg _ (List.filter_congr fun entry _ => ?_)
  have same := Number.reached_iff_largest? defined entry.1
  rw [Bool.eq_iff_iff, Program.reachedBy, List.any_eq_true, Option.any_eq_true]
  simpa using same

set_option maxRecDepth 20000 in
/-- The sample show after its first progress. -/
theorem progress_cues_fire_in_order_sample :
    let operations := Sample.events.take 2
    let steps := Sample.built.steps operations
    let t := Sample.built.after operations
    Sample.built.program.Compiled ∧ Sample.built.Fresh ∧ Run Sample.built steps t ∧
      (∀ value ∈ heardOn steps "a", Number.Comparable value) ∧ t.running = true ∧
      t.dispatched.filter (fun cue => cue.timedOn "a") =
        Sample.built.program.reached "a" (Number.largest? (heardOn steps "a")) := by
  intro operations steps t
  have checks : (Sample.built.passes operations &&
      (heardOn steps "a").all (fun value => decide (Number.Comparable value)) && t.running) =
        true := by
    decide +kernel
  obtain ⟨checks, running⟩ := Bool.and_eq_true_iff.1 checks
  obtain ⟨passes, comparable⟩ := Bool.and_eq_true_iff.1 checks
  have run : Run Sample.built steps t := run_of_passes passes
  have defined : ∀ value ∈ heardOn steps "a", Number.Comparable value := fun value member =>
    of_decide_eq_true (List.all_eq_true.1 comparable value member)
  have law := progress_cues_fire_in_order Sample.compiled Sample.fresh run defined
  exact ⟨Sample.compiled, Sample.fresh, run, defined, running, law.2.2.2 running⟩

end ShowControl
