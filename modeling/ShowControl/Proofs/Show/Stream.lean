import ShowControl.Proofs.Show.Playback

/-! The streams of simulated clocks.

Whatever the nodes are commanded to do, each clock reports progress between none and all, and its end
just when it has got through. Until a step finds its node stopped or with another segment, the progress
goes on from where it was, and after the end there is no more. -/

set_option autoImplicit false
namespace ShowControl

variable {α : Type} [Number α]

/-! Observations -/

namespace Observation

def value? (m : Observation α) : Option α :=
  match m.reports with
  | .progress _ value :: _ => some value
  | _ => none

def Ends (m : Observation α) : Prop := .callback m.node.handle (some "end") ∈ m.reports

def Orderly (m : Observation α) : Prop :=
  m.reports = [] ∨ m.node.transport = .playing ∧
    ((∃ value, 0 ≤ value ∧ value < 1 ∧ m.reports = [.progress m.node.handle value]) ∨
      m.reports = [.progress m.node.handle 1, .callback m.node.handle (some "end")])

end Observation

/-- No step but the first finds the node stopped or with another segment than the step before. -/
def Undisturbed (stretch : List (Observation α)) : Prop :=
  stretch.IsChain fun earlier later =>
    later.node.transport ≠ .stopped ∧ later.node.segment = earlier.node.segment

/-- What follows a step undisturbed goes on from it: there is nothing after an end, the progress does
not go back, and after a silence it goes on from the last report. -/
structure Observation.Continues (duration : α) (first : Observation α)
    (rest : List (Observation α)) : Prop where
  silent : first.Ends → ∀ m ∈ rest, m.reports = []
  sorted : ((first :: rest).filterMap Observation.value?).Pairwise (· ≤ ·)
  resumes {between : List (Observation α)} {last : Observation α} {value next : α} :
    rest = between ++ [last] → (∀ m ∈ between, m.reports = []) → first.value? = some value →
    last.value? = some next → next = Number.atMost 1 (value + last.dt / duration)

def Clock.Calm (c : Clock α) (m : Observation α) : Prop :=
  m.node.transport ≠ .stopped ∧ c.segment = m.node.segment

omit [Number α] in
theorem Undisturbed.segment {first : Observation α} {rest : List (Observation α)}
    (undisturbed : Undisturbed (first :: rest)) :
    ∀ m ∈ rest, m.node.transport ≠ .stopped ∧ m.node.segment = first.node.segment := by
  induction rest generalizing first with
  | nil => exact List.forall_mem_nil _
  | cons next rest ih =>
    obtain ⟨⟨unstopped, same⟩, later⟩ := List.isChain_cons_cons.1 undisturbed
    intro m member
    rcases List.mem_cons.1 member with rfl | member
    · exact ⟨unstopped, same⟩
    · obtain ⟨unstopped', same'⟩ := ih later m member
      exact ⟨unstopped', same'.trans same⟩

/-! One step of a clock -/

namespace Clock

theorem run_eq_some {duration dt : α} {transport : Transport} {c c' : Clock α} {beat : Beat α}
    (ran : c.run duration dt transport = (c', some beat)) :
    transport = .playing ∧ c.ended = false ∧
      c'.elapsed = Number.atMost duration (c.elapsed + dt) ∧
      beat = ⟨c'.elapsed / duration, duration ≤ c'.elapsed⟩ ∧ c'.ended = beat.atEnd := by
  unfold run at ran
  split at ran
  · cases ran
  · cases ran
  · split at ran
    · cases ran
    · next going =>
      cases ran
      exact ⟨rfl, Bool.eq_false_iff.2 going, rfl, rfl, rfl⟩

theorem run_eq_none {duration dt : α} {transport : Transport} {c c' : Clock α}
    (ran : c.run duration dt transport = (c', none)) (unstopped : transport ≠ .stopped) : c' = c := by
  cases transport with
  | stopped => exact absurd rfl unstopped
  | paused =>
    cases ran
    rfl
  | playing =>
    unfold run at ran
    dsimp only at ran
    split at ran
    · cases ran
      rfl
    · cases ran

theorem of_reports {c c' : Clock α} {duration : α} {m : Observation α} {beat : Option (Beat α)}
    (stepped : c.step duration m.dt m.node = (c', beat))
    (reported : m.reports = beat.toList.flatMap (Beat.emissions m.node)) :
    (∀ value, m.value? = some value → value = c'.elapsed / duration) ∧
      (m.Ends → c'.ended = true) := by
  unfold Observation.value? Observation.Ends
  rw [reported]
  cases beat with
  | none => exact ⟨nofun, nofun⟩
  | some beat =>
    obtain ⟨-, -, -, rfl, ended⟩ := run_eq_some stepped
    constructor
    · rintro value ⟨⟩
      rfl
    · intro ends
      rw [ended]
      by_contra going
      simp [Beat.emissions, going] at ends

end Clock

section Exact

open Number.Exact

variable [Number.Exact α] {duration : α}

structure Clock.Within (duration : α) (c : Clock α) : Prop where
  above : 0 ≤ c.elapsed
  below : c.elapsed ≤ duration

namespace Clock

theorem within_start (positive : 0 < duration) : Within duration start :=
  ⟨comparable 0, Number.le_of_lt (comparable 0) (comparable duration) positive⟩

theorem Within.observe {c : Clock α} (positive : 0 < duration) (within : c.Within duration)
    (node : Node α) : (c.observe duration node).Within duration := by
  rw [Clock.observe]
  split
  · exact within
  cases node.segment with
  | none => exact ⟨within.above, within.below⟩
  | some segment =>
    rw [lt_iff, zero] at positive
    constructor
    · rw [le_iff, value_atMost, value_atLeast, zero]
      exact le_min positive.le (le_max_left _ _)
    · rw [le_iff, value_atMost]
      exact min_le_left _ _

theorem Within.run {c : Clock α} (positive : 0 < duration) (within : c.Within duration) {dt : α}
    (forward : 0 ≤ dt) (transport : Transport) : (c.run duration dt transport).1.Within duration := by
  cases transport with
  | stopped => exact ⟨(within_start positive).above, (within_start positive).below⟩
  | paused => exact within
  | playing =>
    unfold Clock.run
    dsimp only
    split
    · exact within
    · have above := within.above
      rw [le_iff, zero] at forward above
      rw [lt_iff, zero] at positive
      constructor
      · rw [le_iff, value_atMost, add, zero]
        exact le_min positive.le (add_nonneg above forward)
      · rw [le_iff, value_atMost]
        exact min_le_left _ _

theorem Within.step {c : Clock α} (positive : 0 < duration) (within : c.Within duration) {dt : α}
    (forward : 0 ≤ dt) (node : Node α) : (c.step duration dt node).1.Within duration :=
  (within.observe positive node).run positive forward node.transport

theorem orderly_step {c : Clock α} (positive : 0 < duration) (within : c.Within duration)
    {m : Observation α} (forward : 0 ≤ m.dt) (reported : m.reports =
      (c.step duration m.dt m.node).2.toList.flatMap (Beat.emissions m.node)) : m.Orderly := by
  have after := within.step positive forward m.node
  generalize ran : c.step duration m.dt m.node = outcome at after reported
  obtain ⟨c', _ | beat⟩ := outcome
  · exact .inl reported
  · obtain ⟨playing, -, -, rfl, -⟩ := run_eq_some ran
    have reports : m.reports = Beat.emissions m.node _ := reported.trans (List.flatMap_singleton _ _)
    refine .inr ⟨playing, ?_⟩
    have above := after.above
    have positive' := positive
    rw [le_iff, zero] at above
    rw [lt_iff, zero] at positive
    -- The time is held at the duration, so that the end comes with full progress.
    by_cases come : duration ≤ c'.elapsed
    · have same : c'.elapsed = duration :=
        injective (le_antisymm (le_iff.1 after.below) (le_iff.1 come))
      have full : duration ≤ duration := comparable duration
      rw [reports, Beat.emissions, same, quotient_self positive']
      simp only [full, decide_true, if_true, or_true]
    · rw [le_iff, not_le] at come
      refine .inl ⟨c'.elapsed / duration, ?_, ?_, ?_⟩
      · rw [le_iff, zero, div]
        exact div_nonneg above positive.le
      · rw [lt_iff, one, div, div_lt_one positive]
        exact come
      · rw [reports, Beat.emissions]
        simp [le_iff, come]

end Clock

end Exact

/-! Undisturbed stretches -/

namespace Clock

variable [Number.Equated α] {c : Clock α}

theorem Calm.cases {m : Observation α} (calm : c.Calm m) {duration : α} (reported : m.reports =
      (c.step duration m.dt m.node).2.toList.flatMap (Beat.emissions m.node)) :
    (m.reports = [] ∧ (c.step duration m.dt m.node).1 = c) ∨
      c.ended = false ∧ m.value? = some ((c.step duration m.dt m.node).1.elapsed / duration) ∧
        (c.step duration m.dt m.node).1.elapsed = Number.atMost duration (c.elapsed + m.dt) := by
  obtain ⟨unstopped, seen⟩ := calm
  generalize ran : c.step duration m.dt m.node = outcome at reported
  rw [step, observe_of_seen seen] at ran
  obtain ⟨c', _ | beat⟩ := outcome
  · exact .inl ⟨reported, run_eq_none ran unstopped⟩
  · obtain ⟨-, going, elapsed, rfl, -⟩ := run_eq_some ran
    refine .inr ⟨going, ?_, elapsed⟩
    rw [Observation.value?, reported]
    rfl

theorem calm_step {m : Observation α} {rest : List (Observation α)} (duration : α)
    (calm : ∀ later ∈ m :: rest, c.Calm later) :
    ∀ later ∈ rest, (c.step duration m.dt m.node).1.Calm later := by
  obtain ⟨here, there⟩ := List.forall_mem_cons.1 calm
  intro later member
  refine ⟨(there later member).1, ?_⟩
  rw [step, observe_of_seen here.2, (seen_run ..).1]
  exact (there later member).2

theorem Runs.silent {duration : α} {rest : List (Observation α)} (runs : Runs duration c rest)
    (calm : ∀ m ∈ rest, c.Calm m) (ended : c.ended = true) : ∀ m ∈ rest, m.reports = [] := by
  induction runs with
  | nil => exact List.forall_mem_nil _
  | @cons c first rest _ reported _ ih =>
    have later := calm_step duration calm
    rcases (calm first List.mem_cons_self).cases reported with ⟨still, same⟩ | ⟨going, -⟩
    · rw [same] at later ih
      exact List.forall_mem_cons.2 ⟨still, ih later ended⟩
    · rw [ended] at going
      cases going

theorem Runs.resumes {duration value : α} {between : List (Observation α)} {last : Observation α}
    (runs : Runs duration c (between ++ [last])) (calm : ∀ m ∈ between ++ [last], c.Calm m)
    (still : ∀ m ∈ between, m.reports = []) (reports : last.value? = some value) :
    value = Number.atMost duration (c.elapsed + last.dt) / duration := by
  -- On the silent steps, each of which leaves the clock as it is.
  induction between with
  | nil =>
    cases runs with
    | cons _ reported _ =>
      rcases (calm last List.mem_cons_self).cases reported with ⟨silent, -⟩ | ⟨-, told, elapsed⟩
      · rw [Observation.value?, silent] at reports
        cases reports
      · rw [told, elapsed] at reports
        exact (Option.some.inj reports).symm
  | cons first rest ih =>
    obtain ⟨silent, still⟩ := List.forall_mem_cons.1 still
    have later := calm_step duration calm
    cases runs with
    | cons _ reported runs =>
      rcases (calm first List.mem_cons_self).cases reported with ⟨-, same⟩ | ⟨-, told, -⟩
      · rw [same] at later runs
        exact ih runs later still
      · rw [Observation.value?, silent] at told
        cases told

end Clock

section Exact

open Number.Exact

variable [Number.Exact α] [Number.Equated α] {duration : α} {c : Clock α}

theorem Clock.Runs.rises {rest : List (Observation α)} (runs : Clock.Runs duration c rest)
    (positive : 0 < duration) (within : c.Within duration) (forward : ∀ m ∈ rest, 0 ≤ m.dt)
    (calm : ∀ m ∈ rest, c.Calm m) :
    (∀ value ∈ rest.filterMap Observation.value?, c.elapsed / duration ≤ value) ∧
      (rest.filterMap Observation.value?).Pairwise (· ≤ ·) := by
  induction runs with
  | nil => exact ⟨List.forall_mem_nil _, .nil⟩
  | @cons c first rest _ reported _ ih =>
    obtain ⟨onward, forward⟩ := List.forall_mem_cons.1 forward
    obtain ⟨bounded, sorted⟩ :=
      ih (within.step positive onward first.node) forward (calm_step duration calm)
    rcases (calm first List.mem_cons_self).cases reported with ⟨silent, same⟩ | ⟨-, told, elapsed⟩
    · have untold : first.value? = none := by rw [Observation.value?, silent]
      rw [same] at bounded
      rw [List.filterMap_cons_none untold]
      exact ⟨bounded, sorted⟩
    · have ahead : c.elapsed / duration ≤
          (c.step duration first.dt first.node).1.elapsed / duration := by
        have below := within.below
        rw [le_iff, zero] at onward
        rw [le_iff] at below
        rw [lt_iff, zero] at positive
        rw [le_iff, div, div, elapsed, value_atMost, add]
        apply div_le_div_of_nonneg_right _ positive.le
        exact le_min below (le_add_of_nonneg_right onward)
      rw [List.filterMap_cons_some told]
      refine ⟨List.forall_mem_cons.2 ⟨ahead, fun value member => ?_⟩, .cons bounded sorted⟩
      exact Number.Ordered.le_trans ahead (bounded value member)

omit [Number.Equated α] in
theorem full_progress (positive : 0 < duration) (elapsed dt : α) :
    Number.atMost duration (elapsed + dt) / duration =
      Number.atMost 1 (elapsed / duration + dt / duration) := by
  apply injective
  rw [lt_iff, zero] at positive
  rw [div, value_atMost, value_atMost, add, add, div, div, one,
    ← min_div_div_right positive.le, div_self positive.ne', add_div]

theorem Clock.Runs.continues {first : Observation α} {rest : List (Observation α)}
    (runs : Clock.Runs duration c (first :: rest)) (positive : 0 < duration)
    (within : c.Within duration) (forward : ∀ m ∈ first :: rest, 0 ≤ m.dt)
    (undisturbed : Undisturbed (first :: rest)) : first.Continues duration rest := by
  obtain ⟨onward, forward⟩ := List.forall_mem_cons.1 forward
  cases runs with
  | cons abreast reported runs =>
    have seen := Clock.segment_step abreast duration first.dt
    have after := within.step positive onward first.node
    generalize ran : c.step duration first.dt first.node = outcome at reported runs seen after
    obtain ⟨c', beat⟩ := outcome
    -- The segment that the first step has seen is that of all further ones.
    have calm : ∀ m ∈ rest, c'.Calm m := fun m member =>
      ⟨(undisturbed.segment m member).1, seen.trans (undisturbed.segment m member).2.symm⟩
    obtain ⟨bounded, sorted⟩ := runs.rises positive after forward calm
    obtain ⟨progress, ended⟩ := of_reports ran reported
    refine ⟨fun ends => runs.silent calm (ended ends), ?_, ?_⟩
    · cases reports : first.value? with
      | none =>
        rw [List.filterMap_cons_none reports]
        exact sorted
      | some value =>
        obtain rfl := progress _ reports
        rw [List.filterMap_cons_some reports]
        exact .cons bounded sorted
    · rintro between last value next rfl still reports reports'
      rw [progress _ reports, runs.resumes calm still reports', full_progress positive]

omit [Number.Exact α] [Number.Equated α] in
theorem Clock.Runs.prefix {first second : List (Observation α)}
    (runs : Clock.Runs duration c (first ++ second)) : Clock.Runs duration c first := by
  induction first generalizing c with
  | nil => exact .nil c
  | cons observation rest ih =>
    cases runs with
    | cons abreast reported runs => exact .cons abreast reported (ih runs)

omit [Number.Equated α] in
theorem Clock.Runs.infix {observations stretch : List (Observation α)}
    (runs : Clock.Runs duration c observations) (positive : 0 < duration) (within : c.Within duration)
    (forward : ∀ m ∈ observations, 0 ≤ m.dt) (part : stretch <:+: observations) :
    ∃ c' : Clock α, c'.Within duration ∧ Clock.Runs duration c' stretch := by
  obtain ⟨earlier, later, rfl⟩ := part
  -- The steps in front keep the clock within its duration; those behind make no difference.
  replace runs := runs.prefix
  induction earlier generalizing c with
  | nil => exact ⟨c, within, runs⟩
  | cons observation rest ih =>
    obtain ⟨onward, forward⟩ := List.forall_mem_cons.1 forward
    cases runs with
    | cons _ _ runs => exact ih (within.step positive onward observation.node) forward runs

end Exact

namespace Rehearsal

theorem mem_of_mem_stream {r : Rehearsal α} {name : String} {happenings : List (Happening α)}
    {m : Observation α} (member : m ∈ r.stream name happenings) : .step m.dt ∈ happenings := by
  induction happenings generalizing r with
  | nil => cases member
  | cons happening rest ih =>
    rcases List.mem_append.1 member with here | there
    · cases happening with
      | command => cases here
      | step dt =>
        obtain ⟨node, _, rfl⟩ := Option.map_eq_some_iff.1 (Option.mem_toList.1 here)
        exact List.mem_cons_self
    · exact List.mem_cons_of_mem _ (ih there)

end Rehearsal

/-- Whatever transport commands come between the steps, a step returns and sends what the clocks of
the nodes report: each at most its progress, if the node plays, and with full progress the end. Between
two steps that find a node stopped or with another segment, the progress of its clock does not go back
and goes on over pauses, and after the end there is nothing. -/
theorem clocks_signal_in_order [Number.Exact α] [Number.Equated α] {s : Show α} {library : Library}
    {rewiring : Rewiring} {backend : Backend α} {operations : List (Graph.Operation α)}
    (made : s.graph = (Graph.start library rewiring backend).after operations)
    (positive : 0 < s.config.simulatedSeconds) {happenings : List (Happening α)}
    (forward : ∀ dt, .step dt ∈ happenings → 0 ≤ dt) :
    let r : Rehearsal α := ⟨s, .empty⟩
    (∀ earlier dt, let t := r.after earlier
      ∃ playback, (Rehearsal.step dt).Returns t ()
        ⟨t.sending (t.playing.graph.nodes.values.flatMap (t.reports dt)), playback⟩) ∧
    ∀ name, (∀ m ∈ r.stream name happenings, m.Orderly) ∧
      ∀ first rest, first :: rest <:+: r.stream name happenings → Undisturbed (first :: rest) →
        first.Continues s.config.simulatedSeconds rest := by
  intro r
  have sound : r.Sound := Rehearsal.sound_of_made made
  refine ⟨fun earlier dt => ?_, fun name => ?_⟩
  · obtain ⟨playback, returned, -⟩ := Rehearsal.returns_step (sound.after earlier).keyed dt
    exact ⟨playback, returned⟩
  · have runs := Rehearsal.runs_stream sound name happenings
    have within : (r.clock name).Within s.config.simulatedSeconds := Clock.within_start positive
    have ahead : ∀ m ∈ r.stream name happenings, 0 ≤ m.dt := fun m member =>
      forward m.dt (Rehearsal.mem_of_mem_stream member)
    constructor
    · intro m member
      obtain ⟨earlier, later, split⟩ := List.append_of_mem member
      have part : [m] <:+: r.stream name happenings := ⟨earlier, later, by simp [split]⟩
      obtain ⟨c, within, runs⟩ := runs.infix positive within ahead part
      cases runs with
      | cons _ reported _ => exact Clock.orderly_step positive within (ahead m member) reported
    · intro first rest part undisturbed
      obtain ⟨c, within, runs⟩ := runs.infix positive within ahead part
      exact runs.continues positive within (fun m member => ahead m (part.subset member)) undisturbed

namespace Sample

def watch : Show ℚ :=
  { Show.ofProgram (Script.programOf clockwork) .standard .obliging with
    desk := ⟨(Graph.start (Script.programOf clockwork : Program ℚ).templates .replace .obliging).after
      [.instantiate "w" "a" []], .empty⟩ }

/-- The node is paused on its way, comes to its end, and is set back by a seek. -/
def afternoon : List (Happening ℚ) :=
  [.command "a" .start [], .step 4, .command "a" .pause [], .step 1, .command "a" .start [], .step 7,
    .step 1, .command "a" .seek [9, 12], .step 1]

end Sample

/-- The first four steps are undisturbed, and the last one follows the seek. -/
theorem clocks_signal_in_order_sample :
    let r : Rehearsal ℚ := ⟨Sample.watch, .empty⟩
    let observations := r.stream "a" Sample.afternoon
    0 < Sample.watch.config.simulatedSeconds ∧
      (∀ dt, .step dt ∈ Sample.afternoon → 0 ≤ dt) ∧
      observations.map Observation.value? = [some (2 / 5), none, some 1, none, some 1] ∧
      Undisturbed (observations.take 4) ∧
      (∃ playback, (Rehearsal.step 1).Returns r ()
        ⟨r.sending (r.playing.graph.nodes.values.flatMap (r.reports 1)), playback⟩) ∧
      (∀ m ∈ observations, m.Orderly) ∧
      ∀ first rest, observations.take 4 = first :: rest →
        first.Continues Sample.watch.config.simulatedSeconds rest := by
  intro r observations
  have forward : ∀ dt, .step dt ∈ Sample.afternoon → 0 ≤ dt := by
    intro dt member
    simp only [Sample.afternoon, List.mem_cons, List.not_mem_nil, reduceCtorEq, Happening.step.injEq,
      or_false, false_or] at member
    rcases member with rfl | rfl | rfl | rfl | rfl <;> decide +kernel
  have positive : 0 < Sample.watch.config.simulatedSeconds := by decide +kernel
  have undisturbed : Undisturbed (observations.take 4) := by
    unfold Undisturbed
    decide +kernel
  obtain ⟨returns, streams⟩ := clocks_signal_in_order rfl positive forward
  obtain ⟨orderly, continues⟩ := streams "a"
  refine ⟨positive, forward, by decide +kernel, undisturbed, returns [] 1, orderly, ?_⟩
  intro first rest split
  have part : first :: rest <:+: observations := by
    rw [← split]
    exact (observations.take_prefix 4).isInfix
  exact continues first rest part (split ▸ undisturbed)

end ShowControl
