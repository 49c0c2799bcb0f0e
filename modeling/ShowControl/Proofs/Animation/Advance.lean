import ShowControl.Proofs.Animation.Course
import ShowControl.Proofs.Number.Exact

/-! What an advance does to the moves in flight.

An advance goes through the moves that there are at its start, while others may be started whenever
it places a window. It visits each move whose time has come, in the order in which the nodes stand
in the table. A visit places the window, and retires the move if that is over and no other one has
taken its place by then; a move that is started in the meantime is never lost. -/

set_option autoImplicit false
namespace ShowControl

variable {α : Type}

/-! A stage on which moves are started while windows are placed -/

structure Placing (α : Type) where
  node : String
  left : Int
  top : Int
  started : List (Nat × Motion α)

/-- Asks for moves while a window is placed, whichever they are, in view of all that was placed
before. A move comes with the time on the clock of the one that it takes over from. -/
def Director (α : Type) : Type := List (Placing α) → String → Int → Int → List (Motion α × Option α)

structure Scene (α : Type) where
  animator : Animator α
  placings : List (Placing α)

namespace Animator

variable [Number α]

def startAll : List (Motion α × Option α) → Act (Animator α) (List (Nat × Motion α))
  | [] => return []
  | (motion, now) :: rest => do
    let number := (← get).registered
    let motion ← move motion now
    let others ← startAll rest
    return (number, motion) :: others

end Animator

def Scene.stage [Number α] (progress : String → Option α) (director : Director α) :
    Stage (Scene α) α where
  animator := Scene.animator
  setAnimator animator s := { s with animator }
  progress _ := progress
  place node left top := do
    let s ← get
    let started ← (Animator.startAll (director s.placings node left top)).zoom Scene.animator
      fun s animator => { s with animator }
    modify fun s => { s with placings := s.placings ++ [⟨node, left, top, started⟩] }

/-! Moves that are started -/

def latest? (started : List (Nat × Motion α)) (node : String) : Option (Nat × Motion α) :=
  started.reverse.find? fun entry => entry.2.node = node

theorem latest?_append (started later : List (Nat × Motion α)) (node : String) :
    latest? (started ++ later) node = (latest? later node).or (latest? started node) := by
  rw [latest?, List.reverse_append, List.find?_append]
  rfl

theorem latest?_singleton (entry : Nat × Motion α) (node : String) :
    latest? [entry] node = if entry.2.node = node then some entry else none := by
  simp [latest?, List.find?_singleton]

theorem mem_of_latest? {started : List (Nat × Motion α)} {node : String} {entry : Nat × Motion α}
    (found : latest? started node = some entry) : entry ∈ started ∧ entry.2.node = node :=
  ⟨List.mem_reverse.1 (List.mem_of_find?_eq_some found), by simpa using List.find?_some found⟩

theorem latest?_eq_none_iff {started : List (Nat × Motion α)} {node : String} :
    latest? started node = none ↔ ∀ entry ∈ started, entry.2.node ≠ node := by
  simp [latest?]

namespace Animator

inductive Starts : Animator α → List (Nat × Motion α) → Animator α → Prop where
  | none (a : Animator α) : Starts a [] a
  | more {a b : Animator α} {rest : List (Nat × Motion α)} (motion : Motion α) :
      Starts (a.register motion) rest b → Starts a ((a.registered, motion) :: rest) b

namespace Starts

variable {a b : Animator α} {started : List (Nat × Motion α)}

theorem registered_le (starts : Starts a started b) : a.registered ≤ b.registered := by
  induction starts with
  | none => exact Nat.le_refl _
  | more motion _ ih => exact Nat.le_of_succ_le ih

theorem fresh (starts : Starts a started b) : ∀ entry ∈ started, a.registered ≤ entry.1 := by
  induction starts with
  | none => nofun
  | more motion _ ih =>
    intro entry member
    rcases List.mem_cons.1 member with rfl | later
    · exact Nat.le_refl _
    · exact Nat.le_of_succ_le (ih entry later)

theorem get? (starts : Starts a started b) (node : String) :
    b.entries.get? node = (latest? started node).or (a.entries.get? node) := by
  induction starts with
  | none => rfl
  | @more a b rest motion _ ih =>
    rw [ih, get?_register, ← List.singleton_append, latest?_append, latest?_singleton,
      Option.or_assoc]
    by_cases same : motion.node = node
    · rw [if_pos same, if_pos same.symm, Option.some_or]
    · rw [if_neg same, if_neg (Ne.symm same), Option.none_or]

end Starts

theorem holds_iff {a : Animator α} {number : Nat} {node : String} :
    a.holds number node = true ↔ ∃ motion, a.entries.get? node = some (number, motion) := by
  rw [holds]
  cases a.entries.get? node with
  | none => simp
  | some entry => simp [Prod.ext_iff]

theorem Starts.holds_iff {a b : Animator α} {started : List (Nat × Motion α)}
    (starts : Starts a started b) {number : Nat} (older : number < a.registered) {node : String} :
    b.holds number node = true ↔
      a.holds number node = true ∧ ∀ entry ∈ started, entry.2.node ≠ node := by
  simp only [Animator.holds_iff, starts.get? node, ← latest?_eq_none_iff]
  cases found : latest? started node with
  | none => simp
  | some entry =>
    have newer := starts.fresh entry (mem_of_latest? found).1
    simp only [Option.some_or, Option.some.injEq, reduceCtorEq, and_false, iff_false, not_exists]
    rintro motion rfl
    exact Nat.not_lt.2 newer older

theorem Starts.holds_eq_false {a b : Animator α} {started : List (Nat × Motion α)}
    (starts : Starts a started b) {number : Nat} (older : number < a.registered)
    {entry : Nat × Motion α} (member : entry ∈ started) :
    b.holds number entry.2.node = false :=
  Bool.eq_false_iff.2 fun held => ((starts.holds_iff older).1 held).2 entry member rfl

theorem holds_remove {a : Animator α} {gone node : String} (other : node ≠ gone) (number : Nat) :
    (a.remove gone).holds number node = a.holds number node := by
  rw [holds, get?_remove, if_neg other, holds]

/-- What an advance goes through: moves of different nodes, none of which is yet to be started. -/
structure Ahead (a : Animator α) (entries : List (Nat × Motion α)) : Prop where
  older : ∀ entry ∈ entries, entry.1 < a.registered
  distinct : (entries.map fun entry => entry.2.node).Nodup

theorem Ahead.next {a b : Animator α} {entry : Nat × Motion α} {entries : List (Nat × Motion α)}
    (ahead : a.Ahead (entry :: entries)) (later : a.registered ≤ b.registered) :
    b.Ahead entries where
  older other member :=
    Nat.lt_of_lt_of_le (ahead.older other (List.mem_cons_of_mem entry member)) later
  distinct := (List.nodup_cons.1 ahead.distinct).2

theorem Ahead.fresh {a : Animator α} {entry : Nat × Motion α} {entries : List (Nat × Motion α)}
    (ahead : a.Ahead (entry :: entries)) :
    entry.2.node ∉ entries.map fun entry => entry.2.node := (List.nodup_cons.1 ahead.distinct).1

end Animator

/-! Visits -/

variable [Number α]

namespace Motion

variable (progress : String → Option α) (motion : Motion α)

def time? : Option α := motion.clock.bind progress

def due : Bool := (motion.time? progress).any fun t => motion.t0 ≤ t

def ended : Bool := (motion.time? progress).any motion.isOver

end Motion

structure Visit (α : Type) where
  entry : Nat × Motion α
  left : Int
  top : Int
  started : List (Nat × Motion α)

namespace Visit

def node (visit : Visit α) : String := visit.entry.2.node

def placing (visit : Visit α) : Placing α := ⟨visit.node, visit.left, visit.top, visit.started⟩

def Apt (progress : String → Option α) (visit : Visit α) : Prop :=
  ∃ t, visit.entry.2.time? progress = some t ∧
    Number.round (visit.entry.2.position t).1 = .ok visit.left ∧
    Number.round (visit.entry.2.position t).2 = .ok visit.top

def retires (progress : String → Option α) (visit : Visit α) (a : Animator α) : Bool :=
  visit.entry.2.ended progress && a.holds visit.entry.1 visit.node

def leave (progress : String → Option α) (visit : Visit α) (a : Animator α) : Animator α :=
  if visit.retires progress a then a.remove visit.node else a

def retired (progress : String → Option α) (visit : Visit α) (a : Animator α) : Option String :=
  if visit.retires progress a then some visit.node else none

theorem holds_of_retired {progress : String → Option α} {visit : Visit α} {a : Animator α}
    {node : String} (gone : node ∈ visit.retired progress a) :
    a.holds visit.entry.1 node = true := by
  rw [retired] at gone
  split at gone
  · next retires =>
    obtain rfl := Option.some.inj gone
    exact (Bool.and_eq_true_iff.1 retires).2
  · cases gone

theorem registered_leave (progress : String → Option α) (visit : Visit α) (a : Animator α) :
    (visit.leave progress a).registered = a.registered := by
  rw [leave]
  split <;> rfl

theorem ahead_leave (progress : String → Option α) {visit : Visit α} {a a' : Animator α}
    {entries : List (Nat × Motion α)} (ahead : a.Ahead (visit.entry :: entries))
    (starts : Animator.Starts a visit.started a') : (visit.leave progress a').Ahead entries := by
  apply ahead.next
  rw [registered_leave]
  exact starts.registered_le

theorem holds_leave (progress : String → Option α) (visit : Visit α) (a : Animator α) (number : Nat)
    {node : String} (other : node ≠ visit.node) :
    (visit.leave progress a).holds number node = a.holds number node := by
  rw [leave]
  split
  · exact Animator.holds_remove other number
  · rfl

theorem get?_leave (progress : String → Option α) (visit : Visit α) (a : Animator α)
    (node : String) : (visit.leave progress a).entries.get? node =
      if node ∈ visit.retired progress a then none else a.entries.get? node := by
  rw [leave, retired]
  split
  · simp [Animator.get?_remove, eq_comm]
  · simp

end Visit

/-- The course of an advance: the visits of the entries that are due, in their order. -/
inductive Visits (progress : String → Option α) : Animator α → List (Nat × Motion α) →
    List (Visit α) → List String → Animator α → Prop where
  | done (a : Animator α) : Visits progress a [] [] [] a
  | waits {a b : Animator α} {entry : Nat × Motion α} {entries : List (Nat × Motion α)}
      {visits : List (Visit α)} {retired : List String} :
      entry.2.due progress = false → Visits progress a entries visits retired b →
      Visits progress a (entry :: entries) visits retired b
  | moves {a a' b : Animator α} {entries : List (Nat × Motion α)} {visits : List (Visit α)}
      {retired : List String} (visit : Visit α) :
      visit.entry.2.due progress = true → visit.Apt progress →
      Animator.Starts a visit.started a' →
      Visits progress (visit.leave progress a') entries visits retired b →
      Visits progress a (visit.entry :: entries) (visit :: visits)
        ((visit.retired progress a').toList ++ retired) b

namespace Animator

theorem returns_startAll (orders : List (Motion α × Option α)) (a : Animator α) :
    ∃ started b, (startAll orders).Returns a started b ∧ Starts a started b := by
  induction orders generalizing a with
  | nil => exact ⟨[], a, rfl, .none a⟩
  | cons order rest ih =>
    obtain ⟨motion, moved⟩ :
        ∃ motion, (move order.1 order.2).Returns a motion (a.register motion) :=
      ⟨_, eval_move order.1 order.2 a⟩
    obtain ⟨started, b, returned, starts⟩ := ih (a.register motion)
    refine ⟨(a.registered, motion) :: started, b, ?_, .more motion starts⟩
    simp only [startAll, Act.returns_bind, Act.returns_get, Act.returns_pure]
    exact ⟨a, a, ⟨rfl, rfl⟩, motion, _, moved, started, b, returned, rfl, rfl⟩

end Animator

namespace Scene

variable (progress : String → Option α) (director : Director α)

theorem returns_place (s : Scene α) (node : String) (left top : Int) :
    ∃ started b, ((stage progress director).place node left top).Returns s ()
        ⟨b, s.placings ++ [⟨node, left, top, started⟩]⟩ ∧ Animator.Starts s.animator started b := by
  obtain ⟨started, b, returned, starts⟩ :=
    Animator.returns_startAll (director s.placings node left top) s.animator
  refine ⟨started, b, ?_, starts⟩
  simp only [stage, Act.returns_bind, Act.returns_get, Act.returns_zoom, Act.returns_modify]
  exact ⟨s, s, ⟨rfl, rfl⟩, started, _, ⟨b, returned, rfl⟩, rfl⟩

variable [Number.Exact α] [Number.Finite α]

omit [Number.Exact α] in
theorem pixel_eq (x : α) : ∃ n, Number.round x = .ok n ∧ Stage.pixel x = .ok n := by
  obtain ⟨n, rounded⟩ := Number.Finite.rounds x
  exact ⟨n, rounded, by rw [Stage.pixel, rounded, mapError_ok]⟩

omit [Number.Exact α] [Number.Finite α] in
theorem returns_retire (visit : Visit α) (ended : visit.entry.2.ended progress = true)
    (s : Scene α) :
    ((stage progress director).retire visit.entry.1 visit.node).Returns s
      (visit.retires progress s.animator)
      { s with animator := visit.leave progress s.animator } := by
  simp only [Stage.retire, Visit.retires, Visit.leave, ended, Bool.true_and, Act.returns_bind,
    Act.returns_get]
  refine ⟨s, s, ⟨rfl, rfl⟩, ?_⟩
  show Act.Returns (if s.animator.holds visit.entry.1 visit.node = true then _ else _) s _ _
  cases s.animator.holds visit.entry.1 visit.node <;> rfl

omit [Number.Exact α] [Number.Finite α] in
theorem clock_eq (motion : Motion α) (s : Scene α) :
    motion.clock.bind ((stage progress director).progress s) = motion.time? progress := rfl

omit [Number.Finite α] in
theorem returns_advanceMotion_of_waits {entry : Nat × Motion α}
    (waits : entry.2.due progress = false) (s : Scene α) :
    ((stage progress director).advanceMotion entry.1 entry.2).Returns s none s := by
  simp only [Stage.advanceMotion, Act.returns_bind, Act.returns_get]
  refine ⟨s, s, ⟨rfl, rfl⟩, ?_⟩
  rw [clock_eq]
  rw [Motion.due] at waits
  cases time : entry.2.time? progress with
  | none => exact (Act.returns_pure ..).2 ⟨rfl, rfl⟩
  | some t =>
    rw [time, Option.any_some, decide_eq_false_iff_not] at waits
    have early : t < entry.2.t0 := by
      by_contra late
      exact waits ((Number.not_lt_iff (Number.Exact.comparable _)
        (Number.Exact.comparable _)).1 late)
    dsimp only
    rw [if_pos early]
    exact (Act.returns_pure ..).2 ⟨rfl, rfl⟩

theorem returns_advanceMotion_of_due {entry : Nat × Motion α} (due : entry.2.due progress = true)
    (s : Scene α) : ∃ (visit : Visit α) (a : Animator α), visit.entry = entry ∧ visit.Apt progress ∧
      Animator.Starts s.animator visit.started a ∧
      ((stage progress director).advanceMotion entry.1 entry.2).Returns s (visit.retired progress a)
        ⟨visit.leave progress a, s.placings ++ [visit.placing]⟩ := by
  obtain ⟨t, time, begun⟩ := (Option.any_eq_true ..).1 due
  have late : ¬t < entry.2.t0 := (Number.not_lt_iff (Number.Exact.comparable _)
    (Number.Exact.comparable _)).2 (of_decide_eq_true begun)
  obtain ⟨left, leftmost, left_eq⟩ := pixel_eq (entry.2.position t).1
  obtain ⟨top, topmost, top_eq⟩ := pixel_eq (entry.2.position t).2
  obtain ⟨started, a, placed, starts⟩ := returns_place progress director s entry.2.node left top
  refine ⟨⟨entry, left, top, started⟩, a, rfl, ⟨t, time, leftmost, topmost⟩, starts, ?_⟩
  simp only [Stage.advanceMotion, Act.returns_bind, Act.returns_get]
  refine ⟨s, s, ⟨rfl, rfl⟩, ?_⟩
  rw [clock_eq, time]
  dsimp only
  rw [if_neg late]
  simp only [Act.returns_bind, Act.returns_ofExcept]
  refine ⟨left, s, ⟨left_eq, rfl⟩, top, s, ⟨top_eq, rfl⟩, (), _, placed, ?_⟩
  -- Once the window has been placed, the move is taken out if it is over.
  have ends : entry.2.ended progress = entry.2.isOver t := by
    rw [Motion.ended, time, Option.any_some]
  cases ended : entry.2.isOver t with
  | false =>
    have stays : Visit.retires progress ⟨entry, left, top, started⟩ a = false := by
      rw [Visit.retires, ends, ended, Bool.false_and]
    simp only [Visit.retired, Visit.leave, stays]
    exact (Act.returns_pure ..).2 ⟨rfl, rfl⟩
  | true =>
    simp only [if_true, Act.returns_bind]
    have retires := returns_retire progress director ⟨entry, left, top, started⟩ (ends.trans ended)
    exact ⟨_, _, retires _, (), _, rfl, (Act.returns_pure ..).2 ⟨rfl, rfl⟩⟩

theorem returns_advanceMotions (entries : List (Nat × Motion α)) (s : Scene α) :
    ∃ visits retired b, ((stage progress director).advanceMotions entries).Returns s retired
        ⟨b, s.placings ++ visits.map Visit.placing⟩ ∧
      Visits progress s.animator entries visits retired b := by
  induction entries generalizing s with
  | nil => exact ⟨[], [], s.animator, by rw [List.map_nil, List.append_nil]; rfl, .done _⟩
  | cons entry rest ih =>
    simp only [Stage.advanceMotions, Act.returns_bind, Act.returns_pure]
    cases due : entry.2.due progress with
    | false =>
      obtain ⟨visits, retired, b, returned, visited⟩ := ih s
      exact ⟨visits, retired, b, ⟨none, s, returns_advanceMotion_of_waits progress director due s,
        retired, _, returned, rfl, rfl⟩, .waits due visited⟩
    | true =>
      obtain ⟨visit, a, rfl, apt, starts, first⟩ :=
        returns_advanceMotion_of_due progress director due s
      obtain ⟨visits, retired, b, returned, visited⟩ := ih ⟨visit.leave progress a, _⟩
      refine ⟨visit :: visits, _, b, ⟨_, _, first, retired, _, returned, rfl, ?_⟩,
        .moves visit due apt starts visited⟩
      rw [List.map_cons, List.append_assoc, List.singleton_append]

end Scene

namespace Visits

variable {progress : String → Option α} {a b : Animator α} {entries : List (Nat × Motion α)}
  {visits : List (Visit α)} {retired : List String}

theorem entries_eq (visited : Visits progress a entries visits retired b) :
    visits.map Visit.entry = entries.filter fun entry => entry.2.due progress := by
  induction visited with
  | done => rfl
  | waits waits _ ih => rw [List.filter_cons, if_neg (by simp [waits]), ih]
  | moves visit due _ _ _ ih => rw [List.filter_cons, if_pos due, List.map_cons, ih]

theorem apt (visited : Visits progress a entries visits retired b) :
    ∀ visit ∈ visits, visit.Apt progress := by
  induction visited with
  | done => nofun
  | waits _ _ ih => exact ih
  | moves visit _ apt _ _ ih => exact List.forall_mem_cons.2 ⟨apt, ih⟩

theorem sublist (visited : Visits progress a entries visits retired b) :
    retired.Sublist (visits.map Visit.node) := by
  induction visited with
  | done => exact .slnil
  | waits _ _ ih => exact ih
  | moves visit _ _ _ _ ih =>
    rw [List.map_cons, Visit.retired]
    split
    · exact ih.cons_cons _
    · exact ih.cons _

theorem entry_mem (visited : Visits progress a entries visits retired b) {visit : Visit α}
    (member : visit ∈ visits) : visit.entry ∈ entries := by
  have among : visit.entry ∈ entries.filter fun entry => entry.2.due progress := by
    rw [← visited.entries_eq]
    exact List.mem_map_of_mem member
  exact List.mem_of_mem_filter among

theorem node_mem (visited : Visits progress a entries visits retired b) {node : String}
    (gone : node ∈ retired) : node ∈ entries.map fun entry => entry.2.node := by
  obtain ⟨visit, member, rfl⟩ := List.mem_map.1 (visited.sublist.subset gone)
  exact List.mem_map_of_mem (visited.entry_mem member)

theorem retired_iff (visited : Visits progress a entries visits retired b) (ahead : a.Ahead entries)
    {before after : List (Visit α)} {visit : Visit α} (split : visits = before ++ visit :: after) :
    visit.node ∈ retired ↔ visit.entry.2.ended progress = true ∧
      a.holds visit.entry.1 visit.node = true ∧
      ∀ earlier ∈ before ++ [visit], ∀ entry ∈ earlier.started, entry.2.node ≠ visit.node := by
  induction visited generalizing before with
  | done => simp at split
  | waits _ _ ih => exact ih (ahead.next (Nat.le_refl _)) split
  | @moves a a' b entries visits retired first due apt starts visited ih =>
    have ahead' := Visit.ahead_leave progress ahead starts
    rcases before with - | ⟨head, before⟩
    -- The later visits are to moves of other nodes.
    · obtain ⟨rfl, rfl⟩ := List.cons.inj split
      have once : first.node ∉ retired := fun gone => ahead.fresh (visited.node_mem gone)
      have held : a'.holds first.entry.1 first.node = true ↔ _ :=
        starts.holds_iff (ahead.older first.entry List.mem_cons_self)
      simp only [List.mem_append, Option.mem_toList, once, or_false, List.nil_append,
        List.mem_singleton, forall_eq, Visit.retired, Visit.retires, Bool.and_eq_true, held]
      simp
    · obtain ⟨rfl, rfl⟩ := List.cons.inj split
      have member := visited.entry_mem (List.mem_append_right before List.mem_cons_self)
      have other : visit.node ≠ first.node := fun same =>
        ahead.fresh (List.mem_map.2 ⟨visit.entry, member, same⟩)
      have held : a'.holds visit.entry.1 visit.node = true ↔ _ :=
        starts.holds_iff (ahead.older visit.entry (List.mem_cons_of_mem _ member))
      have still : visit.node ∉ (first.retired progress a').toList := by
        rw [Visit.retired]
        split <;> simp [other]
      rw [List.mem_append, or_iff_right still, ih ahead' rfl, Visit.holds_leave _ _ _ _ other, held,
        List.cons_append, List.forall_mem_cons, and_assoc]

theorem holds_of_retired (visited : Visits progress a entries visits retired b)
    (ahead : a.Ahead entries) {node : String} (gone : node ∈ retired) :
    ∃ entry ∈ entries, entry.2.node = node ∧ a.holds entry.1 node = true := by
  obtain ⟨visit, member, rfl⟩ := List.mem_map.1 (visited.sublist.subset gone)
  obtain ⟨before, after, split⟩ := List.append_of_mem member
  exact ⟨visit.entry, visited.entry_mem member, rfl, ((visited.retired_iff ahead split).1 gone).2.1⟩

/-- A node has the last move that was started in an advance, or else the one that it had, if that
has not been retired. -/
theorem get? (visited : Visits progress a entries visits retired b) (ahead : a.Ahead entries)
    (node : String) : b.entries.get? node = (latest? (visits.flatMap Visit.started) node).or
      (if node ∈ retired then none else a.entries.get? node) := by
  induction visited with
  | done => simp [latest?]
  | waits _ _ ih => exact ih (ahead.next (Nat.le_refl _))
  | @moves a a' b entries visits retired first due apt starts visited ih =>
    have ahead' := Visit.ahead_leave progress ahead starts
    rw [ih ahead', List.flatMap_cons, latest?_append, Option.or_assoc, Visit.get?_leave,
      starts.get?]
    congr 1
    simp only [List.mem_append, Option.mem_toList]
    cases found : latest? first.started node with
    | none => by_cases gone : node ∈ retired <;> simp [gone]
    -- Where a move has just been started, none of an earlier number is left to be retired.
    | some entry =>
      obtain ⟨started, rfl⟩ := mem_of_latest? found
      have notNow : entry.2.node ∉ first.retired progress a' := fun gone => by
        have held := Visit.holds_of_retired gone
        rw [starts.holds_eq_false (ahead.older first.entry List.mem_cons_self) started] at held
        cases held
      have notLater : entry.2.node ∉ retired := fun gone => by
        obtain ⟨other, member, same, held⟩ := visited.holds_of_retired ahead' gone
        have apart : entry.2.node ≠ first.node := fun here =>
          ahead.fresh (List.mem_map.2 ⟨other, member, same.trans here⟩)
        rw [Visit.holds_leave _ _ _ _ apart,
          starts.holds_eq_false (ahead.older other (List.mem_cons_of_mem _ member)) started] at held
        cases held
      rw [if_neg notLater, if_neg notNow, Option.some_or, Option.some_or]

end Visits

/-! The end of a move -/

section Exact

variable [Number.Exact α]

open Number.Exact in
theorem normalize_of_ended {t t0 t1 : α} (ended : t1 ≤ t) : normalize t t0 t1 = 1 := by
  rw [normalize]
  by_cases empty : t1 ≤ t0
  · rw [if_pos empty, if_pos ended]
  · rw [if_neg empty]
    have longer : value t0 < value t1 := by rwa [le_iff, not_le] at empty
    rw [le_iff] at ended
    have span : 0 < value t1 - value t0 := sub_pos.2 longer
    have past : 1 ≤ (value t - value t0) / (value t1 - value t0) :=
      (one_le_div span).2 (sub_le_sub_right ended _)
    have positive : (0 : α) < (t - t0) / (t1 - t0) := by
      rw [lt_iff, div, sub, sub, zero]
      exact lt_of_lt_of_le zero_lt_one past
    rw [Number.atLeast, if_pos positive, Number.atMost, if_neg]
    rw [lt_iff, div, sub, sub, one, not_lt]
    exact past

open Number.Exact in
theorem blend_one (start stop : α) : blend start stop 1 = stop := by
  apply injective
  simp [blend, add, mul, sub, one]

theorem Motion.position_of_ended {motion : Motion α} (easeX : motion.easeX.apply (1 : α) = 1)
    (easeY : motion.easeY.apply (1 : α) = 1) {t : α} (ended : motion.isOver t = true) :
    motion.position t = motion.stop := by
  rw [position, normalize_of_ended (of_decide_eq_true ended), easeX, easeY, blend_one, blend_one]

end Exact

/-! Advances -/

omit [Number α] in
theorem Animator.Sound.ahead {a : Animator α} (sound : a.Sound) : a.Ahead a.entries.values where
  older entry member := by
    obtain ⟨node, found⟩ := Table.mem_values_iff.1 member
    exact sound.numbered found
  distinct := by
    have nodes : a.entries.values.map (fun entry => entry.2.node) = a.entries.keys := by
      rw [Table.values, Table.keys, List.map_map]
      exact List.map_congr_left fun entry member => sound.keyed (Table.mem_toList_iff.1 member)
    rw [nodes]
    exact a.entries.distinct

omit [Number α] in
theorem Animator.Sound.holds {a : Animator α} (sound : a.Sound) {entry : Nat × Motion α}
    (member : entry ∈ a.entries.values) : a.holds entry.1 entry.2.node = true := by
  obtain ⟨node, found⟩ := Table.mem_values_iff.1 member
  obtain rfl := sound.keyed found
  exact Animator.holds_iff.2 ⟨entry.2, found⟩

structure Advanced (progress : String → Option α) (a : Animator α) (visits : List (Visit α))
    (retired : List String) (b : Animator α) : Prop where
  due : visits.map Visit.entry = a.entries.values.filter fun entry => entry.2.due progress
  apt : ∀ visit ∈ visits, visit.Apt progress
  ends : ∀ visit ∈ visits, visit.entry.2.ended progress = true →
    Number.round visit.entry.2.stop.1 = .ok visit.left ∧
      Number.round visit.entry.2.stop.2 = .ok visit.top
  /-- A move is replaced by one that is started before its visit ends. -/
  retires : ∀ before visit after, visits = before ++ visit :: after →
    (visit.node ∈ retired ↔ visit.entry.2.ended progress = true ∧
      ∀ earlier ∈ before ++ [visit], ∀ entry ∈ earlier.started, entry.2.node ≠ visit.node)
  names : retired.Sublist (visits.map Visit.node)
  inFlight : ∀ node, b.entries.get? node = (latest? (visits.flatMap Visit.started) node).or
    (if node ∈ retired then none else a.entries.get? node)

/-- An advance is exact and loses no move. It places the window of each move whose clock has come to
its start once, where the move has got to, and no other window. Whatever moves are started
meanwhile, it retires those moves that are over, at their ends, and have not been replaced by then.
Each node has the last move that was started on it, or else the one that it had, unless that is
retired. The windows are placed in the order of the table, in which a node keeps its place when its
move is replaced. -/
theorem advance_is_exact [Number.Exact α] [Number.Finite α] (progress : String → Option α)
    (director : Director α) {a : Animator α} (sound : a.Sound)
    (easings : ∀ motion ∈ a.motions,
      motion.easeX.apply (1 : α) = 1 ∧ motion.easeY.apply (1 : α) = 1) :
    (∃ visits retired b, (Scene.stage progress director).advance.Returns ⟨a, []⟩ retired
        ⟨b, visits.map Visit.placing⟩ ∧ Advanced progress a visits retired b) ∧
      ∀ motion, (a.register motion).entries.keys =
        if motion.node ∈ a.entries.keys then a.entries.keys
        else a.entries.keys ++ [motion.node] := by
  constructor
  · obtain ⟨visits, retired, b, returned, visited⟩ :=
      Scene.returns_advanceMotions progress director a.entries.values ⟨a, []⟩
    refine ⟨visits, retired, b, ?_, ?_⟩
    · rw [Stage.advance, Act.returns_bind]
      exact ⟨_, _, (Act.returns_get ..).2 ⟨rfl, rfl⟩, returned⟩
    refine ⟨visited.entries_eq, visited.apt, ?_, ?_, visited.sublist, visited.get? sound.ahead⟩
    · intro visit member ended
      obtain ⟨t, time, left, top⟩ := visited.apt visit member
      obtain ⟨easeX, easeY⟩ :=
        easings visit.entry.2 (List.mem_map_of_mem (visited.entry_mem member))
      rw [Motion.ended, time, Option.any_some] at ended
      rw [Motion.position_of_ended easeX easeY ended] at left top
      exact ⟨left, top⟩
    · intro before visit after split
      have member : visit ∈ visits := by
        rw [split]
        exact List.mem_append_right before List.mem_cons_self
      have held := sound.holds (visited.entry_mem member)
      rw [visited.retired_iff sound.ahead split]
      exact and_congr_right fun _ => and_iff_right held
  · exact fun motion => Table.keys_insert a.entries motion.node _

namespace Sample

def ticking (clock : String) : Option ℚ := if clock = "c" then some 1 else none

def flight (node clock : String) (t0 t1 : ℚ) (stop : ℚ × ℚ) : Motion ℚ :=
  ⟨node, some clock, t0, t1, (0, 0), stop, .linear, .jump⟩

def flights : Animator ℚ :=
  ((((Animator.empty.register (flight "a" "c" 0 1 (9, 9))).register
    (flight "b" "c" 0 2 (9, 9))).register (flight "d" "c" 3 4 (9, 9))).register
      (flight "e" "off" 0 1 (9, 9))).register (flight "f" "c" 1 1 (9, 9))

def encore : Director ℚ := fun _ node _ _ =>
  if node = "a" then [(flight "a" "c" 0 5 (7, 7), some 1)] else []

def resumed : Animator ℚ :=
  ((Animator.empty.register (flight "a" "c" 0 1 (9, 9))).register
    (flight "b" "c" 0 1 (9, 9))).register (flight "a" "c" 0 1 (7, 7))

end Sample

/-- The sample moves. Of the two that are over, the one that is replaced in its own visit is not
retired. -/
theorem advance_is_exact_sample :
    Sample.flights.Sound ∧
      (∀ motion ∈ Sample.flights.motions,
        motion.easeX.apply (1 : ℚ) = 1 ∧ motion.easeY.apply (1 : ℚ) = 1) ∧
      (∃ visits retired b,
        (Scene.stage Sample.ticking Sample.encore).advance.Returns ⟨Sample.flights, []⟩ retired
            ⟨b, visits.map Visit.placing⟩ ∧
          (retired = ["f"] ∧ b.active "a" = true) ∧
          Advanced Sample.ticking Sample.flights visits retired b) ∧
      ∀ motion, (Sample.flights.register motion).entries.keys =
        if motion.node ∈ Sample.flights.entries.keys then Sample.flights.entries.keys
        else Sample.flights.entries.keys ++ [motion.node] := by
  have sound : Sample.flights.Sound :=
    ((((((Animator.sound_of_empty rfl).register _).register _).register _).register _).register _)
  have easings : ∀ motion ∈ Sample.flights.motions,
      motion.easeX.apply (1 : ℚ) = 1 ∧ motion.easeY.apply (1 : ℚ) = 1 := by
    decide +kernel
  obtain ⟨⟨visits, retired, b, returned, advanced⟩, order⟩ :=
    advance_is_exact Sample.ticking Sample.encore sound easings
  refine ⟨sound, easings, ⟨visits, retired, b, returned, ⟨?_, ?_⟩, advanced⟩, order⟩
  · have names : ((Scene.stage Sample.ticking Sample.encore).advance.eval
        ⟨Sample.flights, []⟩).1.toOption = some ["f"] := by
      decide +kernel
    rw [returned] at names
    exact Option.some.inj names
  · have active : ((Scene.stage Sample.ticking Sample.encore).advance.eval
        ⟨Sample.flights, []⟩).2.animator.active "a" = true := by
      decide +kernel
    rw [returned] at active
    exact active

/-- The windows are not always placed in the order in which the moves were started. -/
theorem not_placed_in_order_of_start :
    ∃ retired s, (Scene.stage Sample.ticking fun _ _ _ _ => []).advance.Returns
        ⟨Sample.resumed, []⟩ retired s ∧
      s.placings.map Placing.node = ["a", "b"] ∧ retired = ["a", "b"] ∧
      (Sample.resumed.entries.get? "a").map Prod.fst = some 2 ∧
      (Sample.resumed.entries.get? "b").map Prod.fst = some 1 := by
  have names : ((Scene.stage Sample.ticking fun _ _ _ _ => []).advance.eval
      ⟨Sample.resumed, []⟩).1.toOption = some ["a", "b"] := by
    decide +kernel
  have placed : ((Scene.stage Sample.ticking fun _ _ _ _ => []).advance.eval
      ⟨Sample.resumed, []⟩).2.placings.map Placing.node = ["a", "b"] := by
    decide +kernel
  obtain ⟨retired, returned⟩ := Act.exists_returns_of_isOk (x :=
    (Scene.stage Sample.ticking fun _ _ _ _ => []).advance) (s := ⟨Sample.resumed, []⟩)
      (by decide +kernel)
  rw [returned] at names
  exact ⟨retired, _, returned, placed, Option.some.inj names, by decide +kernel, by decide +kernel⟩

end ShowControl
