import Mathlib.Tactic.Linarith
import ShowControl.Proofs.Animation.Advance

/-! How far moves take a window.

A move is between its ends at every time, and one that takes over starts where the older one has got
to. However moves follow each other, a window therefore stays between the coordinates that were asked
for. -/

set_option autoImplicit false
namespace ShowControl

variable {α : Type} [Number α]

def Spans (coordinates : List α) (x : α) : Prop :=
  (∃ low ∈ coordinates, low ≤ x) ∧ ∃ high ∈ coordinates, x ≤ high

theorem Spans.mono {coordinates more : List α} {x : α} (spans : Spans coordinates x)
    (within : coordinates ⊆ more) : Spans more x := by
  obtain ⟨⟨low, member, above⟩, high, member', below⟩ := spans
  exact ⟨⟨low, within member, above⟩, high, within member', below⟩

/-! Easings -/

structure Easing.Tame (α : Type) [Number α] (easing : Easing) : Prop where
  within {u : α} : 0 ≤ u → u ≤ 1 → 0 ≤ easing.apply u ∧ easing.apply u ≤ 1
  atStart : easing.apply (0 : α) = 0
  atEnd : easing.apply (1 : α) = 1

/-- The cosine goes from one to minus one in half a turn. -/
class Number.Cosine (α : Type) [Number α] : Prop where
  cosPi_zero : Number.cosPi (0 : α) = 1
  cosPi_one : Number.cosPi (1 : α) = 0 - 1
  within {u : α} : 0 ≤ u → u ≤ 1 → 0 - 1 ≤ Number.cosPi u ∧ Number.cosPi u ≤ 1

section Exact

open Number.Exact

variable [Number.Exact α]

theorem spans_of_mem {coordinates : List α} {x : α} (member : x ∈ coordinates) :
    Spans coordinates x :=
  ⟨⟨x, member, comparable x⟩, x, member, comparable x⟩

theorem Easing.tame_smooth [Number.Cosine α] :
    (∀ {u : α}, 0 ≤ u → u ≤ 1 → 0 ≤ smooth u ∧ smooth u ≤ 1) ∧
      smooth (0 : α) = 0 ∧ smooth (1 : α) = 1 := by
  refine ⟨fun {u} above below => ?_, injective ?_, injective ?_⟩
  · obtain ⟨low, high⟩ := Number.Cosine.within above below
    simp only [smooth, le_iff, div, sub, add, zero, one] at low high ⊢
    constructor <;> linarith
  · simp [smooth, div, sub, add, zero, one, Number.Cosine.cosPi_zero]
  · simp only [smooth, div, sub, add, zero, one, Number.Cosine.cosPi_one]
    norm_num

theorem Easing.tame_hold : (∀ {u : α}, 0 ≤ u → u ≤ 1 → 0 ≤ hold u ∧ hold u ≤ 1) ∧
    hold (0 : α) = 0 ∧ hold (1 : α) = 1 := by
  refine ⟨fun {u} _ _ => ?_, if_neg ?_, if_pos (comparable 1)⟩
  · rw [hold]
    split
    · exact ⟨Number.le_of_lt (comparable 0) (comparable 1) positive_one, comparable 1⟩
    · exact ⟨comparable 0, Number.le_of_lt (comparable 0) (comparable 1) positive_one⟩
  · simp [le_iff, zero, one]

theorem Easing.tame [Number.Cosine α] (easing : Easing) : easing.Tame α := by
  cases easing with
  | linear => exact ⟨fun above below => ⟨above, below⟩, rfl, rfl⟩
  | mcos | cos => exact ⟨tame_smooth.1, tame_smooth.2.1, tame_smooth.2.2⟩
  | jump => exact ⟨tame_hold.1, tame_hold.2.1, tame_hold.2.2⟩

theorem normalize_within (t t0 t1 : α) : 0 ≤ normalize t t0 t1 ∧ normalize t t0 t1 ≤ 1 := by
  have unit : (0 : α) ≤ 1 := Number.le_of_lt (comparable 0) (comparable 1) positive_one
  rw [normalize]
  split
  · split
    · exact ⟨unit, comparable 1⟩
    · exact ⟨comparable 0, unit⟩
  · have floor : 0 ≤ Number.atLeast 0 ((t - t0) / (t1 - t0)) := by
      rw [Number.atLeast]
      split
      · next above => exact Number.le_of_lt (comparable 0) (comparable _) above
      · exact comparable 0
    rw [Number.atMost]
    split
    · next below => exact ⟨floor, Number.le_of_lt (comparable _) (comparable 1) below⟩
    · exact ⟨unit, comparable 1⟩

theorem normalize_of_early {t t0 t1 : α} (longer : t0 < t1) (early : t ≤ t0) :
    normalize t t0 t1 = 0 := by
  rw [lt_iff] at longer
  rw [le_iff] at early
  have notEmpty : ¬t1 ≤ t0 := by rwa [le_iff, not_le]
  have notBegun : ¬(0 : α) < (t - t0) / (t1 - t0) := by
    rw [lt_iff, div, sub, sub, zero, not_lt]
    exact div_nonpos_of_nonpos_of_nonneg (sub_nonpos.2 early) (sub_nonneg.2 longer.le)
  rw [normalize, if_neg notEmpty, Number.atLeast, if_neg notBegun, Number.atMost,
    if_pos positive_one]

theorem blend_zero (start stop : α) : blend start stop 0 = start := by
  apply injective
  simp [blend, add, mul, sub, zero, one]

theorem Spans.blend {coordinates : List α} {start stop e : α} (first : Spans coordinates start)
    (last : Spans coordinates stop) (above : 0 ≤ e) (below : e ≤ 1) :
    Spans coordinates (blend start stop e) := by
  obtain ⟨⟨low, low_mem, low_le⟩, high, high_mem, le_high⟩ := first
  obtain ⟨⟨low', low_mem', low_le'⟩, high', high_mem', le_high'⟩ := last
  simp only [le_iff, zero, one] at low_le le_high low_le' le_high' above below
  -- Whichever end is the lower one, the mixture is not below it.
  rcases le_total (value start) (value stop) with upward | downward
  · refine ⟨⟨low, low_mem, ?_⟩, high', high_mem', ?_⟩ <;>
      simp only [ShowControl.blend, le_iff, add, mul, sub, one] <;> nlinarith
  · refine ⟨⟨low', low_mem', ?_⟩, high, high_mem, ?_⟩ <;>
      simp only [ShowControl.blend, le_iff, add, mul, sub, one] <;> nlinarith

/-! Single moves -/

/-- The ends of a move are between these coordinates on either axis, and its easings are tame. -/
structure Motion.Within (motion : Motion α) (xs ys : List α) : Prop where
  easeX : motion.easeX.Tame α
  easeY : motion.easeY.Tame α
  start : Spans xs motion.start.1 ∧ Spans ys motion.start.2
  stop : Spans xs motion.stop.1 ∧ Spans ys motion.stop.2

namespace Motion.Within

variable {motion : Motion α} {xs ys : List α}

omit [Number.Exact α] in
theorem mono (within : motion.Within xs ys) {xs' ys' : List α} (moreX : xs ⊆ xs')
    (moreY : ys ⊆ ys') : motion.Within xs' ys' where
  easeX := within.easeX
  easeY := within.easeY
  start := ⟨within.start.1.mono moreX, within.start.2.mono moreY⟩
  stop := ⟨within.stop.1.mono moreX, within.stop.2.mono moreY⟩

theorem position (within : motion.Within xs ys) (t : α) :
    Spans xs (motion.position t).1 ∧ Spans ys (motion.position t).2 := by
  obtain ⟨above, below⟩ := normalize_within t motion.t0 motion.t1
  obtain ⟨aboveX, belowX⟩ := within.easeX.within above below
  obtain ⟨aboveY, belowY⟩ := within.easeY.within above below
  exact ⟨within.start.1.blend within.stop.1 aboveX belowX,
    within.start.2.blend within.stop.2 aboveY belowY⟩

theorem position_of_early (within : motion.Within xs ys) (longer : motion.t0 < motion.t1) {t : α}
    (early : t ≤ motion.t0) : motion.position t = motion.start := by
  rw [Motion.position, normalize_of_early longer early, within.easeX.atStart, within.easeY.atStart,
    blend_zero, blend_zero]

theorem position_of_late (within : motion.Within xs ys) {t : α} (late : motion.t1 ≤ t) :
    motion.position t = motion.stop :=
  position_of_ended within.easeX.atEnd within.easeY.atEnd (decide_eq_true late)

end Motion.Within

end Exact

/-! The cosine of fractions -/

theorem Fraction.cosPi_eq_cosHalf {u : ℚ} (above : 0 ≤ u) (below : u ≤ 1) :
    cosPi u = cosHalf u := by
  have floor : (u / 2).floor = 0 := by
    refine le_antisymm (Int.lt_add_one_iff.1 (Rat.floor_lt_iff.2 ?_)) (Rat.le_floor_iff.2 ?_)
    · norm_num
      linarith
    · norm_num
      linarith
  rw [cosPi, floor]
  simp [below]

instance : Number.Cosine ℚ where
  cosPi_zero := by decide +kernel
  cosPi_one := by decide +kernel
  within {u} above below := by
    show 0 - 1 ≤ Fraction.cosPi u ∧ Fraction.cosPi u ≤ 1
    rw [Fraction.cosPi_eq_cosHalf above below, Fraction.cosHalf]
    split
    · have positive : 0 < 1 + u * u := by positivity
      constructor
      · rw [le_div_iff₀ positive]
        nlinarith
      · rw [div_le_one positive]
        nlinarith
    · have positive : 0 < 1 + (1 - u) * (1 - u) := by nlinarith
      constructor
      · rw [le_div_iff₀ positive]
        nlinarith
      · rw [div_le_one positive]
        nlinarith

/-! Moves that follow each other -/

/-- A move that is asked for. Its easings are given by their names, and `now` is the time on the
clock of the move that it takes over from. -/
structure Departure (α : Type) where
  motion : Motion α
  easeX : String
  easeY : String
  now : Option α

def Departure.Fair (departure : Departure α) : Prop :=
  ∀ easing, Easing.find departure.easeX = .ok easing ∨ Easing.find departure.easeY = .ok easing →
    easing.Tame α

structure Choreography (α : Type) where
  animator : Animator α
  asked : List (Motion α)

namespace Animator

theorem eval_moveNamed (motion : Motion α) (easeX easeY : String) (now : Option α)
    (a : Animator α) : (moveNamed motion easeX easeY now).eval a =
      match Easing.find easeX, Easing.find easeY with
      | .ok easeX, .ok easeY =>
        let moved := { motion with start := a.origin motion now, easeX, easeY }
        (.ok moved, a.register moved)
      | .error fault, _ | _, .error fault => (.error fault, a) := by
  simp only [moveNamed, Act.eval_bind, eval_startOf, Act.eval_ofExcept]
  cases Easing.find easeX with
  | error fault => rfl
  | ok easeX => cases Easing.find easeY <;> rfl

end Animator

namespace Choreography

def start : Choreography α := ⟨.empty, []⟩

def onAnimator {β : Type} (x : Act (Animator α) β) : Act (Choreography α) β :=
  x.zoom Choreography.animator fun c animator => { c with animator }

def depart (departure : Departure α) : Act (Choreography α) Unit := do
  let _ ← onAnimator <|
    Animator.moveNamed departure.motion departure.easeX departure.easeY departure.now
  modify fun c => { c with asked := c.asked ++ [departure.motion] }

def departAll : List (Departure α) → Act (Choreography α) Unit
  | [] => return ()
  | departure :: rest => do
    depart departure
    departAll rest

theorem eval_depart (departure : Departure α) (c : Choreography α) :
    (depart departure).eval c =
      match Easing.find departure.easeX, Easing.find departure.easeY with
      | .ok easeX, .ok easeY =>
        (.ok (), ⟨c.animator.register { departure.motion with
          start := c.animator.origin departure.motion departure.now, easeX, easeY },
          c.asked ++ [departure.motion]⟩)
      | .error fault, _ | _, .error fault => (.error fault, c) := by
  simp only [depart, onAnimator, Act.eval_bind, Act.eval_zoom, Animator.eval_moveNamed]
  cases Easing.find departure.easeX with
  | error fault => rfl
  | ok easeX => cases Easing.find departure.easeY <;> rfl

/-- What happens while a window is placed: more moves are started, and the window may not be there
to be placed. -/
def Venue (α : Type) : Type :=
  Choreography α → String → Int → Int → List (Departure α) × Except Fault Unit

def stage (progress : String → Option α) (venue : Venue α) : Stage (Choreography α) α where
  animator := Choreography.animator
  setAnimator animator c := { c with animator }
  progress _ := progress
  place node left top := do
    let (departures, answer) := venue (← get) node left top
    departAll departures
    Act.ofExcept answer

def coordinates (c : Choreography α) (node : String) (axis : α × α → α) : List α :=
  (c.asked.filter fun motion => motion.node = node).flatMap fun motion =>
    [axis motion.start, axis motion.stop]

end Choreography

/-- What may be done to the moves in flight. The clocks stand still during an advance. -/
inductive Maneuver (α : Type) where
  | move (departure : Departure α)
  | advance (progress : String → Option α) (venue : Choreography.Venue α)
  | cancel

namespace Maneuver

def act : Maneuver α → Act (Choreography α) Unit
  | move departure => Choreography.depart departure
  | advance progress venue => do
    let _ ← (Choreography.stage progress venue).advance
  | cancel => do
    let _ ← Choreography.onAnimator Animator.cancelAll

def Fair : Maneuver α → Prop
  | move departure => departure.Fair
  | advance _ venue => ∀ c node left top, ∀ departure ∈ (venue c node left top).1, departure.Fair
  | cancel => True

theorem fair [Number.Exact α] [Number.Cosine α] (maneuver : Maneuver α) : maneuver.Fair := by
  cases maneuver with
  | move => exact fun easing _ => easing.tame
  | advance => exact fun _ _ _ _ _ _ easing _ => easing.tame
  | cancel => trivial

end Maneuver

/-- What has become of the moves after some maneuvers, whether these come to their end or not. -/
def Choreography.after (maneuvers : List (Maneuver α)) : Choreography α :=
  maneuvers.foldl (fun c maneuver => (maneuver.act.eval c).2) .start

namespace Choreography

def Bounded (c : Choreography α) : Prop :=
  ∀ node motion, c.animator.motion? node = some motion →
    motion.Within (c.coordinates node Prod.fst) (c.coordinates node Prod.snd)

def KeepsBounds (c d : Choreography α) : Prop := c.Bounded → d.Bounded

instance : IsPreorder (Choreography α) KeepsBounds where
  refl _ := id
  trans _ _ _ first second := second ∘ first

omit [Number α] in
theorem coordinates_ask (c : Choreography α) (a : Animator α) (motion : Motion α) (node : String)
    (axis : α × α → α) : coordinates ⟨a, c.asked ++ [motion]⟩ node axis =
      c.coordinates node axis ++
        if motion.node = node then [axis motion.start, axis motion.stop] else [] := by
  rw [coordinates, List.filter_append, List.flatMap_append, List.filter_singleton]
  by_cases same : motion.node = node <;> simp [same, coordinates]

variable [Number.Exact α]

theorem within_of_depart {c : Choreography α} (bounded : c.Bounded) (motion : Motion α)
    (now : Option α) {easeX easeY : Easing} (tameX : easeX.Tame α) (tameY : easeY.Tame α)
    (a : Animator α) :
    let d : Choreography α := ⟨a, c.asked ++ [motion]⟩
    Motion.Within { motion with start := c.animator.origin motion now, easeX, easeY }
      (d.coordinates motion.node Prod.fst) (d.coordinates motion.node Prod.snd) := by
  intro d
  have asked (axis : α × α → α) : d.coordinates motion.node axis =
      c.coordinates motion.node axis ++ [axis motion.start, axis motion.stop] := by
    rw [coordinates_ask, if_pos rfl]
  have given (axis : α × α → α) : Spans (d.coordinates motion.node axis) (axis motion.start) ∧
      Spans (d.coordinates motion.node axis) (axis motion.stop) := by
    rw [asked]
    exact ⟨spans_of_mem (by simp), spans_of_mem (by simp)⟩
  refine ⟨tameX, tameY, ?_, (given Prod.fst).2, (given Prod.snd).2⟩
  show Spans _ (c.animator.origin motion now).1 ∧ Spans _ (c.animator.origin motion now).2
  rw [Animator.origin]
  cases inFlight : c.animator.motion? motion.node with
  | none => exact ⟨(given Prod.fst).1, (given Prod.snd).1⟩
  -- The older move has got to a place between the coordinates that were asked for before.
  | some prior =>
    obtain ⟨x, y⟩ := (bounded motion.node prior inFlight).position (now.getD prior.t0)
    rw [asked, asked]
    exact ⟨x.mono (List.subset_append_left _ _), y.mono (List.subset_append_left _ _)⟩

theorem keepsBounds_depart {departure : Departure α} (fair : departure.Fair) :
    (depart departure).Keeps KeepsBounds := by
  intro c bounded
  rw [eval_depart]
  cases findX : Easing.find departure.easeX with
  | error fault => exact bounded
  | ok easeX =>
    cases findY : Easing.find departure.easeY with
    | error fault => exact bounded
    | ok easeY =>
      have tameX := fair easeX (.inl findX)
      have tameY := fair easeY (.inr findY)
      intro node motion inFlight
      dsimp only at inFlight
      rw [Animator.motion?_register] at inFlight
      by_cases here : node = departure.motion.node
      · subst here
        rw [Function.update_self] at inFlight
        obtain rfl := Option.some.inj inFlight
        exact within_of_depart bounded departure.motion departure.now tameX tameY _
      · rw [Function.update_of_ne here] at inFlight
        refine (bounded node motion inFlight).mono ?_ ?_ <;> rw [coordinates_ask] <;>
          exact List.subset_append_left _ _

theorem keepsBounds_departAll {departures : List (Departure α)}
    (fair : ∀ departure ∈ departures, departure.Fair) :
    (departAll departures).Keeps KeepsBounds := by
  induction departures with
  | nil => exact Act.keeps_pure ()
  | cons departure rest ih =>
    obtain ⟨first, others⟩ := List.forall_mem_cons.1 fair
    exact Act.keeps_bind (keepsBounds_depart first) fun _ => ih others

theorem keepsBounds_act {maneuver : Maneuver α} (fair : maneuver.Fair) :
    maneuver.act.Keeps KeepsBounds := by
  cases maneuver with
  | move departure => exact keepsBounds_depart fair
  | advance progress venue =>
    refine Act.keeps_bind (Stage.keeps_advance ?_ ?_) fun _ => Act.keeps_pure ()
    · intro node left top
      refine Act.keeps_bind Act.keeps_get fun c => ?_
      exact Act.keeps_bind (keepsBounds_departAll (fair c node left top)) fun _ =>
        Act.keeps_ofExcept _
    · intro c gone bounded node motion inFlight
      simp only [stage, Animator.motion?, Animator.get?_remove] at inFlight
      split at inFlight
      · cases inFlight
      · exact bounded node motion inFlight
  | cancel =>
    refine Act.keeps_bind (fun c bounded node motion inFlight => ?_) fun _ => Act.keeps_pure ()
    rw [onAnimator, Act.eval_zoom, Animator.eval_cancelAll] at inFlight
    cases inFlight

theorem bounded_after {maneuvers : List (Maneuver α)}
    (fair : ∀ maneuver ∈ maneuvers, maneuver.Fair) : (after maneuvers).Bounded := by
  have along {c : Choreography α} (bounded : c.Bounded) :
      Bounded (maneuvers.foldl (fun c maneuver => (maneuver.act.eval c).2) c) := by
    induction maneuvers generalizing c with
    | nil => exact bounded
    | cons maneuver rest ih =>
      obtain ⟨first, others⟩ := List.forall_mem_cons.1 fair
      exact ih others (keepsBounds_act first c bounded)
  exact along fun node motion inFlight => nomatch inFlight

end Choreography

/-- Whatever moves follow each other, a window never leaves the coordinates that were asked for. A
move is at its start until it begins and at its end once it is over. One that takes over starts where
the older one has got to, or at the beginning of that if no time is given, and not where it was asked
to start. Linear easings, held ones and those by the cosine are tame. -/
theorem moves_never_overshoot [Number.Exact α] {maneuvers : List (Maneuver α)}
    (fair : ∀ maneuver ∈ maneuvers, maneuver.Fair) :
    let c := Choreography.after maneuvers
    (∀ node motion, c.animator.motion? node = some motion →
      (∀ t, Spans (c.coordinates node Prod.fst) (motion.position t).1 ∧
        Spans (c.coordinates node Prod.snd) (motion.position t).2) ∧
      (motion.t0 < motion.t1 → ∀ t, (t ≤ motion.t0 → motion.position t = motion.start) ∧
        (motion.t1 ≤ t → motion.position t = motion.stop))) ∧
    (∀ prior motion easeX easeY now, c.animator.motion? motion.node = some prior →
      ∃ moved a, (Animator.moveNamed motion (Easing.name easeX) (Easing.name easeY) now).Returns
          c.animator moved a ∧
        a.motion? motion.node = some moved ∧
        moved = { motion with start := prior.position (now.getD prior.t0), easeX, easeY }) ∧
    (Number.Cosine α → ∀ easing : Easing, easing.Tame α) := by
  intro c
  have bounded : c.Bounded := Choreography.bounded_after fair
  refine ⟨fun node motion inFlight => ?_, fun prior motion easeX easeY now inFlight => ?_,
    fun _ => Easing.tame⟩
  · have within := bounded node motion inFlight
    refine ⟨within.position, fun longer t => ⟨within.position_of_early longer, ?_⟩⟩
    exact within.position_of_late
  · have found (easing : Easing) : Easing.find easing.name = .ok easing := by
      rw [Easing.find, Easing.ofName?_name]
    refine ⟨_, c.animator.register { motion with
      start := prior.position (now.getD prior.t0), easeX, easeY }, ?_, ?_, rfl⟩
    · rw [Act.Returns, Animator.eval_moveNamed, found, found, Animator.origin, inFlight]
    · rw [Animator.motion?_register, Function.update_self]

def Sample.crossing : List (Maneuver ℚ) :=
  [.move ⟨⟨"a", some "c", 0, 2, (0, 0), (8, 4), .linear, .linear⟩, "linear", "cos", none⟩,
    .advance (fun _ => some 1) fun _ _ _ _ => ([], .ok ()),
    .move ⟨⟨"a", some "c", 1, 3, (50, 50), (2, 6), .linear, .linear⟩, "mcos", "jump", some 1⟩]

/-- The second move does not start where it is asked to. -/
theorem moves_never_overshoot_sample :
    let c := Choreography.after Sample.crossing
    (∀ maneuver ∈ Sample.crossing, maneuver.Fair) ∧
    c.coordinates "a" Prod.fst = [0, 8, 50, 2] ∧
    ∃ motion, c.animator.motion? "a" = some motion ∧ motion.start = (4, 2) ∧
      (∀ t, Spans (c.coordinates "a" Prod.fst) (motion.position t).1 ∧
        Spans (c.coordinates "a" Prod.snd) (motion.position t).2) ∧
      motion.t0 < motion.t1 ∧
      (∀ t, (t ≤ motion.t0 → motion.position t = motion.start) ∧
        (motion.t1 ≤ t → motion.position t = motion.stop)) ∧
      ∃ moved a, (Animator.moveNamed motion "jump" "mcos" none).Returns c.animator moved a ∧
        a.motion? "a" = some moved ∧
        moved = { motion with start := motion.position motion.t0, easeX := .jump, easeY := .mcos } := by
  intro c
  have fair : ∀ maneuver ∈ Sample.crossing, maneuver.Fair := fun maneuver _ => maneuver.fair
  have checks : c.coordinates "a" Prod.fst = [0, 8, 50, 2] ∧
      (c.animator.motion? "a").map (fun motion => (motion.node, motion.start, motion.t0, motion.t1)) =
        some ("a", (4, 2), 1, 3) := by
    decide +kernel
  obtain ⟨asked, found⟩ := checks
  obtain ⟨motion, inFlight, parts⟩ := Option.map_eq_some_iff.1 found
  obtain ⟨node, start, t0, t1⟩ : motion.node = "a" ∧ motion.start = (4, 2) ∧ motion.t0 = 1 ∧
      motion.t1 = 3 := by
    simpa only [Prod.mk.injEq] using parts
  obtain ⟨bounds, takes, -⟩ := moves_never_overshoot fair
  obtain ⟨within, ends⟩ := bounds "a" motion inFlight
  have longer : motion.t0 < motion.t1 := by
    rw [t0, t1]
    decide +kernel
  obtain ⟨moved, a, returned, held, same⟩ :=
    takes motion motion .jump .mcos none (node.symm ▸ inFlight)
  rw [node] at held
  exact ⟨fair, asked, motion, inFlight, start, within, longer, ends longer, moved, a, returned, held,
    same⟩

end ShowControl
