import Mathlib.Logic.Function.Basic
import ShowControl.Animation.Animator
import ShowControl.Proofs.Act
import ShowControl.Proofs.Table

/-! What becomes of the moves in flight.

A course is made of starts and retirements. It accounts for every move that is started in it: the
move is still in flight, or a later one on its node has taken over, or it has been retired. Nothing is
cancelled in a course. -/

set_option autoImplicit false
namespace ShowControl

variable {α : Type}

/-- A change of the moves in flight. -/
inductive Change (α : Type) where
  | started (number : Nat) (motion : Motion α)
  | retired (number : Nat) (motion : Motion α)

namespace Animator

/-- Starts, and retirements of moves that have ended. -/
inductive Course (ended : Motion α → Prop) : Animator α → List (Change α) → Animator α → Prop where
  | rest (a : Animator α) : Course ended a [] a
  | start {a b : Animator α} {changes : List (Change α)} (motion : Motion α) :
      Course ended a changes b →
      Course ended a (changes ++ [.started b.registered motion]) (b.register motion)
  | retire {a b : Animator α} {changes : List (Change α)} {number : Nat} {motion : Motion α} :
      Course ended a changes b → b.entries.get? motion.node = some (number, motion) →
      ended motion → Course ended a (changes ++ [.retired number motion]) (b.remove motion.node)

namespace Course

variable {ended ended' : Motion α → Prop} {a b c : Animator α} {changes more : List (Change α)}

theorem append (first : Course ended a changes b) (second : Course ended b more c) :
    Course ended a (changes ++ more) c := by
  induction second with
  | rest => simpa using first
  | start motion _ ih =>
    rw [← List.append_assoc]
    exact ih.start motion
  | retire _ found finished ih =>
    rw [← List.append_assoc]
    exact ih.retire found finished

theorem mono (course : Course ended a changes b) (weaker : ∀ motion, ended motion → ended' motion) :
    Course ended' a changes b := by
  induction course with
  | rest => exact .rest _
  | start motion _ ih => exact ih.start motion
  | retire _ found finished ih => exact ih.retire found (weaker _ finished)

end Course

/-- Every move stands under its node and has a number that has been given out. -/
structure Sound (a : Animator α) : Prop where
  keyed {node : String} {number : Nat} {motion : Motion α} :
    a.entries.get? node = some (number, motion) → motion.node = node
  numbered {node : String} {number : Nat} {motion : Motion α} :
    a.entries.get? node = some (number, motion) → number < a.registered

theorem sound_of_empty {a : Animator α} (empty : a.entries = .empty) : a.Sound where
  keyed found := by simp [empty] at found
  numbered found := by simp [empty] at found

theorem get?_register (a : Animator α) (motion : Motion α) (node : String) :
    (a.register motion).entries.get? node =
      if node = motion.node then some (a.registered, motion) else a.entries.get? node :=
  Table.get?_insert ..

theorem motion?_register (a : Animator α) (motion : Motion α) :
    (a.register motion).motion? = Function.update a.motion? motion.node (some motion) := by
  funext node
  rw [motion?, get?_register]
  by_cases here : node = motion.node
  · rw [if_pos here, here, Function.update_self, Option.map_some]
  · rw [if_neg here, Function.update_of_ne here]
    rfl

theorem get?_remove (a : Animator α) (gone node : String) :
    (a.remove gone).entries.get? node = if node = gone then none else a.entries.get? node :=
  Table.get?_erase ..

/-- Where a new move starts, whatever start it is asked for with. -/
def origin [Number α] (a : Animator α) (motion : Motion α) (now : Option α) : α × α :=
  match a.motion? motion.node with
  | none => motion.start
  | some prior => prior.position (now.getD prior.t0)

theorem eval_startOf [Number α] (a : Animator α) (motion : Motion α) (now : Option α) :
    (startOf motion.node motion.start now).eval a = (.ok (a.origin motion now), a) := by
  simp only [startOf, origin, Act.eval_bind, Act.eval_get]
  cases a.motion? motion.node <;> rfl

theorem eval_move [Number α] (motion : Motion α) (now : Option α) (a : Animator α) :
    (move motion now).eval a =
      let moved := { motion with start := a.origin motion now }
      (.ok moved, a.register moved) := by
  simp only [move, Act.eval_bind, eval_startOf]
  rfl

theorem eval_cancelAll (a : Animator α) :
    cancelAll.eval a = (.ok a.count, { a with entries := .empty }) := by
  simp only [cancelAll, Act.eval_bind, Act.eval_get, Act.eval_modify]
  split <;> rfl

theorem Sound.register {a : Animator α} (sound : a.Sound) (motion : Motion α) :
    (a.register motion).Sound where
  keyed found := by
    rw [get?_register] at found
    split at found
    · next same => cases found; exact same.symm
    · exact sound.keyed found
  numbered found := by
    rw [get?_register] at found
    show _ < a.registered + 1
    split at found
    · cases found; exact Nat.lt_succ_self _
    · exact Nat.lt_succ_of_lt (sound.numbered found)

theorem Sound.remove {a : Animator α} (sound : a.Sound) (gone : String) : (a.remove gone).Sound where
  keyed found := by
    rw [get?_remove] at found
    split at found
    · cases found
    · exact sound.keyed found
  numbered found := by
    rw [get?_remove] at found
    split at found
    · cases found
    · exact sound.numbered found

namespace Course

variable {ended : Motion α → Prop} {a b : Animator α} {changes : List (Change α)}

theorem sound (course : Course ended a changes b) (start : a.Sound) : b.Sound := by
  induction course with
  | rest => exact start
  | start motion _ ih => exact ih.register motion
  | retire _ _ _ ih => exact ih.remove _

/-- What has become of a move that was started. -/
theorem accounts (course : Course ended a changes b) (sound : a.Sound) {number : Nat}
    {motion : Motion α} (started : .started number motion ∈ changes) :
    b.entries.get? motion.node = some (number, motion) ∨
    (∃ later next, number < later ∧ next.node = motion.node ∧ .started later next ∈ changes) ∨
    .retired number motion ∈ changes := by
  induction course with
  | rest => cases started
  | @start b changes next course ih =>
    rcases List.mem_append.1 started with before | now
    · rcases ih before with inFlight | ⟨later, other, above, same, member⟩ | retired
      · by_cases same : motion.node = next.node
        · refine .inr (.inl ⟨b.registered, next, (course.sound sound).numbered inFlight,
            same.symm, ?_⟩)
          exact List.mem_append_right _ List.mem_cons_self
        · left
          rw [get?_register, if_neg same]
          exact inFlight
      · exact .inr (.inl ⟨later, other, above, same, List.mem_append_left _ member⟩)
      · exact .inr (.inr (List.mem_append_left _ retired))
    · obtain ⟨rfl, rfl⟩ := Change.started.inj (List.mem_singleton.1 now)
      left
      rw [get?_register, if_pos rfl]
  | @retire b changes n gone course found finished ih =>
    rcases List.mem_append.1 started with before | now
    · rcases ih before with inFlight | ⟨later, other, above, same, member⟩ | retired
      · by_cases same : motion.node = gone.node
        · rw [same, found] at inFlight
          cases inFlight
          exact .inr (.inr (List.mem_append_right _ List.mem_cons_self))
        · left
          rw [get?_remove, if_neg same]
          exact inFlight
      · exact .inr (.inl ⟨later, other, above, same, List.mem_append_left _ member⟩)
      · exact .inr (.inr (List.mem_append_left _ retired))
    · cases List.mem_singleton.1 now

end Course

end Animator

/-! An advance -/

namespace Stage

variable {σ : Type} [Number α] {stage : Stage σ α} {R : σ → σ → Prop} [IsPreorder σ R]

theorem keeps_advanceMotion (place : ∀ node left top, (stage.place node left top).Keeps R)
    (remove : ∀ s node, R s (stage.setAnimator ((stage.animator s).remove node) s)) (number : Nat)
    (motion : Motion α) : (stage.advanceMotion number motion).Keeps R := by
  have retire : (stage.retire number motion.node).Keeps R := by
    intro s
    simp only [Stage.retire, Act.eval_bind, Act.eval_get]
    split
    · exact remove s motion.node
    · exact refl_of R s
  refine Act.keeps_bind Act.keeps_get fun s => ?_
  split
  · exact Act.keeps_pure _
  · split
    · exact Act.keeps_pure _
    · refine Act.keeps_bind (Act.keeps_ofExcept _) fun left =>
        Act.keeps_bind (Act.keeps_ofExcept _) fun top => Act.keeps_bind (place _ _ _) fun _ => ?_
      split
      · exact Act.keeps_bind retire fun _ => Act.keeps_bind (Act.keeps_log _ _) fun _ =>
          Act.keeps_pure _
      · exact Act.keeps_pure _

/-- An advance keeps what placing a window and taking out a move keep, wherever it is cut short. -/
theorem keeps_advance (place : ∀ node left top, (stage.place node left top).Keeps R)
    (remove : ∀ s node, R s (stage.setAnimator ((stage.animator s).remove node) s)) :
    stage.advance.Keeps R := by
  have along (entries : List (Nat × Motion α)) : (stage.advanceMotions entries).Keeps R := by
    induction entries with
    | nil => exact Act.keeps_pure []
    | cons entry rest ih =>
      exact Act.keeps_bind (keeps_advanceMotion place remove _ _) fun _ =>
        Act.keeps_bind ih fun _ => Act.keeps_pure _
  exact Act.keeps_bind Act.keeps_get fun _ => along _

end Stage

end ShowControl
