import Mathlib.Data.List.Nodup
import ShowControl.Proofs.Number.Order
import ShowControl.Script.Program

/-! The timeline of a program.

The cues of a program are numbered by their positions. On the timeline of a clock they stand in the
order of their thresholds, and those with one threshold in script order, provided that the thresholds
can be compared. -/

set_option autoImplicit false
namespace ShowControl

variable {α : Type}

def Cue.thresholdOn? (cue : Cue α) (clock : String) : Option α :=
  match cue.trigger with
  | .progress c threshold => if c = clock then some threshold else none
  | _ => none

theorem Cue.thresholdOn?_eq_some {cue : Cue α} {clock : String} {threshold : α} :
    cue.thresholdOn? clock = some threshold ↔ cue.trigger = .progress clock threshold := by
  cases trigger : cue.trigger <;> simp [thresholdOn?, trigger]

def Cue.timedOn (cue : Cue α) (clock : String) : Bool := (cue.thresholdOn? clock).isSome

namespace Program

/-- The orders of the cues are their positions. -/
def Numbered (p : Program α) : Prop := p.cues.map Cue.order = List.range p.cues.length

theorem Numbered.distinct {p : Program α} (numbered : p.Numbered) : (p.cues.map Cue.order).Nodup := by
  rw [numbered]
  exact List.nodup_range

theorem Numbered.inOrder {p : Program α} (numbered : p.Numbered) {cues : List (Cue α)}
    (part : cues.Sublist p.cues) : (cues.map Cue.order).Pairwise (· < ·) := by
  refine List.Pairwise.sublist (part.map Cue.order) ?_
  rw [numbered]
  exact List.pairwise_lt_range

theorem Numbered.eq_of_order {p : Program α} (numbered : p.Numbered) {a b : Cue α}
    (left : a ∈ p.cues) (right : b ∈ p.cues) (same : a.order = b.order) : a = b :=
  List.inj_on_of_nodup_map numbered.distinct left right same

variable [Number α]

/-- The thresholds of the progress cues can be compared. -/
def Comparable (p : Program α) : Prop :=
  ∀ cue ∈ p.cues, ∀ clock threshold, cue.trigger = .progress clock threshold →
    Number.Comparable threshold

def precedes (a b : α × Cue α) : Prop :=
  a.1 < b.1 ∨ ¬b.1 < a.1 ∧ a.2.order < b.2.order

def entriesOn (p : Program α) (clock : String) : List (α × Cue α) :=
  p.cues.filterMap fun cue => (cue.thresholdOn? clock).map fun threshold => (threshold, cue)

theorem timelineOn_perm (p : Program α) (clock : String) :
    (p.timelineOn clock).Perm (p.entriesOn clock) := by
  refine ((List.mergeSort_perm _ _).filterMap _).trans (.of_eq ?_)
  rw [entriesOn, List.filterMap_filterMap]
  refine List.filterMap_congr fun cue _ => ?_
  cases trigger : cue.trigger with
  | progress c threshold => by_cases same : c = clock <;> simp [Cue.thresholdOn?, trigger, same]
  | _ => simp [Cue.thresholdOn?, trigger]

theorem mem_timelineOn {p : Program α} {clock : String} {threshold : α} {cue : Cue α} :
    (threshold, cue) ∈ p.timelineOn clock ↔
      cue ∈ p.cues ∧ cue.thresholdOn? clock = some threshold := by
  rw [(p.timelineOn_perm clock).mem_iff]
  simp only [entriesOn, List.mem_filterMap, Option.map_eq_some_iff, Prod.mk.injEq]
  constructor
  · rintro ⟨_, member, _, on, rfl, rfl⟩
    exact ⟨member, on⟩
  · rintro ⟨member, on⟩
    exact ⟨cue, member, threshold, on, rfl, rfl⟩

theorem cues_timelineOn (p : Program α) (clock : String) :
    ((p.timelineOn clock).map Prod.snd).Perm (p.cues.filter fun cue => cue.timedOn clock) := by
  refine ((p.timelineOn_perm clock).map Prod.snd).trans (.of_eq ?_)
  rw [entriesOn, List.map_filterMap, ← List.filterMap_eq_filter]
  refine List.filterMap_congr fun cue _ => ?_
  cases on : cue.thresholdOn? clock <;> simp [Cue.timedOn, on, Option.guard]

theorem Numbered.timelineOn {p : Program α} (numbered : p.Numbered) (clock : String) :
    ((p.timelineOn clock).map fun entry => entry.2.order).Nodup := by
  have perm := (p.cues_timelineOn clock).map Cue.order
  rw [List.map_map] at perm
  exact perm.nodup_iff.2 ((List.filter_sublist.map Cue.order).nodup numbered.distinct)

theorem comparable_of_mem_timelineOn {p : Program α} (comparable : p.Comparable) {clock : String}
    {entry : α × Cue α} (member : entry ∈ p.timelineOn clock) : Number.Comparable entry.1 := by
  obtain ⟨present, on⟩ := mem_timelineOn.1 member
  exact comparable _ present _ _ (Cue.thresholdOn?_eq_some.1 on)

variable [Number.Ordered α]

private def ranked (a b : String × α × Cue α) : Bool :=
  if a.2.1 < b.2.1 then true
  else if b.2.1 < a.2.1 then false
  else a.2.2.order ≤ b.2.2.order

omit [Number.Ordered α] in
private theorem ranked_iff {a b : String × α × Cue α} :
    ranked a b = true ↔
      a.2.1 < b.2.1 ∨ ¬b.2.1 < a.2.1 ∧ a.2.2.order ≤ b.2.2.order := by
  simp only [ranked]
  split
  · next below => simp [below]
  · next notBelow => split <;> simp_all

private theorem ranked_trans {a b c : String × α × Cue α} (left : Number.Comparable a.2.1)
    (middle : Number.Comparable b.2.1) (right : Number.Comparable c.2.1)
    (first : ranked a b = true) (second : ranked b c = true) : ranked a c = true := by
  rw [ranked_iff, Number.Ordered.lt_iff left middle, Number.not_lt_iff middle left] at first
  rw [ranked_iff, Number.Ordered.lt_iff middle right, Number.not_lt_iff right middle] at second
  rw [ranked_iff, Number.Ordered.lt_iff left right, Number.not_lt_iff right left]
  by_cases back : c.2.1 ≤ a.2.1
  · -- Going back from the last to the first leaves only ties.
    rcases first with above | ⟨upToMiddle, orders⟩
    · have upToMiddle := (Number.Ordered.le_total left middle).resolve_right above
      rcases second with above' | ⟨upToRight, _⟩
      · exact absurd (Number.Ordered.le_trans back upToMiddle) above'
      · exact absurd (Number.Ordered.le_trans upToRight back) above
    · rcases second with above' | ⟨upToRight, orders'⟩
      · exact absurd (Number.Ordered.le_trans back upToMiddle) above'
      · exact .inr ⟨Number.Ordered.le_trans upToMiddle upToRight, orders.trans orders'⟩
  · exact .inl back

omit [Number.Ordered α] in
private theorem ranked_total (a b : String × α × Cue α) : ranked a b = true ∨ ranked b a = true := by
  by_cases below : a.2.1 < b.2.1
  · exact .inl (ranked_iff.2 (.inl below))
  · by_cases above : b.2.1 < a.2.1
    · exact .inr (ranked_iff.2 (.inl above))
    · rcases Nat.le_total a.2.2.order b.2.2.order with orders | orders
      · exact .inl (ranked_iff.2 (.inr ⟨above, orders⟩))
      · exact .inr (ranked_iff.2 (.inr ⟨below, orders⟩))

private theorem pairwise_ranked {entries : List (String × α × Cue α)}
    (comparable : ∀ entry ∈ entries, Number.Comparable entry.2.1) :
    (entries.mergeSort ranked).Pairwise fun a b => ranked a b = true := by
  -- Among comparable thresholds the rule is transitive, so the sorting is taken there.
  let rule (a b : { e : String × α × Cue α // Number.Comparable e.2.1 }) : Bool := ranked a.1 b.1
  have trans : ∀ a b c, rule a b = true → rule b c = true → rule a c = true :=
    fun a b c => ranked_trans a.2 b.2 c.2
  have total : ∀ a b, (rule a b || rule b a) = true :=
    fun a b => Bool.or_eq_true_iff.2 (ranked_total a.1 b.1)
  have sorted := List.pairwise_mergeSort trans total (entries.attachWith _ comparable)
  have same := List.map_mergeSort (r := rule) (s := ranked) (f := Subtype.val)
    (l := entries.attachWith _ comparable) fun _ _ _ _ => rfl
  rw [List.attachWith_map_subtype_val] at same
  rw [← same, List.pairwise_map]
  exact sorted

theorem timelineOn_sorted {p : Program α} (numbered : p.Numbered) (comparable : p.Comparable)
    (clock : String) : (p.timelineOn clock).Pairwise precedes := by
  have entries : ∀ entry ∈ p.cues.filterMap (fun cue => match cue.trigger with
      | .progress clock threshold => some (clock, threshold, cue)
      | _ => none), Number.Comparable entry.2.1 := by
    intro entry member
    obtain ⟨cue, present, found⟩ := List.mem_filterMap.1 member
    cases trigger : cue.trigger with
    | progress c threshold =>
      rw [trigger] at found
      cases found
      exact comparable cue present c threshold trigger
    | _ => simp [trigger] at found
  have ranks : (p.timelineOn clock).Pairwise fun a b =>
      a.1 < b.1 ∨ ¬b.1 < a.1 ∧ a.2.order ≤ b.2.order := by
    refine List.Pairwise.filterMap _ ?_ (pairwise_ranked entries)
    intro a b rank a' left b' right
    simp only [Option.ite_none_right_eq_some, Option.some.injEq] at left right
    obtain ⟨_, rfl⟩ := left
    obtain ⟨_, rfl⟩ := right
    exact ranked_iff.1 rank
  refine ranks.imp₂ (fun a b rank different => ?_) (List.pairwise_map.1 (numbered.timelineOn clock))
  exact rank.imp_right fun ⟨notAbove, orders⟩ => ⟨notAbove, Nat.lt_of_le_of_ne orders different⟩

end Program
end ShowControl
