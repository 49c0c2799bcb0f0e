import Mathlib.Data.Nat.Find
import ShowControl.Proofs.Pipeline.Chain

/-! The search for a hint along a chain.

It goes ring by ring and follows each link at most once. The names that it has met are left out, but
these lead only to what it has met by the next ring. -/

set_option autoImplicit false
namespace ShowControl.Pipeline

/-! First hits -/

section Hits

variable {β : Type} {f : String → Option β} {seen names : List String}

theorem findSome?_flatMap (next : String → List String) :
    (names.flatMap next).findSome? f = names.findSome? fun name => (next name).findSome? f := by
  induction names with
  | nil => rfl
  | cons name names ih =>
    rw [List.flatMap_cons, List.findSome?_append, ih, List.findSome?_cons]
    cases (next name).findSome? f <;> rfl

def fresh (seen : List String) : List String → List String
  | [] => []
  | name :: names => if name ∈ seen then fresh seen names else name :: fresh (name :: seen) names

theorem mem_fresh {name : String} : name ∈ fresh seen names ↔ name ∈ names ∧ name ∉ seen := by
  induction names generalizing seen with
  | nil => simp [fresh]
  | cons other names ih =>
    rw [fresh]
    split
    · next met =>
      rw [ih, List.mem_cons]
      constructor
      · rintro ⟨member, new⟩
        exact ⟨.inr member, new⟩
      · rintro ⟨rfl | member, new⟩
        · exact absurd met new
        · exact ⟨member, new⟩
    · next new =>
      rw [List.mem_cons, List.mem_cons, ih, List.mem_cons]
      by_cases same : name = other
      · subst same
        simp [new]
      · simp [same]

theorem findSome?_fresh (silent : ∀ name ∈ seen, f name = none) :
    (fresh seen names).findSome? f = names.findSome? f := by
  induction names generalizing seen with
  | nil => rfl
  | cons name names ih =>
    rw [fresh]
    split
    · next met => rw [ih silent, List.findSome?_cons, silent name met]
    · rw [List.findSome?_cons, List.findSome?_cons]
      cases hit : f name with
      | some b => rfl
      | none => exact ih (List.forall_mem_cons.2 ⟨hit, silent⟩)

end Hits

def Layout.revealed? (layout : Layout) (name : String) : Option Medium :=
  (layout.element? name).bind fun e => hint e.kind

def Layout.hintAt (layout : Layout) (d : Direction) (root : String) (n : Nat) : Option Medium :=
  (layout.ring d root n).findSome? layout.revealed?

theorem Layout.hintAt_eq_none_iff {layout : Layout} {d : Direction} {root : String} {n : Nat} :
    layout.hintAt d root n = none ↔ ∀ name ∈ layout.ring d root n, layout.revealed? name = none :=
  List.findSome?_eq_none_iff

/-! The turns of the search -/

/-- The search takes so many turns to its answer, one for each name that it takes from the queue. -/
inductive Search (layout : Layout) (next : String → List String) :
    Nat → List String → List String → Option Medium → Prop where
  | exhausted {seen : List String} : Search layout next 0 seen [] none
  | met {turns : Nat} {seen queue : List String} {name : String} {answer : Option Medium} :
      name ∈ seen → Search layout next turns seen queue answer →
      Search layout next (turns + 1) seen (name :: queue) answer
  | foreign {turns : Nat} {seen queue : List String} {name : String} {answer : Option Medium} :
      name ∉ seen → layout.element? name = none →
      Search layout next turns (name :: seen) queue answer →
      Search layout next (turns + 1) seen (name :: queue) answer
  | hinted {seen queue : List String} {name : String} {e : Element} {m : Medium} :
      name ∉ seen → layout.element? name = some e → hint e.kind = some m →
      Search layout next 1 seen (name :: queue) (some m)
  | silent {turns : Nat} {seen queue : List String} {name : String} {e : Element}
      {answer : Option Medium} :
      name ∉ seen → layout.element? name = some e → hint e.kind = none →
      Search layout next turns (name :: seen) (queue ++ next name) answer →
      Search layout next (turns + 1) seen (name :: queue) answer

section Turns

variable {layout : Layout} {d : Direction} {seen queue : List String}

/-- Each link is followed at most once, so the search takes no more turns than names wait and links
are left to follow. -/
theorem exists_search (layout : Layout) (d : Direction) (seen queue : List String) :
    ∃ turns ≤ queue.length + layout.links.countP (fun l => l.near d ∉ seen),
      Search layout (layout.next d) turns seen queue
        (nearestHint layout (layout.next d) seen queue) := by
  fun_induction nearestHint layout (layout.next d) seen queue with
  | case1 seen => exact ⟨0, Nat.zero_le _, .exhausted⟩
  | case2 seen name queue met ih =>
    obtain ⟨turns, few, search⟩ := ih
    exact ⟨turns + 1, by simp only [List.length_cons]; omega, .met met search⟩
  | case3 seen name queue new absent ih =>
    obtain ⟨turns, few, search⟩ := ih
    have fewer := layout.length_next_add_countP d new
    exact ⟨turns + 1, by simp only [List.length_cons]; omega, .foreign new absent search⟩
  | case4 seen name queue new e found m hints =>
    exact ⟨1, by simp only [List.length_cons]; omega, .hinted new found hints⟩
  | case5 seen name queue new e found bare ih =>
    obtain ⟨turns, few, search⟩ := ih
    have fewer := layout.length_next_add_countP d new
    rw [List.length_append] at few
    exact ⟨turns + 1, by simp only [List.length_cons]; omega, .silent new found bare search⟩

theorem Search.sound {turns : Nat} {answer : Option Medium} {m : Medium}
    (search : Search layout (layout.next d) turns seen queue answer) (answers : answer = some m) :
    ∃ name ∈ queue, ∃ other, layout.Leads d name other ∧ layout.revealed? other = some m := by
  induction search with
  | exhausted => cases answers
  | met _ _ ih | foreign _ _ _ ih =>
    obtain ⟨name, waits, found⟩ := ih answers
    exact ⟨name, List.mem_cons_of_mem _ waits, found⟩
  | @hinted seen queue name e m' _ found hints =>
    cases answers
    exact ⟨name, List.mem_cons_self, name, .refl, by simp [Layout.revealed?, found, hints]⟩
  | @silent turns seen queue name e answer _ _ _ _ ih =>
    obtain ⟨between, waits, other, leads, reveals⟩ := ih answers
    rcases List.mem_append.1 waits with waits | step
    · exact ⟨between, List.mem_cons_of_mem _ waits, other, leads, reveals⟩
    · exact ⟨name, List.mem_cons_self, other, .head step leads, reveals⟩

end Turns

/-! Ring by ring -/

section Rings

variable {layout : Layout} {next : String → List String} {seen : List String} {name : String}

theorem nearestHint_of_met (met : name ∈ seen) (queue : List String) :
    nearestHint layout next seen (name :: queue) = nearestHint layout next seen queue := by
  rw [nearestHint, if_pos met]

theorem nearestHint_of_new (new : name ∉ seen) (known : name ∈ layout.names)
    (queue : List String) :
    nearestHint layout next seen (name :: queue) =
      (layout.revealed? name).or (nearestHint layout next (name :: seen) (queue ++ next name)) := by
  rw [nearestHint, if_neg new, Layout.revealed?]
  split
  · next absent =>
    obtain ⟨e, member, rfl⟩ := List.mem_map.1 known
    simpa using List.find?_eq_none.1 absent e member
  · next e found =>
    rw [found, Option.bind_some]
    split
    · next hints => rw [hints, Option.some_or]
    · next hints => rw [hints, Option.none_or]

theorem nearestHint_append {front : List String} (known : ∀ name ∈ front, name ∈ layout.names)
    (behind : List String) :
    nearestHint layout next seen (front ++ behind) =
      ((fresh seen front).findSome? layout.revealed?).or
        (nearestHint layout next ((fresh seen front).reverse ++ seen)
          (behind ++ (fresh seen front).flatMap next)) := by
  induction front generalizing seen behind with
  | nil => simp [fresh]
  | cons name front ih =>
    obtain ⟨first, known⟩ := List.forall_mem_cons.1 known
    rw [List.cons_append]
    by_cases met : name ∈ seen
    · rw [nearestHint_of_met met, ih known, fresh, if_pos met]
    · rw [nearestHint_of_new met first, List.append_assoc, ih known, fresh, if_neg met,
        ← Option.or_assoc]
      congr 1
      · rw [List.findSome?_cons]
        cases layout.revealed? name <;> rfl
      · simp

end Rings

section Rounds

variable {layout : Layout} {d : Direction} {root : String} {n : Nat} {seen queue : List String}

/-- The search has met the names of the rings up to the `n`th. What waits stands for the next ring:
where nothing is hit among the names that have been met, both have the same first hit. -/
structure Round (layout : Layout) (d : Direction) (root : String) (n : Nat)
    (seen queue : List String) : Prop where
  met : ∀ name, name ∈ seen ↔ ∃ k ≤ n, name ∈ layout.ring d root k
  known : ∀ name ∈ queue, name ∈ layout.names
  waits : ∀ {β : Type} (f : String → Option β), (∀ name ∈ seen, f name = none) →
    queue.findSome? f = (layout.ring d root (n + 1)).findSome? f

theorem Round.first (formed : layout.WellFormed) (root : String) :
    Round layout d root 0 [root] (layout.next d root) where
  met := by simp [Layout.ring]
  known _ member := formed.mem_of_next member
  waits f _ := by simp [Layout.ring]

theorem Round.mem_queue_iff (round : Round layout d root n seen queue) {name : String}
    (new : name ∉ seen) : name ∈ queue ↔ name ∈ layout.ring d root (n + 1) := by
  have silent : ∀ other ∈ seen, Option.guard (· = name) other = none := by
    rintro other met
    simp only [Option.guard_eq_none_iff, decide_eq_false_iff_not]
    rintro rfl
    exact new met
  have hit : ∀ names : List String, name ∈ names ↔
      (names.findSome? (Option.guard (· = name))).isSome = true := by
    intro names
    simp
  rw [hit, round.waits _ silent, ← hit]

theorem Round.met_next (round : Round layout d root n seen queue) {name : String} :
    name ∈ (fresh seen queue).reverse ++ seen ↔ ∃ k ≤ n + 1, name ∈ layout.ring d root k := by
  rw [List.mem_append, List.mem_reverse, mem_fresh]
  constructor
  · rintro (⟨waits, new⟩ | old)
    · exact ⟨n + 1, Nat.le_refl _, (round.mem_queue_iff new).1 waits⟩
    · obtain ⟨k, early, member⟩ := (round.met name).1 old
      exact ⟨k, by omega, member⟩
  · rintro ⟨k, early, member⟩
    by_cases old : name ∈ seen
    · exact .inr old
    · have last : k = n + 1 := by
        by_contra other
        exact old ((round.met name).2 ⟨k, by omega, member⟩)
      exact .inl ⟨(round.mem_queue_iff old).2 (last ▸ member), old⟩

theorem Round.next (formed : layout.WellFormed) (round : Round layout d root n seen queue) :
    Round layout d root (n + 1) ((fresh seen queue).reverse ++ seen)
      ((fresh seen queue).flatMap (layout.next d)) := by
  refine ⟨fun name => round.met_next, fun name member => ?_, fun f silent => ?_⟩
  · obtain ⟨between, -, step⟩ := List.mem_flatMap.1 member
    exact formed.mem_of_next step
  · -- What was met earlier leads only to what has been met by now.
    have dead : ∀ name ∈ seen, (layout.next d name).findSome? f = none := by
      intro name old
      obtain ⟨k, early, member⟩ := (round.met name).1 old
      apply List.findSome?_eq_none_iff.2
      intro other step
      have further : other ∈ layout.ring d root (k + 1) :=
        Layout.mem_ring_succ.2 ⟨name, member, step⟩
      exact silent other (round.met_next.2 ⟨k + 1, by omega, further⟩)
    calc ((fresh seen queue).flatMap (layout.next d)).findSome? f
        = (fresh seen queue).findSome? fun name => (layout.next d name).findSome? f :=
          findSome?_flatMap _
      _ = queue.findSome? fun name => (layout.next d name).findSome? f := findSome?_fresh dead
      _ = (layout.ring d root (n + 1)).findSome? fun name => (layout.next d name).findSome? f :=
          round.waits _ dead
      _ = (layout.ring d root (n + 2)).findSome? f := (findSome?_flatMap _).symm

theorem Round.nearestHint_eq (round : Round layout d root n seen queue)
    (silent : ∀ k ≤ n, layout.hintAt d root k = none) :
    nearestHint layout (layout.next d) seen queue =
      (layout.hintAt d root (n + 1)).or
        (nearestHint layout (layout.next d) ((fresh seen queue).reverse ++ seen)
          ((fresh seen queue).flatMap (layout.next d))) := by
  have dead : ∀ name ∈ seen, layout.revealed? name = none := by
    intro name old
    obtain ⟨k, early, member⟩ := (round.met name).1 old
    exact Layout.hintAt_eq_none_iff.1 (silent k early) name member
  rw [Layout.hintAt, ← round.waits _ dead, ← findSome?_fresh dead]
  simpa using nearestHint_append round.known []

theorem exists_round (formed : layout.WellFormed)
    (silent : ∀ k ≤ n, layout.hintAt d root k = none) :
    ∃ seen queue, Round layout d root n seen queue ∧
      nearestHint layout (layout.next d) [root] (layout.next d root) =
        nearestHint layout (layout.next d) seen queue := by
  induction n with
  | zero => exact ⟨_, _, .first formed root, rfl⟩
  | succ n ih =>
    have before : ∀ k ≤ n, layout.hintAt d root k = none := fun k early => silent k (by omega)
    obtain ⟨seen, queue, round, same⟩ := ih before
    refine ⟨_, _, round.next formed, ?_⟩
    rw [same, round.nearestHint_eq before, silent (n + 1) (Nat.le_refl _), Option.none_or]

end Rounds

/-! The nearest hint -/

section Nearest

variable {layout : Layout} {d : Direction} {root other : String} {m : Medium}

theorem nearestHint_of_hintAt (formed : layout.WellFormed) (bare : layout.revealed? root = none)
    {n : Nat} (silent : ∀ k < n, layout.hintAt d root k = none)
    (hit : layout.hintAt d root n = some m) :
    nearestHint layout (layout.next d) [root] (layout.next d root) = some m := by
  cases n with
  | zero => simp [Layout.hintAt, Layout.ring, bare] at hit
  | succ n =>
    have before : ∀ k ≤ n, layout.hintAt d root k = none := fun k early => silent k (by omega)
    obtain ⟨seen, queue, round, same⟩ := exists_round formed before
    rw [same, round.nearestHint_eq before, hit, Option.some_or]

theorem exists_leads_of_nearestHint
    (answer : nearestHint layout (layout.next d) [root] (layout.next d root) = some m) :
    ∃ other, layout.Leads d root other ∧ layout.revealed? other = some m := by
  obtain ⟨_, -, search⟩ := exists_search layout d [root] (layout.next d root)
  obtain ⟨name, step, other, leads, reveals⟩ := search.sound answer
  exact ⟨other, .head step leads, reveals⟩

theorem exists_first_hintAt (leads : layout.Leads d root other)
    (reveals : layout.revealed? other = some m) :
    ∃ n, (∀ k < n, layout.hintAt d root k = none) ∧ ∃ m', layout.hintAt d root n = some m' := by
  have hit : ∃ n, layout.hintAt d root n ≠ none := by
    obtain ⟨n, member⟩ := Layout.leads_iff_exists_ring.1 leads
    refine ⟨n, fun silent => ?_⟩
    rw [Layout.hintAt_eq_none_iff.1 silent other member] at reveals
    cases reveals
  refine ⟨Nat.find hit, fun k early => ?_, Option.ne_none_iff_exists'.1 (Nat.find_spec hit)⟩
  exact not_not.1 (Nat.find_min hit early)

theorem nearestHint_eq_none_iff (formed : layout.WellFormed)
    (bare : layout.revealed? root = none) :
    nearestHint layout (layout.next d) [root] (layout.next d root) = none ↔
      ∀ other, layout.Leads d root other → layout.revealed? other = none := by
  constructor
  · intro none other leads
    cases reveals : layout.revealed? other with
    | none => rfl
    | some m =>
      obtain ⟨n, silent, m', hit⟩ := exists_first_hintAt leads reveals
      cases none.symm.trans (nearestHint_of_hintAt formed bare silent hit)
  · intro silent
    cases answer : nearestHint layout (layout.next d) [root] (layout.next d root) with
    | none => rfl
    | some m =>
      obtain ⟨other, leads, reveals⟩ := exists_leads_of_nearestHint answer
      cases (silent other leads).symm.trans reveals

theorem nearestHint_eq_some_iff (formed : layout.WellFormed)
    (bare : layout.revealed? root = none) :
    nearestHint layout (layout.next d) [root] (layout.next d root) = some m ↔
      ∃ n, (∀ k < n, layout.hintAt d root k = none) ∧ layout.hintAt d root n = some m := by
  constructor
  · intro answer
    obtain ⟨other, leads, reveals⟩ := exists_leads_of_nearestHint answer
    obtain ⟨n, silent, m', hit⟩ := exists_first_hintAt leads reveals
    have same := answer.symm.trans (nearestHint_of_hintAt formed bare silent hit)
    exact ⟨n, silent, hit.trans same.symm⟩
  · rintro ⟨n, silent, hit⟩
    exact nearestHint_of_hintAt formed bare silent hit

end Nearest

end ShowControl.Pipeline
