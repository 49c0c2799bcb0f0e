import Mathlib.Data.List.Nodup
import Mathlib.Logic.Relation
import ShowControl.Pipeline.Port
import ShowControl.Proofs.Pipeline.Description

/-! The chain that a port opens or closes.

The chain of an input port goes along the links, that of an output port against them. Its rings hold
the names that so many links lead to, in the order in which the links are followed. A chain that
comes back puts a name into several rings: the first of them says how far away it is. -/

set_option autoImplicit false
namespace ShowControl.Pipeline

/-- What a description gives: elements that their names tell apart, and links between them. -/
structure Layout.WellFormed (layout : Layout) : Prop where
  distinct : layout.names.Nodup
  inside : ∀ link ∈ layout.links, link.source ∈ layout.names ∧ link.target ∈ layout.names

theorem Layout.wellFormed_of_ofDescription {description : String} {layout : Layout}
    (described : Layout.ofDescription description = .ok layout) : layout.WellFormed :=
  have describes := (describes_of_ofDescription described).2
  ⟨describes.distinct, describes.inside⟩

def Link.near : Direction → Link → String
  | .input => Link.source
  | .output => Link.target

def Link.far : Direction → Link → String
  | .input => Link.target
  | .output => Link.source

namespace Layout

variable {layout : Layout} {d : Direction} {name other : String} {e : Element}

theorem element?_eq_some_iff (distinct : layout.names.Nodup) :
    layout.element? name = some e ↔ e ∈ layout.elements ∧ e.name = name := by
  constructor
  · intro found
    exact ⟨List.mem_of_find?_eq_some found, by simpa using List.find?_some found⟩
  · rintro ⟨member, rfl⟩
    cases found : layout.element? e.name with
    | none => simpa using List.find?_eq_none.1 found e member
    | some e' =>
      have same : e'.name = e.name := by simpa using List.find?_some found
      have member' : e' ∈ layout.elements := List.mem_of_find?_eq_some found
      rw [List.inj_on_of_nodup_map distinct member' member same]

def next (layout : Layout) : Direction → String → List String
  | .input => layout.targetsOf
  | .output => layout.sourcesOf

theorem next_eq (layout : Layout) (d : Direction) (name : String) :
    layout.next d name = (layout.links.filter fun l => l.near d = name).map (Link.far d) := by
  cases d <;> rfl

theorem WellFormed.mem_of_next (formed : layout.WellFormed) (member : other ∈ layout.next d name) :
    other ∈ layout.names := by
  rw [next_eq] at member
  obtain ⟨link, stored, rfl⟩ := List.mem_map.1 member
  have ends := formed.inside link (List.mem_filter.1 stored).1
  cases d with
  | input => exact ends.2
  | output => exact ends.1

/-- Of the links from names that have not been met, those from a new name are followed next. -/
theorem length_next_add_countP (layout : Layout) (d : Direction) {seen : List String}
    (new : name ∉ seen) :
    (layout.next d name).length + layout.links.countP (fun l => l.near d ∉ name :: seen) =
      layout.links.countP fun l => l.near d ∉ seen := by
  rw [next_eq, List.length_map, ← List.countP_eq_length_filter]
  induction layout.links with
  | nil => rfl
  | cons link links ih =>
    simp only [List.countP_cons, ← ih, List.mem_cons, decide_eq_true_eq]
    by_cases same : link.near d = name
    · simp [same, new]
      omega
    · simp [same]
      omega

def Leads (layout : Layout) (d : Direction) : String → String → Prop :=
  Relation.ReflTransGen fun name other => other ∈ layout.next d name

/-- The names that `n` links lead to: those behind an earlier name first, then in link order. -/
def ring (layout : Layout) (d : Direction) (name : String) : Nat → List String
  | 0 => [name]
  | n + 1 => (layout.ring d name n).flatMap (layout.next d)

theorem mem_ring_succ {n : Nat} : other ∈ layout.ring d name (n + 1) ↔
    ∃ between ∈ layout.ring d name n, other ∈ layout.next d between := by
  rw [ring, List.mem_flatMap]

theorem leads_iff_exists_ring : layout.Leads d name other ↔ ∃ n, other ∈ layout.ring d name n := by
  constructor
  · intro leads
    induction leads with
    | refl => exact ⟨0, List.mem_singleton.2 rfl⟩
    | @tail between other _ step ih =>
      obtain ⟨n, member⟩ := ih
      exact ⟨n + 1, mem_ring_succ.2 ⟨between, member, step⟩⟩
  · rintro ⟨n, member⟩
    induction n generalizing other with
    | zero =>
      rw [List.mem_singleton.1 member]
      exact .refl
    | succ n ih =>
      obtain ⟨between, member, step⟩ := mem_ring_succ.1 member
      exact (ih member).tail step

end Layout

end ShowControl.Pipeline
