import ShowControl.Proofs.Pipeline.Search

/-! The medium of a port is that of the nearest hint.

The kind of a port itself reveals none, so a hint along its chain is that of another element. -/

set_option autoImplicit false
namespace ShowControl.Pipeline

def Layout.Hints (layout : Layout) (e other : Element) : Prop :=
  other ∈ layout.elements ∧ other ≠ e ∧ hint other.kind ≠ none

/-- Of all the other elements whose kind reveals a medium, `found` is the first along the chain of
`e`: fewer links lead to none of them, and none stands in front of it in its ring. -/
structure Layout.Decides (layout : Layout) (d : Direction) (e found : Element) : Prop where
  hints : layout.Hints e found
  nearest : ∃ n front behind, layout.ring d e.name n = front ++ found.name :: behind ∧
    ∀ other, layout.Hints e other →
      other.name ∉ front ∧ ∀ k < n, other.name ∉ layout.ring d e.name k

theorem inferMedium_of_silent {layout : Layout} {e : Element} {d : Direction}
    (silent : hint e.name = none) :
    inferMedium layout e d =
      nearestHint layout (layout.next d) [e.name] (layout.next d e.name) := by
  unfold inferMedium
  rw [silent, Option.none_or]
  cases d <;> rfl

theorem hint_kind_of_port {e : Element} {d : Direction} (port : e.direction? = some d) :
    hint e.kind = none := by
  have kinds : e.kind = "proxysrc" ∨ e.kind = "proxysink" := by
    by_contra other
    rw [not_or] at other
    simp [Element.direction?, other] at port
  obtain kind | kind := kinds
  all_goals
    rw [kind]
    decide +kernel

section Ports

variable {layout : Layout} {e other : Element} {d : Direction} {name : String} {m : Medium}

theorem Layout.hints_of_port (port : e.direction? = some d) (member : other ∈ layout.elements)
    (reveals : hint other.kind = some m) : layout.Hints e other := by
  refine ⟨member, ?_, by simp [reveals]⟩
  rintro rfl
  cases (hint_kind_of_port port).symm.trans reveals

theorem Layout.revealed?_eq_some_iff (formed : layout.WellFormed) :
    layout.revealed? name = some m ↔
      ∃ other ∈ layout.elements, other.name = name ∧ hint other.kind = some m := by
  rw [revealed?, Option.bind_eq_some_iff]
  simp only [element?_eq_some_iff formed.distinct, and_assoc]

theorem Layout.revealed?_port (formed : layout.WellFormed) (member : e ∈ layout.elements)
    (port : e.direction? = some d) : layout.revealed? e.name = none := by
  rw [revealed?, (element?_eq_some_iff formed.distinct).2 ⟨member, rfl⟩]
  exact hint_kind_of_port port

theorem Layout.forall_revealed?_eq_none_iff (formed : layout.WellFormed)
    (port : e.direction? = some d) {P : String → Prop} :
    (∀ name, P name → layout.revealed? name = none) ↔
      ∀ other, layout.Hints e other → ¬P other.name := by
  constructor
  · rintro silent other ⟨member, -, reveals⟩ holds
    obtain ⟨m, hints⟩ := Option.ne_none_iff_exists'.1 reveals
    have found := (revealed?_eq_some_iff formed).2 ⟨other, member, rfl, hints⟩
    cases (silent _ holds).symm.trans found
  · intro apart name holds
    cases reveals : layout.revealed? name with
    | none => rfl
    | some m =>
      obtain ⟨other, member, rfl, hints⟩ := (revealed?_eq_some_iff formed).1 reveals
      exact absurd holds (apart other (hints_of_port port member hints))

theorem Layout.exists_decides_iff (formed : layout.WellFormed) (port : e.direction? = some d) :
    (∃ found, layout.Decides d e found ∧ hint found.kind = some m) ↔
      ∃ n, (∀ k < n, layout.hintAt d e.name k = none) ∧ layout.hintAt d e.name n = some m := by
  constructor
  · rintro ⟨found, ⟨⟨member, -, -⟩, n, front, behind, split, first⟩, hints⟩
    have reveals := (revealed?_eq_some_iff formed).2 ⟨found, member, rfl, hints⟩
    have before : ∀ name ∈ front, layout.revealed? name = none :=
      (forall_revealed?_eq_none_iff formed port).2 fun other rival => (first other rival).1
    have nearer : ∀ k < n, layout.hintAt d e.name k = none := fun k early =>
      hintAt_eq_none_iff.2 <| (forall_revealed?_eq_none_iff formed port).2 fun other rival =>
        (first other rival).2 k early
    exact ⟨n, nearer, List.findSome?_eq_some_iff.2
      ⟨front, found.name, behind, split, reveals, before⟩⟩
  · rintro ⟨n, nearer, hit⟩
    obtain ⟨front, name, behind, split, reveals, before⟩ := List.findSome?_eq_some_iff.1 hit
    obtain ⟨found, member, rfl, hints⟩ := (revealed?_eq_some_iff formed).1 reveals
    refine ⟨found, ⟨hints_of_port port member hints, n, front, behind, split, ?_⟩, hints⟩
    intro rival reveals
    constructor
    · exact (forall_revealed?_eq_none_iff formed port).1 before rival reveals
    · intro k early
      have silent := hintAt_eq_none_iff.1 (nearer k early)
      exact (forall_revealed?_eq_none_iff formed port).1 silent rival reveals

/-- If its own name reveals no medium, a port has that of the nearest other element along its chain
whose kind does, and none exactly if the chain leads to no such element. The search takes no more
turns than there are links. -/
theorem medium_is_nearest_hint (formed : layout.WellFormed) (member : e ∈ layout.elements)
    (port : e.direction? = some d) (silent : hint e.name = none) :
    (∃ turns ≤ layout.links.length, Search layout (layout.next d) turns [e.name]
      (layout.next d e.name) (inferMedium layout e d)) ∧
    (inferMedium layout e d = none ↔
      ∀ other, layout.Hints e other → ¬layout.Leads d e.name other.name) ∧
    ∀ m, inferMedium layout e d = some m ↔
      ∃ found, layout.Decides d e found ∧ hint found.kind = some m := by
  have bare := layout.revealed?_port formed member port
  rw [inferMedium_of_silent silent]
  refine ⟨?_, ?_, fun m => ?_⟩
  · obtain ⟨turns, few, search⟩ := exists_search layout d [e.name] (layout.next d e.name)
    rw [layout.length_next_add_countP d List.not_mem_nil] at few
    exact ⟨turns, by simpa using few, search⟩
  · rw [nearestHint_eq_none_iff formed bare, Layout.forall_revealed?_eq_none_iff formed port]
  · rw [nearestHint_eq_some_iff formed bare, Layout.exists_decides_iff formed port]

end Ports

namespace Sample

def winding : String :=
  "proxysrc name=in ! tee name=t ! queue name=q ! t. t. ! t. t. ! videoscale t. ! audioconvert"

def listed : List (String × String) :=
  [("proxysrc", "in"), ("tee", "t"), ("queue", "q"), ("videoscale", "videoscale0"),
    ("audioconvert", "audioconvert0")]

set_option maxRecDepth 20000 in
theorem reads_winding : ∃ layout, Layout.ofDescription winding = .ok layout ∧
    layout.elements.map (fun e => (e.kind, e.name)) = listed ∧
    layout.links = [⟨"in", "t"⟩, ⟨"t", "q"⟩, ⟨"q", "t"⟩, ⟨"t", "t"⟩, ⟨"t", "videoscale0"⟩,
      ⟨"t", "audioconvert0"⟩] := by
  have checks : (match Layout.ofDescription winding with
      | .ok layout => decide (layout.elements.map (fun e => (e.kind, e.name)) = listed ∧
          layout.links = [⟨"in", "t"⟩, ⟨"t", "q"⟩, ⟨"q", "t"⟩, ⟨"t", "t"⟩, ⟨"t", "videoscale0"⟩,
            ⟨"t", "audioconvert0"⟩])
      | .error _ => false) = true := by
    decide +kernel
  split at checks
  · next layout read => exact ⟨layout, read, of_decide_eq_true checks⟩
  · cases checks

theorem hinting_listed : ∀ entry ∈ listed, hint entry.1 ≠ none →
    entry.2 ∈ ["videoscale0", "audioconvert0"] := by
  decide +kernel

end Sample

/-- Of two hints as many links away, the one that is linked first decides. -/
theorem medium_is_nearest_hint_sample :
    ∃ layout e, Layout.ofDescription Sample.winding = .ok layout ∧ layout.WellFormed ∧
      e ∈ layout.elements ∧ e.direction? = some .input ∧ hint e.name = none ∧
      inferMedium layout e .input = some .video ∧
      ∃ turns ≤ 6, Search layout layout.targetsOf turns [e.name] (layout.targetsOf e.name)
        (some .video) := by
  obtain ⟨layout, read, elements, links⟩ := Sample.reads_winding
  have formed := Layout.wellFormed_of_ofDescription read
  have entry : ∀ kind name, (kind, name) ∈ Sample.listed →
      ∃ e ∈ layout.elements, e.kind = kind ∧ e.name = name := by
    intro kind name member
    rw [← elements] at member
    simpa using member
  obtain ⟨e, member, kind, called⟩ := entry "proxysrc" "in" (by decide)
  obtain ⟨found, member', kind', called'⟩ := entry "videoscale" "videoscale0" (by decide)
  have port : e.direction? = some .input := by rw [Element.direction?, if_pos kind]
  have silent : hint e.name = none := by
    rw [called]
    decide +kernel
  have hints : hint found.kind = some .video := by
    rw [kind']
    decide +kernel
  have rivals : ∀ other, layout.Hints e other → other.name ∈ ["videoscale0", "audioconvert0"] := by
    rintro other ⟨member, -, reveals⟩
    have listed : (other.kind, other.name) ∈ Sample.listed :=
      elements ▸ List.mem_map_of_mem member
    exact Sample.hinting_listed _ listed reveals
  have decides : layout.Decides .input e found := by
    refine ⟨Layout.hints_of_port port member' hints, 2, ["q", "t"], ["audioconvert0"], ?_, ?_⟩
    · simp [called, called', Layout.ring, Layout.next, Layout.targetsOf, links]
    · intro other rival
      have apart : ∀ name ∈ ["videoscale0", "audioconvert0"], name ∉ ["in", "q", "t"] := by decide
      have clear : other.name ≠ "in" ∧ other.name ≠ "q" ∧ other.name ≠ "t" := by
        simpa using apart _ (rivals other rival)
      refine ⟨by simp [clear], fun k early => ?_⟩
      obtain rfl | rfl : k = 0 ∨ k = 1 := by omega
      · simp [called, Layout.ring, clear]
      · simp [called, Layout.ring, Layout.next, Layout.targetsOf, links, clear]
  obtain ⟨⟨turns, few, search⟩, -, decided⟩ := medium_is_nearest_hint formed member port silent
  have medium := (decided .video).2 ⟨found, decides, hints⟩
  rw [medium] at search
  exact ⟨layout, e, read, formed, member, port, silent, medium, turns, by simpa [links] using few,
    search⟩

end ShowControl.Pipeline
