import ShowControl.Proofs.Pipeline.Description

/-! References to elements.

A reference beside a link is one end of it, and an element has its name. A reference that stands by
itself is not looked up: any other could be in its place. -/

set_option autoImplicit false
namespace ShowControl.Pipeline

/-! Beside a link -/

section Beside

variable {tokens front behind : List Token} {layout : Layout} {name : String}

theorem Describes.mem_of_linked (describes : Describes tokens layout)
    (split : tokens = front ++ .reference name :: behind) (linked : front.getLast? = some .link) :
    name ∈ layout.names := by
  obtain ⟨earlier, rfl⟩ := List.getLast?_eq_some_iff.1 linked
  obtain ⟨link, source, target, -, -, -, next, ends⟩ :=
    describes.linked earlier (.reference name :: behind) (by simp [split])
  obtain ⟨_, _, same, named⟩ := next
  cases same
  cases named
  exact ends.2

theorem Describes.mem_of_links (describes : Describes tokens layout)
    (split : tokens = front ++ .reference name :: behind) (links : behind.head? = some .link) :
    name ∈ layout.names := by
  obtain ⟨later, rfl⟩ := List.head?_eq_some_iff.1 links
  obtain ⟨link, source, target, -, near, begins, -⟩ :=
    describes.linked (front ++ [.reference name]) later (by simp [split])
  have nearest : Nearest (front ++ [.reference name]) (.named name) := nearest_concat.2 (.inl rfl)
  obtain rfl := near.unique nearest
  exact begins.2

end Beside

/-! By itself -/

namespace Draft

variable {draft draft' : Draft} {words words' : List String}

theorem foldlM_step_cons {word : String} :
    (word :: words).foldlM step draft = .ok draft' ↔
      ∃ next, Reads draft (Token.ofWord word) next ∧ words.foldlM step next = .ok draft' := by
  simp only [List.foldlM_cons, ok_bind_iff, step_eq_ok_iff]

theorem foldlM_step_congr (same : words.map Token.ofWord = words'.map Token.ofWord)
    (read : words.foldlM step draft = .ok draft') : words'.foldlM step draft = .ok draft' := by
  induction words generalizing words' draft with
  | nil =>
    rw [List.map_nil, eq_comm, List.map_eq_nil_iff] at same
    rw [same]
    exact read
  | cons word words ih =>
    rw [List.map_cons, eq_comm, List.map_eq_cons_iff] at same
    obtain ⟨word', others, rfl, first, rest⟩ := same
    obtain ⟨next, reads, read⟩ := foldlM_step_cons.1 read
    exact foldlM_step_cons.2 ⟨next, first ▸ reads, ih rest.symm read⟩

theorem Reads.closes {name : String} (reads : Reads draft (.reference name) draft') :
    draft'.takesProperties = false ∧ draft'.pending = none := by
  cases reads
  simp

/-- Where no link waits for it, a reference only stands last. -/
theorem Reads.renames {name : String} (reads : Reads draft (.reference name) draft')
    (settled : draft.pending = none) (other : String) :
    Reads draft (.reference other) { draft' with last := some (.named other) } := by
  cases reads
  have reads : Reads draft (.reference other) _ := .reference
  simpa [arrive, settled] using reads

theorem Reads.forgets {token : Token} (reads : Reads draft token draft') (other : token ≠ .link)
    (closed : draft.takesProperties = false) (settled : draft.pending = none) (last : Option End) :
    Reads { draft with last } token draft' := by
  cases reads with
  | link => exact absurd rfl other
  | property _ takes => cases closed.symm.trans takes
  | @reference name =>
    have reads : Reads { draft with last } (.reference name) _ := .reference
    simpa [arrive, settled] using reads
  | @element kind =>
    have reads : Reads { draft with last } (.element kind) _ := .element
    simpa [arrive, settled] using reads

theorem foldlM_step_forgets (other : (words.map Token.ofWord).head? ≠ some .link)
    (closed : draft.takesProperties = false) (settled : draft.pending = none)
    (read : words.foldlM step draft = .ok draft') (last : Option End) :
    ∃ again, words.foldlM step { draft with last } = .ok again ∧ again.sketches = draft'.sketches ∧
      again.links = draft'.links ∧ again.pending = draft'.pending := by
  cases words with
  | nil =>
    cases read
    exact ⟨_, rfl, rfl, rfl, rfl⟩
  | cons word words =>
    obtain ⟨next, reads, read⟩ := foldlM_step_cons.1 read
    have reads' := reads.forgets (fun same => other (by simp [same])) closed settled last
    exact ⟨draft', foldlM_step_cons.2 ⟨next, reads', read⟩, rfl, rfl, rfl⟩

end Draft

theorem words_of_split {description : String} {front behind : List Token} {token : Token}
    (split : tokensOf description = front ++ token :: behind) :
    ∃ before word after, Text.words description = before ++ word :: after ∧
      before.map Token.ofWord = front ∧ Token.ofWord word = token ∧
      after.map Token.ofWord = behind := by
  obtain ⟨before, rest, words, first, last⟩ := List.map_eq_append_iff.1 split
  obtain ⟨word, after, rfl, called, others⟩ := List.map_eq_cons_iff.1 last
  exact ⟨before, word, after, words, first, called, others⟩

theorem ofDescription_of_loose {description description' : String} {layout : Layout}
    {front behind : List Token} {name other : String}
    (described : Layout.ofDescription description = .ok layout)
    (split : tokensOf description = front ++ .reference name :: behind)
    (split' : tokensOf description' = front ++ .reference other :: behind)
    (unlinked : front.getLast? ≠ some .link) (loose : behind.head? ≠ some .link) :
    Layout.ofDescription description' = .ok { layout with description := description' } := by
  obtain ⟨before, word, after, words, rfl, called, rfl⟩ := words_of_split split
  obtain ⟨before', word', after', words', same, called', same'⟩ := words_of_split split'
  obtain ⟨final, read, settled, filled, elements, named, links, linked, rfl⟩ :=
    ofDescription_eq_ok_iff.1 described
  rw [words, List.foldlM_append, ok_bind_iff] at read
  obtain ⟨draft, first, read⟩ := read
  obtain ⟨next, reads, rest⟩ := Draft.foldlM_step_cons.1 read
  rw [called] at reads
  have pending : draft.pending = none := by
    rw [← Option.not_isSome_iff_eq_none, (Draft.follows_of_foldlM first).waits]
    exact unlinked
  have reads' := reads.renames pending other
  rw [← called'] at reads'
  obtain ⟨again, rest', sketches, links', pending'⟩ :=
    Draft.foldlM_step_forgets loose reads.closes.1 reads.closes.2 rest (some (.named other))
  have read' : (Text.words description').foldlM Draft.step .start = .ok again := by
    rw [words', List.foldlM_append, ok_bind_iff]
    exact ⟨draft, Draft.foldlM_step_congr same.symm first, Draft.foldlM_step_cons.2
      ⟨_, reads', Draft.foldlM_step_congr same'.symm rest'⟩⟩
  exact ofDescription_eq_ok_iff.2 ⟨again, read', pending'.trans settled, sketches ▸ filled,
    elements, sketches ▸ named, links, links' ▸ linked, rfl⟩

/-- A reference beside a link is to an element of the sub-pipeline. One that stands by itself is not
looked up: with any other in its place, the sub-pipeline is the same. -/
theorem references_known_unless_loose {description : String} {layout : Layout}
    {front behind : List Token} {name : String}
    (described : Layout.ofDescription description = .ok layout)
    (split : tokensOf description = front ++ .reference name :: behind) :
    (front.getLast? = some .link ∨ behind.head? = some .link → name ∈ layout.names) ∧
    (front.getLast? ≠ some .link → behind.head? ≠ some .link → ∀ other description',
      tokensOf description' = front ++ .reference other :: behind →
        Layout.ofDescription description' = .ok { layout with description := description' }) := by
  have describes := (describes_of_ofDescription described).2
  constructor
  · rintro (linked | links)
    · exact describes.mem_of_linked split linked
    · exact describes.mem_of_links split links
  · intro unlinked loose other description' split'
    exact ofDescription_of_loose described split split' unlinked loose

namespace Sample

def strolling : String := "tee name=t t. ! queue t."

def haunted : String := "fakesrc ghost."

set_option maxRecDepth 20000 in
theorem reads_strolling : tokensOf strolling = [.element "tee", .property "name" "t", .reference "t",
    .link, .element "queue", .reference "t"] ∧ (Layout.ofDescription strolling).isOk = true := by
  decide +kernel

set_option maxRecDepth 20000 in
theorem reads_haunted : tokensOf haunted = [.element "fakesrc", .reference "ghost"] ∧
    ∃ layout, Layout.ofDescription haunted = .ok layout ∧ layout.names = ["fakesrc0"] := by
  have checks : tokensOf haunted = [.element "fakesrc", .reference "ghost"] ∧
      (match Layout.ofDescription haunted with
        | .ok layout => decide (layout.names = ["fakesrc0"])
        | .error _ => false) = true := by
    decide +kernel
  obtain ⟨tokens, read⟩ := checks
  split at read
  · next layout read' => exact ⟨tokens, layout, read', of_decide_eq_true read⟩
  · cases read

end Sample

theorem references_known_unless_loose_sample :
    ∃ layout, Layout.ofDescription Sample.strolling = .ok layout ∧ "t" ∈ layout.names ∧
      ∀ other description', tokensOf description' = [.element "tee", .property "name" "t",
          .reference "t", .link, .element "queue", .reference other] →
        Layout.ofDescription description' = .ok { layout with description := description' } := by
  obtain ⟨split, read⟩ := Sample.reads_strolling
  cases described : Layout.ofDescription Sample.strolling with
  | error fault =>
    rw [described] at read
    cases read
  | ok layout =>
    have beside : tokensOf Sample.strolling = [.element "tee", .property "name" "t"] ++
        .reference "t" :: [.link, .element "queue", .reference "t"] := split
    have behind : tokensOf Sample.strolling = [.element "tee", .property "name" "t",
        .reference "t", .link, .element "queue"] ++ .reference "t" :: [] := split
    have known := (references_known_unless_loose described beside).1 (.inr rfl)
    have loose := (references_known_unless_loose described behind).2 (by simp) (by simp)
    exact ⟨layout, rfl, known, loose⟩

/-- A reference by itself may be to no element. -/
theorem not_references_known_loose :
    ∃ layout, Layout.ofDescription Sample.haunted = .ok layout ∧
      .reference "ghost" ∈ tokensOf Sample.haunted ∧ "ghost" ∉ layout.names := by
  obtain ⟨tokens, layout, read, names⟩ := Sample.reads_haunted
  refine ⟨layout, read, ?_, ?_⟩
  · simp [tokens]
  · simp [names]

end ShowControl.Pipeline
