import ShowControl.Proofs.Act
import ShowControl.Proofs.Pipeline.Passage

/-! Reading a description word by word.

A draft keeps step with the words in front of it: its sketches are their passages, and its links those
that have come to their target. The word behind is taken exactly if it may stand there. -/

set_option autoImplicit false
namespace ShowControl.Pipeline

namespace Passage

def properties (p : Passage) : Table String String :=
  .ofList (p.settings.filter fun setting => setting.1 ≠ "name")

/-- An element as it is read. -/
def sketch (p : Passage) : Sketch := ⟨p.kind, p.value? "name", p.properties⟩

end Passage

def Sketch.set (sketch : Sketch) (key value : String) : Sketch :=
  if key = "name" then { sketch with name := some value }
  else { sketch with properties := sketch.properties.insert key value }

namespace Passage

theorem properties_set (p : Passage) (key value : String) :
    (p.set key value).properties =
      if key = "name" then p.properties else p.properties.insert key value := by
  by_cases naming : key = "name" <;> simp [properties, set, Table.ofList, naming]

@[simp] theorem sketch_set (p : Passage) (key value : String) :
    (p.set key value).sketch = p.sketch.set key value := by
  by_cases naming : key = "name"
  · simp [sketch, Sketch.set, properties_set, value?_set, naming]
  · have other : ¬"name" = key := fun same => naming same.symm
    simp [sketch, Sketch.set, properties_set, value?_set, naming, other]

theorem get?_properties (p : Passage) (key : String) :
    p.properties.get? key = if key = "name" then none else p.value? key := by
  obtain ⟨kind, settings⟩ := p
  induction settings using List.reverseRecOn with
  | nil => simp [properties, value?, Table.ofList]
  | append_singleton front setting ih =>
    change (set ⟨kind, front⟩ setting.1 setting.2).properties.get? key =
      if key = "name" then none else (set ⟨kind, front⟩ setting.1 setting.2).value? key
    rw [properties_set, value?_set]
    by_cases naming : setting.1 = "name"
    · rw [if_pos naming, ih]
      split
      · rfl
      · next other => rw [naming, if_neg other]
    · rw [if_neg naming, Table.get?_insert, ih]
      by_cases same : key = setting.1
      · simp [same, naming]
      · simp [same]

end Passage

namespace Draft

/-- What a word does to a draft. -/
inductive Reads (draft : Draft) : Token → Draft → Prop where
  | link {source : End} : draft.last = some source → draft.pending = none →
      Reads draft .link { draft with pending := some source }
  | reference {name : String} :
      Reads draft (.reference name) { draft.arrive (.named name) with takesProperties := false }
  | property {key value : String} {sketch : Sketch} {sketches : List Sketch} :
      draft.sketches = sketch :: sketches → draft.takesProperties = true → draft.pending = none →
      key ≠ "" →
      Reads draft (.property key value) { draft with sketches := sketch.set key value :: sketches }
  | element {kind : String} :
      Reads draft (.element kind) { draft.arrive (.position draft.sketches.length) with
        sketches := ⟨kind, none, .empty⟩ :: draft.sketches, takesProperties := true }

theorem step_eq_ok_iff {draft draft' : Draft} {word : String} :
    draft.step word = .ok draft' ↔ Reads draft (Token.ofWord word) draft' := by
  unfold step
  generalize Token.ofWord word = token
  constructor
  · intro stepped
    cases token with
    | link =>
      simp only at stepped
      split at stepped
      · next source last pending =>
        cases stepped
        exact .link last pending
      · cases stepped
    | reference name =>
      cases stepped
      exact .reference
    | property key value =>
      simp only at stepped
      split at stepped
      · next sketch sketches some takes pending =>
        by_cases keyed : key = ""
        · rw [if_pos keyed] at stepped
          cases stepped
        · have reads : Reads draft (.property key value) _ := .property some takes pending keyed
          rw [if_neg keyed] at stepped
          unfold Sketch.set at reads
          split at stepped <;> cases stepped <;> simpa [*] using reads
      · cases stepped
    | element kind =>
      cases stepped
      exact .element
  · intro reads
    cases reads with
    | link last pending => simp [last, pending]
    | reference => rfl
    | element => rfl
    | property some takes pending keyed =>
      simp only [some, takes, pending, keyed, if_false, Sketch.set]
      split <;> rfl

@[simp] theorem sketches_arrive (draft : Draft) (e : End) :
    (draft.arrive e).sketches = draft.sketches := by
  unfold arrive
  split <;> rfl

@[simp] theorem last_arrive (draft : Draft) (e : End) : (draft.arrive e).last = some e := by
  unfold arrive
  split <;> rfl

@[simp] theorem pending_arrive (draft : Draft) (e : End) : (draft.arrive e).pending = none := by
  unfold arrive
  split
  · next none => exact none
  · rfl

theorem links_arrive (draft : Draft) (e : End) :
    (draft.arrive e).links = (draft.pending.map (·, e)).toList ++ draft.links := by
  unfold arrive
  split <;> simp [*]

/-- The link comes from its source, and goes to its target or still waits for it. -/
def Joins (draft : Draft) (before behind : List Token) : Prop :=
  ∃ source, Nearest before source ∧
    (behind = [] ∧ draft.pending = some source ∨
      ∃ target, Next before behind target ∧
        draft.links.reverse[before.count .link]? = some (source, target))

/-- The draft is what has become of the tokens so far. -/
structure Follows (front : List Token) (draft : Draft) : Prop where
  sketches : draft.sketches.reverse = (passages front).map Passage.sketch
  last : ∀ e, draft.last = some e ↔ Nearest front e
  waits : draft.pending.isSome = true ↔ front.getLast? = some .link
  takes : draft.takesProperties = true ∧ draft.pending = none ↔ Open front
  count : draft.links.length + draft.pending.toList.length = front.count .link
  joins : ∀ before behind, front = before ++ .link :: behind → draft.Joins before behind

theorem follows_start : Follows [] .start where
  sketches := rfl
  last e := by simp [start, Nearest]
  waits := by simp [start]
  takes := by simp [start, Open]
  count := rfl
  joins _ _ split := by simp at split

theorem Joins.concat {draft draft' : Draft} {before between : List Token} {token : Token}
    (joins : draft.Joins before between) (settled : draft.pending = none)
    (same : draft'.links = draft.links) : draft'.Joins before (between ++ [token]) := by
  obtain ⟨source, near, ⟨-, pending⟩ | ⟨target, ⟨next, later, rfl, ends⟩, stored⟩⟩ := joins
  · simp [settled] at pending
  · exact ⟨source, near, .inr ⟨target, ⟨next, later ++ [token], rfl, ends⟩, same ▸ stored⟩⟩

section Follows

variable {front before behind : List Token} {token : Token} {draft draft' : Draft} {e : End}

/-- An element or a reference settles the link that waits for it. -/
theorem Follows.joins_arrive (follows : Follows front draft) (ends : token.end? front = some e)
    (split : front ++ [token] = before ++ .link :: behind) :
    (draft.arrive e).Joins before behind := by
  obtain ⟨rfl, rfl, rfl⟩ | ⟨between, rfl, rfl⟩ := place_concat split
  · cases ends
  obtain ⟨source, near, ⟨rfl, pending⟩ | ⟨target, ⟨next, later, rfl, there⟩, stored⟩⟩ :=
    follows.joins before between rfl
  · have count : draft.links.length = before.count .link := by
      simpa [pending] using follows.count
    refine ⟨source, near, .inr ⟨e, ⟨token, [], rfl, ends⟩, ?_⟩⟩
    simp [links_arrive, pending, ← count]
  · have within := (List.getElem?_eq_some_iff.1 stored).1
    refine ⟨source, near, .inr ⟨target, ⟨next, later ++ [token], rfl, there⟩, ?_⟩⟩
    rw [links_arrive, List.reverse_append, List.getElem?_append_left within, stored]

theorem Follows.count_arrive (follows : Follows front draft) (e : End) :
    (draft.arrive e).links.length = front.count .link := by
  have count := follows.count
  rw [links_arrive, List.length_append]
  cases pending : draft.pending <;> simp [pending] at count ⊢ <;> omega

theorem Follows.sketches_set (follows : Follows front draft) {sketch : Sketch}
    {sketches : List Sketch} (some : draft.sketches = sketch :: sketches) (key value : String) :
    (sketch.set key value :: sketches).reverse =
      (passages (front ++ [.property key value])).map Passage.sketch := by
  have sketched := follows.sketches
  rw [some, List.reverse_cons] at sketched
  rw [passages_concat_property]
  obtain bare | ⟨earlier, p, whole⟩ := List.eq_nil_or_concat' (passages front)
  · simp [bare] at sketched
  · rw [whole, List.map_append] at sketched
    obtain ⟨others, same⟩ := List.append_inj' sketched rfl
    simp [whole, List.modifyLast_concat, others, List.singleton_inj.1 same]

theorem Follows.step (follows : Follows front draft) (reads : Reads draft token draft') :
    Follows (front ++ [token]) draft' := by
  cases reads with
  | @link source last pending =>
    exact {
      sketches := by rw [passages_concat_link]; exact follows.sketches
      last := by simpa [nearest_concat, Token.end?, Token.stops] using follows.last
      waits := by simp
      takes := by simp [open_concat, Token.kind?, Token.parts]
      count := by simpa [pending] using follows.count
      joins := by
        intro before behind split
        obtain ⟨rfl, -, rfl⟩ | ⟨between, rfl, rfl⟩ := place_concat split
        · exact ⟨source, (follows.last source).1 last, .inl ⟨rfl, rfl⟩⟩
        · exact (follows.joins before between rfl).concat pending rfl }
  | @reference name =>
    exact {
      sketches := by simpa [passages_concat_reference] using follows.sketches
      last := by simp [nearest_concat, Token.end?, Token.stops]
      waits := by simp
      takes := by simp [open_concat, Token.kind?, Token.parts]
      count := by simpa using follows.count_arrive _
      joins := fun before behind split => follows.joins_arrive rfl split }
  | @property key value sketch sketches some takes pending keyed =>
    exact {
      sketches := follows.sketches_set some key value
      last := by simpa [nearest_concat, Token.end?, Token.stops] using follows.last
      waits := by simp [pending]
      takes := by simpa [open_concat, Token.kind?, Token.parts] using follows.takes
      count := by simpa using follows.count
      joins := by
        intro before behind split
        obtain ⟨-, other, -⟩ | ⟨between, rfl, rfl⟩ := place_concat split
        · cases other
        · exact (follows.joins before between rfl).concat pending rfl }
  | @element kind =>
    have length : draft.sketches.length = (passages front).length := by
      simpa using congrArg List.length follows.sketches
    exact {
      sketches := by
        rw [passages_concat_element, List.map_append, List.reverse_cons, follows.sketches]
        rfl
      last := by simp [nearest_concat, Token.end?, Token.stops, length]
      waits := by simp
      takes := by simp [open_concat, Token.kind?]
      count := by simpa using follows.count_arrive _
      joins := fun before behind split =>
        follows.joins_arrive (by simp [Token.end?, length]) split }

/-- Whether a token may stand behind others. -/
def Admits (front : List Token) : Token → Prop
  | .link => (∃ source, Nearest front source) ∧ front.getLast? ≠ some .link
  | .property key _ => key ≠ "" ∧ Open front
  | .reference _ | .element _ => True

theorem passages_ne_nil_of_open (opened : Open front) : passages front ≠ [] := by
  obtain ⟨earlier, token, later, rfl, some, -⟩ := opened
  cases token with
  | element kind => exact passages_ne_nil_iff.2 ⟨kind, by simp⟩
  | link | reference | property => cases some

theorem Follows.reads_iff (follows : Follows front draft) :
    (∃ draft', Reads draft token draft') ↔ Admits front token := by
  have settled : draft.pending = none ↔ front.getLast? ≠ some .link := by
    rw [← Option.not_isSome_iff_eq_none, follows.waits]
  constructor
  · rintro ⟨_, reads⟩
    cases reads with
    | link last pending => exact ⟨⟨_, (follows.last _).1 last⟩, settled.1 pending⟩
    | property _ takes pending keyed => exact ⟨keyed, follows.takes.1 ⟨takes, pending⟩⟩
    | reference | element => trivial
  · intro admits
    cases token with
    | link =>
      obtain ⟨⟨source, near⟩, other⟩ := admits
      exact ⟨_, .link ((follows.last source).2 near) (settled.2 other)⟩
    | property key value =>
      obtain ⟨keyed, opened⟩ := admits
      obtain ⟨takes, pending⟩ := follows.takes.2 opened
      have filled : draft.sketches ≠ [] := by
        intro bare
        have none := follows.sketches
        simp [bare, passages_ne_nil_of_open opened] at none
      obtain ⟨sketch, sketches, some⟩ := List.exists_cons_of_ne_nil filled
      exact ⟨_, .property some takes pending keyed⟩
    | reference => exact ⟨_, .reference⟩
    | element => exact ⟨_, .element⟩

end Follows

theorem foldlM_step_concat {words : List String} {word : String} {draft : Draft} :
    (words ++ [word]).foldlM step .start = .ok draft ↔
      ∃ earlier, words.foldlM step .start = .ok earlier ∧
        Reads earlier (Token.ofWord word) draft := by
  rw [List.foldlM_append, ok_bind_iff]
  apply exists_congr
  intro earlier
  rw [List.foldlM_cons, ok_bind_iff]
  simp [step_eq_ok_iff, pure, Except.pure]

theorem follows_of_foldlM {words : List String} {draft : Draft}
    (read : words.foldlM step .start = .ok draft) : Follows (words.map Token.ofWord) draft := by
  induction words using List.reverseRecOn generalizing draft with
  | nil =>
    cases read
    exact follows_start
  | append_singleton words word ih =>
    obtain ⟨earlier, before, reads⟩ := foldlM_step_concat.1 read
    rw [List.map_append]
    exact (ih before).step reads

/-- All words are taken if each may stand behind those in front of it. -/
theorem exists_foldlM_iff {words : List String} :
    (∃ draft, words.foldlM step .start = .ok draft) ↔
      ∀ front token behind, words.map Token.ofWord = front ++ token :: behind →
        Admits front token := by
  induction words using List.reverseRecOn with
  | nil => simp [pure, Except.pure]
  | append_singleton words word ih =>
    simp only [foldlM_step_concat, List.map_append, List.map_cons, List.map_nil]
    constructor
    · rintro ⟨draft, earlier, read, reads⟩ front token behind split
      obtain ⟨rfl, rfl, rfl⟩ | ⟨between, whole, rfl⟩ := place_concat split
      · exact (follows_of_foldlM read).reads_iff.1 ⟨draft, reads⟩
      · exact ih.1 ⟨earlier, read⟩ front token between whole
    · intro admits
      obtain ⟨earlier, read⟩ := ih.2 fun front token between whole =>
        admits front token (between ++ [Token.ofWord word]) (by simp [whole])
      obtain ⟨draft, reads⟩ := (follows_of_foldlM read).reads_iff.2 (admits _ _ [] rfl)
      exact ⟨draft, earlier, read, reads⟩

end Draft

end ShowControl.Pipeline
