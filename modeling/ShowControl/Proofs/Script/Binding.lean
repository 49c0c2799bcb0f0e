import ShowControl.Proofs.Graph.Command
import ShowControl.Proofs.Property
import ShowControl.Proofs.Script.Reading

/-! What the templates of a script bind.

A binding names an element of its template or the node as a whole, and its value is read for its
type when the template is expanded. -/

set_option autoImplicit false
namespace ShowControl

/-- The template has been read from its definition. -/
def Template.Compiled (t : Template) : Prop :=
  ∃ standard header body, Script.templateOf standard header body = .ok t

def Library.Compiled (library : Library) : Prop :=
  ∀ name t, Table.get? library name = some t → t.Compiled

/-- The properties belong to elements of the layout, and their values are in range. -/
def Settings.Typed (s : Settings) (layout : Pipeline.Layout) : Prop :=
  ∀ element property v, s.get? element property = some v → element ∈ layout.names ∧ v.Valid

theorem Settings.get?_set_apply (s : Settings) (element property : String) (v : PropertyValue)
    (element' property' : String) :
    (s.set element property v).get? element' property' =
      if element' = element ∧ property' = property then some v else s.get? element' property' := by
  rw [get?_set]
  by_cases here : element' = element
  · subst here
    rw [Function.update_self]
    by_cases same : property' = property
    · subst same
      rw [Function.update_self, if_pos ⟨rfl, rfl⟩]
    · rw [Function.update_of_ne same, if_neg fun both => same both.2]
  · rw [Function.update_of_ne here, if_neg fun both => here both.1]

theorem Settings.get?_of_mem_entries {s : Settings} {entry : String × String × PropertyValue}
    (member : entry ∈ s.entries) : s.get? entry.1 entry.2.1 = some entry.2.2 := by
  simp only [entries, List.mem_flatMap, List.mem_map, Prod.exists] at member
  obtain ⟨element, values, stored, property, v, kept, rfl⟩ := member
  rw [get?, Table.mem_toList_iff.1 stored]
  exact Table.mem_toList_iff.1 kept

theorem Settings.typed_empty (layout : Pipeline.Layout) : Settings.Typed .empty layout :=
  fun _ _ _ given => nomatch given

theorem Settings.Typed.set {s : Settings} {layout : Pipeline.Layout} (typed : s.Typed layout)
    {element property : String} {v : PropertyValue} (known : element ∈ layout.names)
    (valid : v.Valid) : (s.set element property v).Typed layout := by
  intro element' property' v' given
  rw [get?_set_apply] at given
  split at given
  · next same =>
    cases given
    exact ⟨same.1 ▸ known, valid⟩
  · exact typed element' property' v' given

namespace Script

theorem bindingOf_ok {elements : List String} {line : Line} {b : Binding}
    (read : bindingOf elements line = .ok b) : b.onNode = true ∨ b.element ∈ elements := by
  simp only [bindingOf] at read
  split at read
  · next element property typeName value _ =>
    split at read
    · cases read
    · next known =>
      obtain ⟨type, _, read⟩ := ok_bind_iff.1 read
      obtain ⟨source, _, read⟩ := ok_bind_iff.1 read
      cases read
      simp only [Bool.and_eq_true, Bool.not_eq_true', decide_eq_true_eq, not_and] at known
      by_cases whole : element = Binding.nodeElement
      · exact .inl (decide_eq_true whole)
      · exact .inr (by simpa using known whole)
  · cases read

end Script

theorem Template.Compiled.within {t : Template} (compiled : t.Compiled) {b : Binding}
    (member : b ∈ t.bindings) : b.onNode = true ∨ b.element ∈ t.layout.names := by
  obtain ⟨standard, header, body, read⟩ := compiled
  simp only [Script.templateOf] at read
  split at read
  · obtain ⟨portCount, _, read⟩ := ok_bind_iff.1 read
    obtain ⟨layout, _, read⟩ := ok_bind_iff.1 read
    obtain ⟨bindings, found, read⟩ := ok_bind_iff.1 read
    obtain ⟨defaults, _, read⟩ := ok_bind_iff.1 read
    cases read
    obtain ⟨line, _, bound⟩ := mem_of_mapM_ok found member
    exact Script.bindingOf_ok (ok_mapError_iff.1 bound)
  · cases read

theorem Expansion.typed_add {x y : Expansion} {layout : Pipeline.Layout}
    (typed : x.elements.Typed layout) {b : Binding}
    (within : b.onNode = true ∨ b.element ∈ layout.names) (added : x.add b = .ok y) :
    y.elements.Typed layout := by
  rw [add] at added
  split at added
  · cases added
  · next v read =>
    split at added
    · cases added
      exact typed
    · next inner =>
      cases added
      exact typed.set (within.resolve_left inner) (PropertyType.valid_of_read read).2

theorem Expansion.template_add {x y : Expansion} {b : Binding} (added : x.add b = .ok y) :
    y.template = x.template := by
  rw [add] at added
  split at added
  · cases added
  · split at added <;> cases added <;> rfl

/-- A template that has been read sets properties of its own elements only. -/
theorem Template.Compiled.typed {t : Template} (compiled : t.Compiled) {arguments : List String}
    {x : Expansion} (expanded : t.expand arguments = .ok x) :
    x.template = t ∧ x.elements.Typed t.layout := by
  obtain ⟨bound, _, expanded⟩ := ok_bind_iff.1 expanded
  -- The induction is on the bindings: each adds to an expansion of the same template.
  suffices whole : ∀ (bindings : List Binding) (first : Expansion), bindings ⊆ t.bindings →
      first.template = t → first.elements.Typed t.layout →
      bindings.foldlM Expansion.add first = .ok x →
      x.template = t ∧ x.elements.Typed t.layout from
    whole t.bindings _ (List.Subset.refl _) rfl (Settings.typed_empty _) expanded
  intro bindings
  induction bindings with
  | nil =>
    intro first _ template typed same
    cases same
    exact ⟨template, typed⟩
  | cons b rest ih =>
    intro first within template typed added
    obtain ⟨inner, within⟩ := List.cons_subset.1 within
    rw [List.foldlM_cons] at added
    obtain ⟨next, here, added⟩ := ok_bind_iff.1 added
    exact ih next within ((Expansion.template_add here).trans template)
      (Expansion.typed_add typed (compiled.within inner) here) added

theorem Library.Compiled.typed {library : Library} (compiled : library.Compiled) {name : String}
    {arguments : List String} {x : Expansion} (expanded : library.expand name arguments = .ok x) :
    x.elements.Typed x.template.layout := by
  obtain ⟨t, found, expanded⟩ := ok_bind_iff.1 expanded
  rw [find] at found
  split at found
  · next known =>
    cases found
    obtain ⟨rfl, typed⟩ := (compiled name _ known).typed expanded
    exact typed
  · cases found

theorem Library.compiled_empty : Library.Compiled .empty := fun _ _ found => nomatch found

theorem Library.Compiled.insert {library : Library} (compiled : library.Compiled) {t : Template}
    (read : t.Compiled) : Library.Compiled (Table.insert library t.name t) := by
  intro name other found
  rw [Table.get?_insert] at found
  split at found
  · cases found
    exact read
  · exact compiled name other found

namespace Script

variable {α : Type} [Number α]

theorem Draft.Reads.compiled {draft draft' : Draft α} {line : Line} {rest : List Line}
    {library library' : Library} {taken : Nat}
    (reads : draft.Reads line rest library draft' taken library') (compiled : library.Compiled) :
    library'.Compiled := by
  cases reads with
  | template keyword closed read free => exact compiled.insert ⟨false, line, _, read⟩
  | node | plug | cue => exact compiled

/-- The templates of a program have been read, if those known beforehand have been. -/
theorem compiled_of_compile {script : String} {p : Program α} {library library' : Library}
    (compiled : library.Compiled) (returned : (compile script).Returns library p library') :
    p.templates.Compiled := by
  obtain ⟨draft, read, rfl⟩ := returns_compile_iff.1 returned
  exact Draft.readAll_preserves (P := fun _ library _ => library.Compiled)
    (fun compiled reads => reads.compiled compiled) compiled read

end Script

end ShowControl
