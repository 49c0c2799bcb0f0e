import ShowControl.Proofs.Script.Arity
import ShowControl.Proofs.Script.Parameters

/-! Texts that are no value of the type that a binding has.

A text that a binding writes itself, as its value or as the default of its parameter, is read for the
type of that binding when the template is. But a default stands for its parameter in every binding,
and the other bindings of the parameter may have other types, for which nobody has read it. -/

set_option autoImplicit false
namespace ShowControl

def Binding.Given (b : Binding) (arguments : List String) (text : String) : Prop :=
  ∃ index default, b.source = .parameter index default ∧ arguments[index - 1]? = some text

/-- The argument is left out, the binding has no default for it, and takes that of another binding,
which is of another type. -/
def Template.Lends (t : Template) (b : Binding) (arguments : List String) (text : String) : Prop :=
  ∃ index, b.source = .parameter index none ∧ arguments[index - 1]? = none ∧
    ∃ lender ∈ t.bindings, lender.source = .parameter index (some text) ∧ lender.type ≠ b.type

def Binding.Writes (b : Binding) (text : String) : Prop :=
  b.source = .literal text ∨ ∃ index, b.source = .parameter index (some text)

/-! What has been read with the template -/

namespace Script

theorem ok_of_checkLiteral {type : PropertyType} {text : String} {u : Unit}
    (checked : checkLiteral type text = .ok u) : ∃ v, type.read text = .ok v := by
  rw [checkLiteral] at checked
  split at checked
  · next v read => exact ⟨v, read⟩
  · cases checked

theorem ok_of_sourceOf {type : PropertyType} {word : String} {source : Source}
    (read : sourceOf type word = .ok source) {text : String}
    (written : source = .literal text ∨ ∃ index, source = .parameter index (some text)) :
    ∃ v, type.read text = .ok v := by
  simp only [sourceOf] at read
  split at read
  · split at read
    · cases read
    · obtain ⟨_, checked, read⟩ := ok_bind_iff.1 read
      cases read
      obtain same | ⟨_, same⟩ := written
      · cases same
        exact ok_of_checkLiteral checked
      · cases same
  · split at read
    · cases read
    · split at read
      · cases read
      · split at read
        · next text' declared =>
          obtain ⟨_, checked, read⟩ := ok_bind_iff.1 read
          cases read
          obtain same | ⟨_, same⟩ := written
          · cases same
          · cases declared.symm.trans (Source.parameter.inj same).2
            exact ok_of_checkLiteral checked
        · next none =>
          cases read
          obtain same | ⟨_, same⟩ := written
          · cases same
          · exact absurd (Source.parameter.inj same).2 (none text)

end Script

section Compiled

variable {t : Template} {b : Binding} {arguments bound : List String} {text : String}

theorem Template.Compiled.ok_of_writes (compiled : t.Compiled) (member : b ∈ t.bindings)
    (writes : b.Writes text) : ∃ v, b.type.read text = .ok v := by
  obtain ⟨standard, header, body, read⟩ := compiled
  obtain ⟨line, _, bound⟩ := mem_of_mapM_ok (Script.templateOf_ok read).1 member
  obtain ⟨word, found⟩ := Script.source_of_bindingOf (ok_mapError_iff.1 bound)
  exact Script.ok_of_sourceOf found writes

/-! What a text is that the binding does not write -/

theorem Template.within_of_bindArguments (binds : t.bindArguments arguments = .ok bound) :
    t.requiredCount ≤ arguments.length ∧ arguments.length ≤ t.parameterCount := by
  rw [bindArguments] at binds
  split at binds
  · next accepts => simpa [Template.accepts] using accepts
  · cases binds

theorem Binding.resolve_given {index : Nat} {default : Option String}
    (binds : t.bindArguments arguments = .ok bound) (source : b.source = .parameter index default)
    (nth : arguments[index - 1]? = some text) : b.resolve bound = text := by
  obtain ⟨enough, fit⟩ := t.within_of_bindArguments binds
  obtain ⟨_, again, -, ⟨more, rfl⟩, -⟩ := Template.bindArguments_ok enough fit
  cases again.symm.trans binds
  have present := (List.getElem?_eq_some_iff.1 nth).1
  rw [resolve_parameter source, List.getElem?_append_left present, nth]
  rfl

theorem Template.Compiled.resolve_left (compiled : t.Compiled)
    (binds : t.bindArguments arguments = .ok bound) (member : b ∈ t.bindings) {index : Nat}
    {default : Option String} (source : b.source = .parameter index default)
    (left : arguments[index - 1]? = none) :
    t.defaults.get? index = some (b.resolve bound) := by
  obtain ⟨enough, fit⟩ := t.within_of_bindArguments binds
  obtain ⟨_, again, -, -, filled⟩ := Template.bindArguments_ok enough fit
  cases again.symm.trans binds
  have positive := compiled.positive member source
  have used := Template.mem_parameters member source
  have within : index ≤ t.parameterCount := t.le_parameterCount used
  have left : arguments.length < index := by
    have := List.getElem?_eq_none_iff.1 left
    omega
  obtain ⟨text, declared⟩ := compiled.declared enough used left
  rw [Binding.resolve_parameter source, filled index left within, declared]
  rfl

theorem Template.Compiled.resolve_lent (compiled : t.Compiled)
    (binds : t.bindArguments arguments = .ok bound) (member : b ∈ t.bindings)
    (lends : t.Lends b arguments text) : b.resolve bound = text := by
  obtain ⟨index, source, left, lender, other, declares, -⟩ := lends
  have value := compiled.resolve_left binds member source left
  rw [(compiled.get?_defaults text).2 ⟨lender, other, declares⟩] at value
  exact (Option.some.inj value).symm

theorem Template.Compiled.given_or_lent (compiled : t.Compiled)
    (binds : t.bindArguments arguments = .ok bound) (member : b ∈ t.bindings)
    {cause : PropertyFault} (misfit : b.type.read (b.resolve bound) = .error cause) :
    b.Given arguments (b.resolve bound) ∨ t.Lends b arguments (b.resolve bound) := by
  have unwritten : ¬b.Writes (b.resolve bound) := by
    intro writes
    obtain ⟨v, read⟩ := compiled.ok_of_writes member writes
    cases read.symm.trans misfit
  cases source : b.source with
  | literal text =>
    have same : b.resolve bound = text := by simp only [Binding.resolve, source]
    exact absurd (.inl (same ▸ source)) unwritten
  | parameter index default =>
    cases nth : arguments[index - 1]? with
    | some text =>
      have same := Binding.resolve_given binds source nth
      exact .inl ⟨index, default, source, same ▸ nth⟩
    | none =>
      have value := compiled.resolve_left binds member source nth
      obtain ⟨lender, other, declares⟩ := (compiled.get?_defaults _).1 value
      cases default with
      | some own =>
        have declared := (compiled.get?_defaults own).2 ⟨b, member, source⟩
        cases declared.symm.trans value
        exact absurd (.inr ⟨index, source⟩) unwritten
      | none =>
        refine .inr ⟨index, source, nth, lender, other, declares, fun same => ?_⟩
        -- The lender has read its default, for the same type.
        obtain ⟨v, read⟩ := compiled.ok_of_writes other (.inr ⟨index, declares⟩)
        rw [same, misfit] at read
        cases read

end Compiled

/-! Where an expansion fails -/

section Expansion

variable {x y : Expansion} {bindings : List Binding} {fault : Fault}

theorem Expansion.misfit_of_foldlM (failed : bindings.foldlM add x = .error fault) :
    ∃ b ∈ bindings, ∃ cause, b.type.read (b.resolve x.arguments) = .error cause ∧
      fault = .ofDesk
        (.badArgument x.template.name b.parameter? b.element b.property cause) := by
  induction bindings generalizing x with
  | nil => cases failed
  | cons b rest ih =>
    rw [List.foldlM_cons] at failed
    cases added : x.add b with
    | error fault' =>
      rw [added] at failed
      cases failed
      rw [add] at added
      split at added
      · next cause misfit =>
        cases added
        exact ⟨b, List.mem_cons_self, cause, misfit, rfl⟩
      · split at added <;> cases added
    | ok y =>
      rw [added] at failed
      obtain ⟨other, later, cause, misfit, same⟩ := ih failed
      rw [(value?_of_add added).1] at misfit
      rw [template_add added] at same
      exact ⟨other, List.mem_cons_of_mem b later, cause, misfit, same⟩

theorem Expansion.fits_of_foldlM (added : bindings.foldlM add x = .ok y) :
    ∀ b ∈ bindings, ∃ v, b.type.read (b.resolve x.arguments) = .ok v := by
  induction bindings generalizing x with
  | nil => exact List.forall_mem_nil _
  | cons b rest ih =>
    rw [List.foldlM_cons] at added
    obtain ⟨between, here, added⟩ := ok_bind_iff.1 added
    obtain ⟨kept, v, read, -⟩ := value?_of_add here
    exact List.forall_mem_cons.2 ⟨⟨v, read⟩, kept ▸ ih added⟩

end Expansion

/-- An expansion to which enough arguments are given fails exactly where the text of a binding is no
value of its type and is an argument that is given, or a default that a binding of another type lends;
the fault names such a binding. What a template writes for a binding itself is never at fault. -/
theorem misfits_given_unless_lent {library : Library} {name : String} {t : Template}
    (known : Table.get? library name = some t) (compiled : t.Compiled) {arguments : List String}
    (accepts : t.accepts arguments.length = true) :
    (∀ fault, library.expand name arguments = .error fault →
      ∃ b ∈ t.bindings, ∃ text cause, b.type.read text = .error cause ∧
        (b.Given arguments text ∨ t.Lends b arguments text) ∧ ¬b.Writes text ∧
        fault = .ofDesk (.badArgument t.name b.parameter? b.element b.property cause)) ∧
    ((∃ x, library.expand name arguments = .ok x) ↔
      ∀ b ∈ t.bindings, ∀ text, b.Given arguments text ∨ t.Lends b arguments text →
        ∃ v, b.type.read text = .ok v) := by
  obtain ⟨bound, binds⟩ := t.bindArguments_of_accepts accepts
  have expands : library.expand name arguments =
      t.bindings.foldlM Expansion.add ⟨t, bound, .empty, .empty⟩ := by
    rw [Library.expand_of_get? known, Template.expand, binds]
    rfl
  have resolved {b : Binding} (member : b ∈ t.bindings) {text : String}
      (fed : b.Given arguments text ∨ t.Lends b arguments text) : b.resolve bound = text := by
    obtain ⟨index, default, source, nth⟩ | lends := fed
    · exact Binding.resolve_given binds source nth
    · exact compiled.resolve_lent binds member lends
  have misfits {fault : Fault} (failed : library.expand name arguments = .error fault) :
      ∃ b ∈ t.bindings, ∃ text cause, b.type.read text = .error cause ∧
        (b.Given arguments text ∨ t.Lends b arguments text) ∧ ¬b.Writes text ∧
        fault = .ofDesk (.badArgument t.name b.parameter? b.element b.property cause) := by
    obtain ⟨b, member, cause, misfit, same⟩ := Expansion.misfit_of_foldlM (expands ▸ failed)
    refine ⟨b, member, b.resolve bound, cause, misfit,
      compiled.given_or_lent binds member misfit, fun writes => ?_, same⟩
    obtain ⟨v, read⟩ := compiled.ok_of_writes member writes
    cases read.symm.trans misfit
  refine ⟨fun _ => misfits, ?_, fun fits => ?_⟩
  · rintro ⟨x, expanded⟩ b member text fed
    have read := Expansion.fits_of_foldlM (expands ▸ expanded) b member
    exact resolved member fed ▸ read
  · cases outcome : library.expand name arguments with
    | ok x => exact ⟨x, rfl⟩
    | error fault =>
      obtain ⟨b, member, text, cause, misfit, fed, -⟩ := misfits outcome
      obtain ⟨v, read⟩ := fits b member text fed
      cases read.symm.trans misfit

namespace Sample

def lending : String :=
  "raw w 0 fakesrc name=s\ns freq int $1\ns label string $1=loud\nwar\n"

def lendingFault : Fault :=
  .ofDesk (.badArgument "w" (some 1) "s" "freq" (.unreadable .int "loud"))

set_option maxRecDepth 20000 in
theorem compiles_lending :
    ∃ (p : Program ℚ) (after : Library) (t : Template),
      (Script.compile lending).Returns .empty p after ∧ Table.get? p.templates "w" = some t ∧
      t.Compiled ∧ t.accepts 0 = true ∧ t.expand [] = .error lendingFault := by
  have checks :
      ((Script.compile lending : Act Library (Program ℚ)).eval .empty).1.isOk = true ∧
      ∀ p ∈ ((Script.compile lending : Act Library (Program ℚ)).eval .empty).1.toOption,
        (Table.get? p.templates "w").isSome = true ∧
        ∀ t ∈ Table.get? p.templates "w", t.accepts 0 = true ∧
          (match t.expand [] with
            | .error fault => decide (fault = lendingFault)
            | .ok _ => false) = true := by
    decide +kernel
  obtain ⟨p, compiled⟩ := Act.exists_returns_of_isOk checks.1
  obtain ⟨found, each⟩ := checks.2 p (by rw [compiled]; rfl)
  obtain ⟨t, known⟩ := Option.isSome_iff_exists.1 found
  obtain ⟨accepts, failed⟩ := each t known
  have read := Script.compiled_of_compile Library.compiled_empty compiled "w" t known
  refine ⟨p, _, t, compiled, known, read, accepts, ?_⟩
  split at failed
  · next outcome => rw [outcome, of_decide_eq_true failed]
  · cases failed

end Sample

theorem misfits_given_unless_lent_sample :
    ∃ (p : Program ℚ) (after : Library) (t : Template),
      (Script.compile Sample.lending).Returns .empty p after ∧
      Table.get? p.templates "w" = some t ∧ t.Compiled ∧ t.accepts ([] : List String).length = true ∧
      (∀ fault, p.templates.expand "w" [] = .error fault →
        ∃ b ∈ t.bindings, ∃ text cause, b.type.read text = .error cause ∧
          (b.Given [] text ∨ t.Lends b [] text) ∧ ¬b.Writes text ∧
          fault = .ofDesk (.badArgument t.name b.parameter? b.element b.property cause)) ∧
      ((∃ x, p.templates.expand "w" [] = .ok x) ↔
        ∀ b ∈ t.bindings, ∀ text, b.Given [] text ∨ t.Lends b [] text →
          ∃ v, b.type.read text = .ok v) := by
  obtain ⟨p, after, t, compiled, known, read, accepts, -⟩ := Sample.compiles_lending
  exact ⟨p, after, t, compiled, known, read, accepts,
    misfits_given_unless_lent known read accepts⟩

/-- The default of the template is no value of one of its types: with no argument given, the expansion
fails. -/
theorem not_misfits_given_lent :
    ∃ (p : Program ℚ) (after : Library) (t : Template),
      (Script.compile Sample.lending).Returns .empty p after ∧
      Table.get? p.templates "w" = some t ∧ t.accepts ([] : List String).length = true ∧
      p.templates.expand "w" [] =
        .error (.ofDesk (.badArgument "w" (some 1) "s" "freq" (.unreadable .int "loud"))) ∧
      ∀ b ∈ t.bindings, ∀ text, ¬b.Given [] text := by
  obtain ⟨p, after, t, compiled, known, -, accepts, failed⟩ := Sample.compiles_lending
  refine ⟨p, after, t, compiled, known, accepts, ?_, ?_⟩
  · rw [Library.expand_of_get? known, failed]
    rfl
  · rintro b _ text ⟨index, default, _, nth⟩
    cases nth

end ShowControl
