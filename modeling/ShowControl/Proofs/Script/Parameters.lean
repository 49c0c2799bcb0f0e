import Mathlib.Data.List.Induction
import ShowControl.Proofs.Script.Binding
import ShowControl.Proofs.Table

/-! Parameters, their defaults, and the arguments that stand for them.

Every parameter above one with a default needs a default too, so that the arguments left out are
those of parameters with defaults. A number that no binding uses may lie between them; the empty text
that is filled in for it is the value of nothing. -/

set_option autoImplicit false
namespace ShowControl

/-- What a binding sets: a property of an element, or one of the node as a whole. -/
inductive Address where
  | element (element property : String)
  | node (property : String)
  deriving DecidableEq, Repr

def Binding.address (b : Binding) : Address :=
  if b.onNode then .node b.property else .element b.element b.property

def Expansion.value? (x : Expansion) : Address → Option PropertyValue
  | .element element property => x.elements.get? element property
  | .node property => x.node.get? property

namespace Template

/-- A binding of the template gives the parameter this default. -/
def Declares (t : Template) (index : Nat) (text : String) : Prop :=
  ∃ b ∈ t.bindings, b.source = .parameter index (some text)

/-- The last binding of the template that sets something. -/
def lastOn? (t : Template) (a : Address) : Option Binding :=
  (t.bindings.filter fun b => b.address = a).getLast?

end Template

namespace Script

/-! Defaults -/

theorem addDefault_ok {defaults defaults' : Table Nat String} {b : Binding}
    (added : addDefault defaults b = .ok defaults') (index : Nat) (text : String) :
    defaults'.get? index = some text ↔
      defaults.get? index = some text ∨ b.source = .parameter index (some text) := by
  rw [addDefault] at added
  split at added
  · next own given source =>
    rw [source]
    split at added
    · next other known =>
      split at added
      · next same =>
        cases added
        refine ⟨.inl, fun either => either.elim id ?_⟩
        rintro ⟨⟩
        rw [known, same]
      · cases added
    · next free =>
      cases added
      rw [Table.get?_insert]
      split
      · next same =>
        subst same
        simp [free]
      · next other =>
        have apart : ¬own = index := fun same => other same.symm
        simp [apart]
  · next none =>
    cases added
    refine ⟨.inl, fun either => either.elim id fun source => ?_⟩
    exact absurd source (none index text)

theorem foldlM_addDefault_ok {bindings : List Binding} {defaults defaults' : Table Nat String}
    (added : bindings.foldlM addDefault defaults = .ok defaults') (index : Nat) (text : String) :
    defaults'.get? index = some text ↔
      defaults.get? index = some text ∨ ∃ b ∈ bindings, b.source = .parameter index (some text) := by
  induction bindings generalizing defaults with
  | nil =>
    cases added
    simp
  | cons b rest ih =>
    rw [List.foldlM_cons] at added
    obtain ⟨next, here, added⟩ := ok_bind_iff.1 added
    rw [ih added, addDefault_ok here, or_assoc, List.exists_mem_cons_iff]

theorem defaultsOf_ok {bindings : List Binding} {defaults : Table Nat String}
    (read : defaultsOf bindings = .ok defaults) :
    bindings.foldlM addDefault .empty = .ok defaults ∧
      ∀ first, defaults.keys.min? = some first →
        ∀ index ∈ bindings.filterMap Binding.parameter?, first < index → index ∈ defaults.keys := by
  obtain ⟨found, folded, read⟩ := ok_bind_iff.1 read
  split at read
  · next first least =>
    dsimp only at read
    split at read
    · cases read
    · next whole =>
      cases read
      refine ⟨folded, fun other same index used above => ?_⟩
      cases least.symm.trans same
      -- The parameters without a default have no least one, so that there are none.
      have none := List.min?_eq_none_iff.1 (Option.eq_none_iff_forall_ne_some.2 whole)
      have kept := List.filter_eq_nil_iff.1 none index used
      simpa [above, Table.contains_iff] using kept
  · next none =>
    cases read
    exact ⟨folded, fun first least => absurd least (none first)⟩

/-! What a template that has been read consists of -/

theorem templateOf_ok {standard : Bool} {header : Line} {body : List Line} {t : Template}
    (read : templateOf standard header body = .ok t) :
    body.mapM (bindingAt t.layout.names) = .ok t.bindings ∧
      defaultsOf t.bindings = .ok t.defaults := by
  simp only [templateOf] at read
  split at read
  · obtain ⟨portCount, _, read⟩ := ok_bind_iff.1 read
    obtain ⟨layout, _, read⟩ := ok_bind_iff.1 read
    obtain ⟨bindings, found, read⟩ := ok_bind_iff.1 read
    obtain ⟨defaults, trailing, read⟩ := ok_bind_iff.1 read
    cases read
    exact ⟨found, ok_mapError_iff.1 trailing⟩
  · cases read

theorem source_of_bindingOf {elements : List String} {line : Line} {b : Binding}
    (read : bindingOf elements line = .ok b) : ∃ word, sourceOf b.type word = .ok b.source := by
  simp only [bindingOf] at read
  split at read
  · next element property typeName value _ =>
    split at read
    · cases read
    · obtain ⟨type, _, read⟩ := ok_bind_iff.1 read
      obtain ⟨source, found, read⟩ := ok_bind_iff.1 read
      cases read
      exact ⟨value, found⟩
  · cases read

theorem positive_of_sourceOf {type : PropertyType} {word : String} {index : Nat}
    {default : Option String} (read : sourceOf type word = .ok (.parameter index default)) :
    1 ≤ index := by
  simp only [sourceOf] at read
  split at read
  · split at read
    · cases read
    · obtain ⟨_, _, read⟩ := ok_bind_iff.1 read
      cases read
  · split at read
    · cases read
    · split at read
      · cases read
      · next positive =>
        split at read
        · obtain ⟨_, _, read⟩ := ok_bind_iff.1 read
          cases read
          exact Nat.pos_of_ne_zero positive
        · cases read
          exact Nat.pos_of_ne_zero positive

end Script

/-! Arguments -/

section Arguments

variable {t : Template} {index : Nat}

theorem Template.Compiled.get?_defaults (compiled : t.Compiled) (text : String) :
    t.defaults.get? index = some text ↔ t.Declares index text := by
  obtain ⟨standard, header, body, read⟩ := compiled
  obtain ⟨folded, -⟩ := Script.defaultsOf_ok (Script.templateOf_ok read).2
  rw [Script.foldlM_addDefault_ok folded, Table.get?_empty]
  exact or_iff_right nofun

theorem Binding.resolve_parameter {b : Binding} {default : Option String}
    (source : b.source = .parameter index default) (bound : List String) :
    b.resolve bound = bound[index - 1]?.getD "" := by
  simp only [resolve, source, List.getD_eq_getElem?_getD]

theorem Template.Compiled.positive (compiled : t.Compiled) {b : Binding} (member : b ∈ t.bindings)
    {default : Option String} (source : b.source = .parameter index default) : 1 ≤ index := by
  obtain ⟨standard, header, body, read⟩ := compiled
  obtain ⟨line, _, bound⟩ := mem_of_mapM_ok (Script.templateOf_ok read).1 member
  obtain ⟨word, found⟩ := Script.source_of_bindingOf (ok_mapError_iff.1 bound)
  exact Script.positive_of_sourceOf (source ▸ found)

theorem Template.le_parameterCount (used : index ∈ t.parameters) : index ≤ t.parameterCount := by
  rw [parameterCount, List.foldl_max]
  exact Nat.le_trans (List.le_max?_getD_of_mem used) (Nat.le_max_right _ _)

/-- A parameter that enough arguments leave out has a default. -/
theorem Template.Compiled.declared (compiled : t.Compiled) {given : Nat}
    (enough : t.requiredCount ≤ given) (used : index ∈ t.parameters) (left : given < index) :
    ∃ text, t.defaults.get? index = some text := by
  obtain ⟨standard, header, body, read⟩ := compiled
  obtain ⟨-, trailing⟩ := Script.defaultsOf_ok (Script.templateOf_ok read).2
  rw [requiredCount] at enough
  split at enough
  -- Without defaults every parameter is required.
  · have highest := t.le_parameterCount used
    omega
  · next first least =>
    apply Table.mem_keys_iff.1
    have above : first ≤ index := by omega
    rcases Nat.lt_or_eq_of_le above with above | rfl
    · exact trailing first least index used above
    · exact List.min?_mem least

theorem Template.mem_parameters {b : Binding} (member : b ∈ t.bindings) {default : Option String}
    (source : b.source = .parameter index default) : index ∈ t.parameters := by
  refine List.mem_filterMap.2 ⟨b, member, ?_⟩
  rw [Binding.parameter?, source]

/-- The argument list that is filled up, number by number. -/
theorem Template.bindArguments_ok {arguments : List String}
    (enough : t.requiredCount ≤ arguments.length) (fit : arguments.length ≤ t.parameterCount) :
    ∃ bound, t.bindArguments arguments = .ok bound ∧ bound.length = t.parameterCount ∧
      arguments <+: bound ∧
      ∀ index, arguments.length < index → index ≤ t.parameterCount →
        bound[index - 1]? = some ((t.defaults.get? index).getD "") := by
  have accepted : t.accepts arguments.length = true := by simp [accepts, enough, fit]
  rw [bindArguments, if_pos accepted]
  refine ⟨_, rfl, by simp [fit], List.prefix_append _ _, fun index left within => ?_⟩
  rw [List.getElem?_append_right (by omega), List.getElem?_map, List.getElem?_range' (by omega)]
  have number : arguments.length + 1 + 1 * (index - 1 - arguments.length) = index := by omega
  rw [number]
  rfl

end Arguments

/-! Values -/

section Values

variable {x y : Expansion} {b : Binding}

theorem Expansion.value?_of_add (added : x.add b = .ok y) :
    y.arguments = x.arguments ∧ ∃ v, b.type.read (b.resolve x.arguments) = .ok v ∧
      ∀ a, y.value? a = if a = b.address then some v else x.value? a := by
  rw [add] at added
  split at added
  · cases added
  next v read =>
  rw [Binding.address]
  split at added
  · next whole =>
    cases added
    refine ⟨rfl, v, read, fun a => ?_⟩
    rw [if_pos whole]
    cases a with
    | element => rfl
    | node property => simp [value?, Table.get?_insert]
  · next part =>
    cases added
    refine ⟨rfl, v, read, fun a => ?_⟩
    rw [if_neg part]
    cases a with
    | element element property => simp [value?, Settings.get?_set_apply]
    | node => rfl

/-- Of the bindings that set something, the last one decides. -/
theorem Expansion.value?_of_foldlM {bindings : List Binding}
    (added : bindings.foldlM add x = .ok y) : y.arguments = x.arguments ∧
      ((∀ a, x.value? a = none) → ∀ a, (y.value? a).map .ok =
        (bindings.filter fun b => b.address = a).getLast?.map fun b =>
          b.type.read (b.resolve x.arguments)) := by
  -- The last binding is added to what the ones before it have set.
  induction bindings using List.reverseRecOn generalizing y with
  | nil =>
    cases added
    refine ⟨rfl, fun empty a => ?_⟩
    rw [empty a]
    rfl
  | append_singleton front b ih =>
    rw [List.foldlM_append] at added
    obtain ⟨between, before, added⟩ := ok_bind_iff.1 added
    rw [List.foldlM_cons] at added
    obtain ⟨last, added, same⟩ := ok_bind_iff.1 added
    cases same
    obtain ⟨kept, values⟩ := ih before
    obtain ⟨kept', v, read, value⟩ := value?_of_add added
    refine ⟨kept'.trans kept, fun empty a => ?_⟩
    rw [value, List.filter_append, List.getLast?_append]
    split
    · next same =>
      rw [kept] at read
      simp [same, read]
    · next other =>
      have apart : ¬b.address = a := fun same => other same.symm
      simp [apart, values empty a]

end Values

/-- Between the least and the highest number of arguments that a template takes, every argument list
is filled up. A binding of a parameter has the argument with its number, or the default that the
template declares for it, if the argument is left out. What is set then is what the last binding of
it says, and nothing else is set. -/
theorem arguments_bind_completely {t : Template} (compiled : t.Compiled) {arguments : List String}
    (enough : t.requiredCount ≤ arguments.length) (fit : arguments.length ≤ t.parameterCount) :
    ∃ bound, t.bindArguments arguments = .ok bound ∧ bound.length = t.parameterCount ∧
      arguments <+: bound ∧
      (∀ b ∈ t.bindings, ∀ index default, b.source = .parameter index default →
        1 ≤ index ∧ index ≤ bound.length ∧
        (∀ given, arguments[index - 1]? = some given → b.resolve bound = given) ∧
        (arguments[index - 1]? = none → t.defaults.get? index = some (b.resolve bound) ∧
          ∀ text, t.Declares index text ↔ text = b.resolve bound)) ∧
      ∀ x, t.expand arguments = .ok x → x.arguments = bound ∧
        ∀ a, (x.value? a).map .ok = (t.lastOn? a).map fun b => b.type.read (b.resolve bound) := by
  obtain ⟨_, binds, length, ⟨more, rfl⟩, filled⟩ := Template.bindArguments_ok enough fit
  refine ⟨_, binds, length, List.prefix_append _ _, ?_, ?_⟩
  · intro b member index default source
    have positive := compiled.positive member source
    have used := Template.mem_parameters member source
    have within : index ≤ t.parameterCount := t.le_parameterCount used
    have resolved := Binding.resolve_parameter source (arguments ++ more)
    refine ⟨positive, length ▸ within, fun given nth => ?_, fun none => ?_⟩
    · have present := (List.getElem?_eq_some_iff.1 nth).1
      rw [resolved, List.getElem?_append_left present, nth]
      rfl
    · have left : arguments.length < index := by
        have := List.getElem?_eq_none_iff.1 none
        omega
      obtain ⟨text, declared⟩ := compiled.declared enough used left
      have value : b.resolve (arguments ++ more) = text := by
        rw [resolved, filled index left within, declared]
        rfl
      refine ⟨value ▸ declared, fun other => ?_⟩
      rw [← compiled.get?_defaults, declared, value]
      exact ⟨fun same => (Option.some.inj same).symm, fun same => congrArg some same.symm⟩
  · intro x expanded
    rw [Template.expand, binds] at expanded
    obtain ⟨kept, values⟩ := Expansion.value?_of_foldlM expanded
    refine ⟨kept, values fun a => ?_⟩
    cases a <;> rfl

namespace Sample

/-- A definition with a number that no binding uses, and two bindings of one property. -/
def gapped : String :=
  "raw w 0 fakesrc name=s\ns freq int $1\ns gain int $2=4\ns gain int $4=8\nraw width int $2\n"

def gappedTemplate : Except Fault Template :=
  match Script.linesOf gapped with
  | header :: body => Script.templateOf false header body
  | [] => .error (.ofScript .unclosedTemplate)

end Sample

set_option maxRecDepth 20000 in
theorem arguments_bind_completely_sample :
    ∃ t, Sample.gappedTemplate = .ok t ∧ t.Compiled ∧ t.requiredCount = 1 ∧ t.parameterCount = 4 ∧
      t.bindArguments ["440"] = .ok ["440", "4", "", "8"] ∧
      (∀ b ∈ t.bindings, ∀ index default, b.source = .parameter index default →
        1 ≤ index ∧ index ≤ 4 ∧
        (∀ given, ["440"][index - 1]? = some given →
          b.resolve ["440", "4", "", "8"] = given) ∧
        (["440"][index - 1]? = none →
          t.defaults.get? index = some (b.resolve ["440", "4", "", "8"]) ∧
          ∀ text, t.Declares index text ↔ text = b.resolve ["440", "4", "", "8"])) ∧
      ∀ x, t.expand ["440"] = .ok x → x.arguments = ["440", "4", "", "8"] ∧
        ∀ a, (x.value? a).map .ok =
          (t.lastOn? a).map fun b => b.type.read (b.resolve ["440", "4", "", "8"]) := by
  have checks : Sample.gappedTemplate.isOk = true ∧
      ∀ t ∈ Sample.gappedTemplate.toOption, t.requiredCount = 1 ∧ t.parameterCount = 4 ∧
        (t.bindArguments ["440"]).toOption = some ["440", "4", "", "8"] := by
    decide +kernel
  obtain ⟨ok, values⟩ := checks
  cases read : Sample.gappedTemplate with
  | error fault =>
    rw [read] at ok
    cases ok
  | ok t =>
    obtain ⟨required, highest, bound⟩ := values t (by rw [read]; rfl)
    have compiled : t.Compiled := by
      rw [Sample.gappedTemplate] at read
      split at read
      · exact ⟨false, _, _, read⟩
      · cases read
    have enough : t.requiredCount ≤ ["440"].length := by simp [required]
    have fit : ["440"].length ≤ t.parameterCount := by simp [highest]
    obtain ⟨_, binds, length, -, law⟩ := arguments_bind_completely compiled enough fit
    rw [binds] at bound
    cases bound
    exact ⟨t, rfl, compiled, required, highest, binds, law⟩

end ShowControl
