import ShowControl.Proofs.Property
import ShowControl.Proofs.Script.Placement
import ShowControl.Proofs.Script.Stop

/-! In whose words a script fails.

A script that cannot be compiled fails with a fault of its own language, with one exception: the
number of a parameter is read without a look at its length, and the host breaks down over one that
has too many digits. -/

set_option autoImplicit false
namespace ShowControl

namespace Fault

/-- A fault that compiling a script is meant to end with. -/
def OfCompiler : Fault → Prop
  | script _ => True
  | desk _ cause => cause.family = .danglingReference ∨ cause.family = .unknownElement
  | host _ => False

/-- Such a fault, or that of a number with too many digits, and then only of a length like this. -/
def OwnUnless (long : Nat → Prop) (fault : Fault) : Prop :=
  fault.OfCompiler ∨ ∃ n, long n ∧ fault = .host (.tooManyDigits n)

theorem OwnUnless.mono {long long' : Nat → Prop} {fault : Fault} (own : fault.OwnUnless long)
    (weaker : ∀ n, long n → long' n) : fault.OwnUnless long' := by
  obtain own | ⟨n, holds, rfl⟩ := own
  · exact .inl own
  · exact .inr ⟨n, weaker n holds, rfl⟩

end Fault

namespace Script

/-- A line that binds a property to a parameter whose number has `n` digits, which are too many. -/
def Line.Overlong (line : Line) (elements : List String) (n : Nat) : Prop :=
  ∃ element property value digits default, ∃ type : PropertyType,
    line.words = [element, property, type.name, value] ∧
    (element = Binding.nodeElement ∨ element ∈ elements) ∧
    parameterParts? value.toList = some (digits, default) ∧
    digits.length = n ∧ Decimal.digitLimit < n

/-- The header of a template, as far as its layout. -/
def Line.LaysOut (header : Line) (layout : Pipeline.Layout) : Prop :=
  ∃ name count portCount word words, header.operands = name :: count :: word :: words ∧
    portCountOf count = .ok portCount ∧
    Pipeline.Layout.ofDescription (" ".intercalate (word :: words)) = .ok layout

/-- A template with such a line, and with nothing amiss above it. -/
def Line.BodyOverflows (header : Line) (body : List Line) (n : Nat) : Prop :=
  ∃ layout front line back, header.LaysOut layout ∧ body = front ++ line :: back ∧
    (∀ other ∈ front, (bindingAt layout.names other).isOk = true) ∧
    line.Overlong layout.names n

/-- The construct is a template like that. -/
def Line.Overflows (header : Line) (rest : List Line) (n : Nat) : Prop :=
  header.keyword = "raw" ∧ ∃ block, templateBlock header rest = .ok block ∧
    header.BodyOverflows block.body n

/-! There is no other exception -/

section Own

variable {long : Nat → Prop}

theorem own_script {β : Type} (fault : ScriptFault) :
    FailsOnly (Fault.OwnUnless long) (.error (.script fault) : Except Fault β) :=
  failsOnly_error (.inl trivial)

theorem own_locating {β : Type} (line : Line) (x : Except ScriptCause β) :
    FailsOnly (Fault.OwnUnless long) (line.locating x) :=
  failsOnly_mapError fun _ _ => .inl trivial

theorem own_checkLiteral (type : PropertyType) (text : String) :
    FailsOnly (Fault.OwnUnless long) (checkLiteral type text) := by
  rw [checkLiteral]
  split
  · exact failsOnly_ok _
  · exact own_script _

theorem own_sourceOf (type : PropertyType) (word : String) :
    FailsOnly (Fault.OwnUnless fun n => ∃ digits default,
      parameterParts? word.toList = some (digits, default) ∧ digits.length = n ∧
        Decimal.digitLimit < n) (sourceOf type word) := by
  simp only [sourceOf]
  split
  · split
    · exact own_script _
    · exact failsOnly_bind (own_checkLiteral _ _) fun _ _ => failsOnly_ok _
  · next digits default parts =>
    split
    · next long => exact failsOnly_error (.inr ⟨_, ⟨digits, default, parts, rfl, long⟩, rfl⟩)
    · split
      · exact own_script _
      · split
        · exact failsOnly_bind (own_checkLiteral _ _) fun _ _ => failsOnly_ok _
        · exact failsOnly_ok _

theorem own_bindingOf (elements : List String) (line : Line) :
    FailsOnly (Fault.OwnUnless (line.Overlong elements)) (bindingOf elements line) := by
  simp only [bindingOf]
  split
  · next element property typeName value words =>
    split
    · exact failsOnly_error (.inl (.inr rfl))
    · next known =>
      refine failsOnly_bind ?_ fun type named => ?_
      · rw [typeNamed]
        split
        · exact failsOnly_ok _
        · exact own_script _
      · refine failsOnly_bind ((own_sourceOf type value).mono fun fault own => ?_) fun _ _ =>
          failsOnly_ok _
        refine own.mono fun n reference => ?_
        obtain ⟨digits, default, parts, length, long⟩ := reference
        have named : type.name = typeName := by
          rw [typeNamed] at named
          split at named
          · next found =>
            cases named
            exact PropertyType.name_of_ofName? found
          · cases named
        subst named
        have known : element = Binding.nodeElement ∨ element ∈ elements := by
          by_cases node : element = Binding.nodeElement
          · exact .inl node
          · simpa [node] using known
        exact ⟨element, property, value, digits, default, type, words, known, parts, length, long⟩
  · exact own_script _

theorem own_bindingAt (elements : List String) (line : Line) :
    FailsOnly (Fault.OwnUnless (line.Overlong elements)) (bindingAt elements line) := by
  refine failsOnly_mapError ((own_bindingOf elements line).mono fun fault own => ?_)
  obtain own | ⟨n, long, rfl⟩ := own
  · cases fault with
    | script fault => exact .inl trivial
    | desk number cause => cases number <;> exact .inl own
    | host fault => cases own
  · exact .inr ⟨n, long, rfl⟩

theorem own_templateOf (standard : Bool) (header : Line) (body : List Line) :
    FailsOnly (Fault.OwnUnless (header.BodyOverflows body)) (templateOf standard header body) := by
  simp only [templateOf]
  split
  · next name count word words operands =>
    refine failsOnly_bind (own_locating _ _) fun portCount counted => ?_
    refine failsOnly_bind (own_locating _ _) fun layout described => ?_
    have laysOut : header.LaysOut layout :=
      ⟨name, count, portCount, word, words, operands, ok_mapError_iff.1 counted,
        ok_mapError_iff.1 (ok_mapError_iff.1 described)⟩
    refine failsOnly_bind (fun fault failed => ?_) fun bindings _ => ?_
    · obtain ⟨front, line, back, split, read, fails⟩ := split_of_mapM_error failed
      refine (own_bindingAt layout.names line fault fails).mono fun n long => ?_
      exact ⟨layout, front, line, back, laysOut, split, read, long⟩
    · exact failsOnly_bind (own_locating _ _) fun _ _ => failsOnly_ok _
  · exact own_script _

theorem own_templateBlock (header : Line) (rest : List Line) :
    FailsOnly (Fault.OwnUnless long) (templateBlock header rest) := by
  simp only [templateBlock]
  split
  · exact own_script _
  · split
    · exact failsOnly_ok _
    · exact own_script _

theorem own_nodeOf (library : Library) (line : Line) :
    FailsOnly (Fault.OwnUnless long) (nodeOf library line) := by
  simp only [nodeOf]
  split
  · split
    · exact failsOnly_error (.inl (.inl rfl))
    · split
      · exact failsOnly_ok _
      · exact own_script _
  · exact own_script _

theorem own_plugOf (line : Line) : FailsOnly (Fault.OwnUnless long) (plugOf line) := by
  rw [plugOf.eq_def]
  split
  · exact failsOnly_ok _
  · exact own_script _

theorem own_register (line : Line) (template : Template) (library : Library) :
    FailsOnly (Fault.OwnUnless long) ((register line template).eval library).1 := by
  simp only [register, Act.eval_bind, Act.eval_get]
  split
  · exact failsOnly_ok _
  · split
    · exact failsOnly_ok _
    · exact own_script _

section

variable {α : Type} [Number α]

theorem own_wrapActions (opener : Line) (block : Block) :
    FailsOnly (Fault.OwnUnless long)
      (wrapActions opener block : Except Fault (List (Action α))) := by
  refine failsOnly_bind (failsOnly_mapM fun line _ => own_locating _ _) fun actions _ => ?_
  split
  · exact own_script _
  · split
    · exact own_script _
    · split
      · exact own_script _
      · exact failsOnly_ok _

theorem own_groupOf (line : Line) (offset : Nat) (rest : List Line) :
    FailsOnly (Fault.OwnUnless long)
      (groupOf line offset rest : Except Fault (ActionGroup α × Nat)) := by
  simp only [groupOf]
  split
  · exact failsOnly_bind (own_wrapActions _ _) fun _ _ => failsOnly_ok _
  · exact failsOnly_bind (own_locating _ _) fun _ _ => failsOnly_ok _
  · split
    · exact own_script _
    · exact failsOnly_bind (own_locating _ _) fun _ _ => failsOnly_ok _

theorem own_cueOf (order : Nat) (line : Line) (rest : List Line) :
    FailsOnly (Fault.OwnUnless long) (cueOf order line rest : Except Fault (Cue α × Nat)) :=
  failsOnly_bind (own_locating _ _) fun _ _ => failsOnly_bind (own_groupOf _ _ _) fun _ _ =>
    failsOnly_ok _

theorem Draft.own_read (draft : Draft α) (line : Line) (rest : List Line) (library : Library) :
    FailsOnly (Fault.OwnUnless (line.Overflows rest)) ((draft.read line rest).eval library).1 := by
  by_cases known : line.keyword ∈ ["raw", "new", "plug", "on"]
  · simp only [List.mem_cons, List.not_mem_nil, or_false] at known
    rcases known with keyword | keyword | keyword | keyword
    · rw [read_template draft rest keyword]
      refine Act.failsOnly_bind ?_ fun _ _ _ => failsOnly_ok _
      rw [eval_define]
      refine Act.failsOnly_bind (own_templateBlock line rest) fun block _ closed => ?_
      have closed := ((Act.returns_ofExcept ..).1 closed).1
      refine Act.failsOnly_bind ?_ fun template between _ =>
        Act.failsOnly_bind (own_register _ _ _) fun _ _ _ => failsOnly_ok _
      refine (own_templateOf false line block.body).mono fun fault own => own.mono fun n long => ?_
      exact ⟨keyword, block, closed, long⟩
    · rw [read_node draft rest keyword]
      exact Act.failsOnly_bind (failsOnly_ok library) fun known _ _ =>
        Act.failsOnly_bind (own_nodeOf known line) fun _ _ _ => failsOnly_ok _
    · rw [read_plug draft rest keyword]
      exact Act.failsOnly_bind (own_plugOf line) fun _ _ _ => failsOnly_ok _
    · rw [eval_read_cue draft rest keyword]
      exact Act.failsOnly_bind (own_cueOf _ line rest) fun _ _ _ => failsOnly_ok _
  · rw [read_misplaced draft rest known]
    exact own_script _

end

end Own

/-! The exception does occur -/

theorem bindingAt_of_overlong {elements : List String} {line : Line} {n : Nat}
    (long : line.Overlong elements n) :
    bindingAt elements line = .error (.host (.tooManyDigits n)) := by
  obtain ⟨element, property, value, digits, default, type, words, known, parts, rfl, long⟩ := long
  have read : sourceOf type value = .error (.host (.tooManyDigits digits.length)) := by
    simp only [sourceOf, parts, if_pos long]
  have given : (element ≠ Binding.nodeElement && !elements.contains element) = false := by
    rcases known with node | member
    · simp [node]
    · simp [member]
  have named : typeNamed type.name = .ok type := by
    rw [typeNamed, PropertyType.ofName?_name]
  have fails : bindingOf elements line = .error (.host (.tooManyDigits digits.length)) := by
    simp only [bindingOf, words]
    rw [given, named]
    show (sourceOf type value >>= _) = _
    rw [read]
    rfl
  rw [bindingAt, fails]
  rfl

theorem templateOf_of_bodyOverflows {header : Line} {body : List Line} {n : Nat}
    (long : header.BodyOverflows body n) (standard : Bool) :
    templateOf standard header body = .error (.host (.tooManyDigits n)) := by
  obtain ⟨layout, front, line, back, laysOut, split, read, long⟩ := long
  obtain ⟨name, count, portCount, word, words, operands, counted, described⟩ := laysOut
  have mapped := mapM_append_error read (bindingAt_of_overlong long) back
  rw [← split] at mapped
  simp only [templateOf, operands, counted, described]
  show (body.mapM (bindingAt layout.names) >>= _) = _
  rw [mapped]
  rfl

variable {α : Type} [Number α]

theorem Draft.read_of_overflows {line : Line} {rest : List Line} {n : Nat}
    (long : line.Overflows rest n) (draft : Draft α) (library : Library) :
    (draft.read line rest).eval library = (.error (.host (.tooManyDigits n)), library) := by
  obtain ⟨keyword, block, closed, long⟩ := long
  have fails : (define line rest).eval library = (.error (.host (.tooManyDigits n)), library) := by
    rw [eval_define, Act.eval_bind, Act.eval_ofExcept, closed]
    show (Act.ofExcept (templateOf false line block.body) >>= _).eval library = _
    rw [Act.eval_bind, Act.eval_ofExcept, templateOf_of_bodyOverflows long]
  rw [read_template draft rest keyword, Act.eval_bind, fails]

theorem compile_of_overflows {script : String} {library : Library} {stop : Stop α} {n : Nat}
    (comes : Draft.start.Comes library (linesOf script) stop.draft stop.library
      (stop.start :: stop.below)) (long : stop.start.Overflows stop.below n) :
    (compile script : Act Library (Program α)).eval library =
      (.error (.host (.tooManyDigits n)), stop.library) := by
  rw [eval_compile, comes.eval, Draft.readAll, Act.eval_bind, Draft.read_of_overflows long]

end Script

open Script in
/-- A script that does not compile fails in the words of the compiler, or else over the number of a
parameter. It fails over a number if, and only if, the reading comes to a closed template with a
sound header, the number has more digits than the host reads, and nothing is amiss in the body above
it. -/
theorem compile_fails_in_own_words (α : Type) [Number α] (script : String) (library : Library) :
    FailsOnly (fun fault => fault.OfCompiler ∨ ∃ n, fault = .host (.tooManyDigits n))
      ((compile script : Act Library (Program α)).eval library).1 ∧
    ∀ n, ((compile script : Act Library (Program α)).eval library).1 =
        .error (.host (.tooManyDigits n)) ↔
      ∃ stop : Stop α, Draft.start.Comes library (linesOf script) stop.draft stop.library
          (stop.start :: stop.below) ∧ stop.start.Overflows stop.below n := by
  have fails {fault : Fault}
      (failed : ((compile script : Act Library (Program α)).eval library).1 = .error fault) :
      fault.OwnUnless fun n => ∃ stop : Stop α, Draft.start.Comes library (linesOf script)
        stop.draft stop.library (stop.start :: stop.below) ∧ stop.start.Overflows stop.below n := by
    obtain ⟨stop, comes, cut⟩ := exists_stop (Prod.ext failed rfl)
    have own := stop.draft.own_read stop.start stop.below stop.library fault (by rw [cut])
    exact own.mono fun n long => ⟨stop, comes, long⟩
  refine ⟨fun fault failed => ?_, fun n => ⟨fun failed => ?_, ?_⟩⟩
  · obtain own | ⟨n, -, rfl⟩ := fails failed
    · exact .inl own
    · exact .inr ⟨n, rfl⟩
  · obtain own | ⟨m, long, same⟩ := fails failed
    · cases own
    · cases same
      exact long
  · rintro ⟨stop, comes, long⟩
    rw [compile_of_overflows comes long]

namespace Script

theorem parameterParts?_of_digits {digits : List Char} (filled : digits ≠ [])
    (all : ∀ c ∈ digits, Text.isDecimalDigit c = true) :
    parameterParts? ('$' :: digits) = some (digits, none) := by
  simp [parameterParts?, List.takeWhile_eq_self_iff.2 all, List.dropWhile_eq_nil_iff.2 all, filled]

namespace Sample

/-- A reference to a parameter with a number of `n` digits. -/
def reference (n : Nat) : String := String.ofList ('$' :: List.replicate n '1')

def referenceText (n : Nat) : String := "s freq int" ++ " " ++ reference n

/-- A template with such a reference. -/
def referring (n : Nat) : String :=
  "raw w 0 fakesrc name=s\n" ++ ((referenceText n ++ "\n") ++ "war\n")

theorem solid_reference (n : Nat) : ∀ c ∈ (reference n).toList, Text.isBlank c = false := by
  rw [reference, String.toList_ofList, List.forall_mem_cons]
  refine ⟨rfl, fun c member => ?_⟩
  rw [List.eq_of_mem_replicate member]
  rfl

theorem words_referenceText (n : Nat) :
    Text.words (referenceText n) = ["s", "freq", "int", reference n] := by
  have blank : ∀ c ∈ " ".toList, Text.isBlank c = true := List.all_eq_true.1 (by decide)
  have filled : reference n ≠ "" := by simp [reference]
  rw [referenceText, Text.words_gap_append _ (by decide) blank,
    Text.words_of_solid filled (solid_reference n)]
  rfl

theorem plain_referenceText (n : Nat) :
    ∀ c ∈ (referenceText n).toList, Text.isLineBreak c = false := by
  have front : ("s freq int ".toList.all fun c => !Text.isLineBreak c) = true := by decide +kernel
  rw [referenceText, String.toList_append]
  refine List.forall_mem_append.2 ⟨fun c member => ?_, fun c member => ?_⟩
  · simpa using List.all_eq_true.1 front c member
  · have solid := solid_reference n c member
    exact Bool.eq_false_iff.2 fun breaks =>
      Bool.eq_false_iff.1 solid (Text.isBlank_of_isLineBreak breaks)

theorem lines_referring (n : Nat) :
    Text.lines (referring n) = ["raw w 0 fakesrc name=s", referenceText n, "war"] := by
  have ends : (referenceText n ++ "\n").toList.getLast? = some '\n' := by
    rw [String.toList_append]
    exact List.getLast?_concat
  have header : Text.lines "raw w 0 fakesrc name=s\n" = ["raw w 0 fakesrc name=s"] := by
    decide +kernel
  have binding := Text.lines_of_plain (plain_referenceText n)
  have closer : Text.lines "war\n" = ["war"] := by decide +kernel
  have below : Text.lines ((referenceText n ++ "\n") ++ "war\n") = [referenceText n, "war"] :=
    (Text.lines_append ends _).trans (congrArg₂ (· ++ ·) binding closer)
  exact (Text.lines_append (by decide +kernel) _).trans (congrArg₂ (· ++ ·) header below)

def referringHeader : Line := ⟨1, "raw w 0 fakesrc name=s", "raw", ["w", "0", "fakesrc", "name=s"]⟩

def referringLine (n : Nat) : Line := ⟨2, referenceText n, "s", ["freq", "int", reference n]⟩

def referringCloser : Line := ⟨3, "war", "war", []⟩

theorem linesOf_referring (n : Nat) :
    linesOf (referring n) = [referringHeader, referringLine n, referringCloser] := by
  show linesFrom 1 (Text.lines (referring n)) = _
  have header : Text.words "raw w 0 fakesrc name=s" = ["raw", "w", "0", "fakesrc", "name=s"] := by
    decide +kernel
  have closer : Text.words "war" = ["war"] := by decide +kernel
  rw [lines_referring, linesFrom_cons header (by decide),
    linesFrom_cons (words_referenceText n) (by decide), linesFrom_cons closer (by decide)]
  rfl

theorem parameterParts?_reference {n : Nat} (filled : 0 < n) :
    parameterParts? (reference n).toList = some (List.replicate n '1', none) := by
  rw [reference, String.toList_ofList]
  refine parameterParts?_of_digits ?_ fun c member => ?_
  · rw [ne_eq, List.replicate_eq_nil_iff]
    omega
  · rw [List.eq_of_mem_replicate member]
    rfl

theorem laysOut_referringHeader :
    ∃ layout, referringHeader.LaysOut layout ∧ "s" ∈ layout.names := by
  have names : (Pipeline.Layout.ofDescription "fakesrc name=s").map Pipeline.Layout.names =
      .ok ["s"] := by
    decide +kernel
  cases described : Pipeline.Layout.ofDescription "fakesrc name=s" with
  | error fault =>
    rw [described] at names
    cases names
  | ok layout =>
    rw [described] at names
    refine ⟨layout, ⟨"w", "0", 0, "fakesrc", ["name=s"], rfl, by decide +kernel, described⟩, ?_⟩
    exact Except.ok.inj names ▸ List.mem_singleton_self "s"

theorem overflows_referringHeader {n : Nat} (long : Decimal.digitLimit < n) :
    referringHeader.Overflows [referringLine n, referringCloser] n := by
  obtain ⟨layout, laysOut, known⟩ := laysOut_referringHeader
  refine ⟨rfl, ⟨[referringLine n], some referringCloser⟩, rfl, layout, [], referringLine n, [],
    laysOut, rfl, List.forall_mem_nil _, ?_⟩
  exact ⟨"s", "freq", reference n, List.replicate n '1', none, .int, rfl, .inr known,
    parameterParts?_reference (Nat.zero_lt_of_lt long), List.length_replicate, long⟩

theorem eval_compile_referring (α : Type) [Number α] {n : Nat} (long : Decimal.digitLimit < n)
    (library : Library) :
    (compile (referring n) : Act Library (Program α)).eval library =
      (.error (.host (.tooManyDigits n)), library) := by
  rw [eval_compile, linesOf_referring, Draft.readAll, Act.eval_bind,
    Draft.read_of_overflows (overflows_referringHeader long)]

end Sample

end Script

open Script in
/-- One digit more than the host reads is enough. -/
theorem not_compile_fails_in_own_words_referring :
    ¬FailsOnly Fault.OfCompiler
      ((compile (Sample.referring 4301) : Act Library (Program ℚ)).eval .empty).1 := by
  rw [Sample.eval_compile_referring ℚ (by decide)]
  exact fun own => own _ rfl

end ShowControl
