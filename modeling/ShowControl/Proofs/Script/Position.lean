import ShowControl.Proofs.Script.Reading

/-! Where the faults of a script are found.

A fault is known by its cause first, and gets its position where the line is at hand. No fault leaves
the reading of a construct without one. -/

set_option autoImplicit false
namespace ShowControl

namespace Fault

/-- The fault has no position yet. -/
def Unplaced : Fault → Prop
  | script fault => fault.number = none
  | desk line _ => line = none
  | host _ => True

/-- The fault is found on the line. A fault of the host bears no position. -/
def On (line : Script.Line) : Fault → Prop
  | script fault => fault.number = some (line.number : Int) ∧ fault.text = some line.text
  | desk number _ => number = some line.number
  | host _ => True

/-- The fault is found on one of the lines. -/
def Among (lines : List Script.Line) (fault : Fault) : Prop := ∃ line ∈ lines, fault.On line

theorem Among.mono {lines more : List Script.Line} {fault : Fault} (among : fault.Among lines)
    (within : lines ⊆ more) : fault.Among more := by
  obtain ⟨line, member, on⟩ := among
  exact ⟨line, within member, on⟩

end Fault

namespace Script

theorem Line.on_fault (line : Line) (cause : ScriptCause) : (line.fault cause).On line := ⟨rfl, rfl⟩

theorem Line.locating_fails {β : Type} (line : Line) (x : Except ScriptCause β) :
    FailsOnly (Fault.On line) (line.locating x) :=
  failsOnly_mapError fun cause _ => line.on_fault cause

theorem failsOnly_among {β : Type} {line : Line} {lines : List Line} {x : Except Fault β}
    (fails : FailsOnly (Fault.On line) x) (member : line ∈ lines) :
    FailsOnly (Fault.Among lines) x :=
  fails.mono fun _ on => ⟨line, member, on⟩

/-! Templates -/

theorem Block.closer_mem {belongs : Line → Bool} {lines : List Line} {closer : Line}
    (found : (Block.take belongs lines).closer = some closer) : closer ∈ lines :=
  (List.dropWhile_suffix belongs).subset (List.mem_of_mem_head? found)

theorem templateBlock_fails (header : Line) (rest : List Line) :
    FailsOnly (Fault.Among (header :: rest)) (templateBlock header rest) := by
  simp only [templateBlock]
  split
  · exact failsOnly_error ⟨header, List.mem_cons_self, header.on_fault _⟩
  · next closer found =>
    split
    · exact failsOnly_ok _
    · have member := List.mem_cons_of_mem header (Block.closer_mem found)
      exact failsOnly_error ⟨closer, member, closer.on_fault _⟩

theorem mem_of_templateBlock {header : Line} {rest : List Line} {block : Block}
    (closed : templateBlock header rest = .ok block) : block.body ⊆ rest := by
  simp only [templateBlock] at closed
  split at closed
  · cases closed
  · split at closed
    · cases closed
      exact (List.takeWhile_prefix _).subset
    · cases closed

theorem checkLiteral_unplaced (type : PropertyType) (text : String) :
    FailsOnly Fault.Unplaced (checkLiteral type text) := by
  rw [checkLiteral]
  split
  · exact failsOnly_ok _
  · exact failsOnly_error rfl

theorem sourceOf_unplaced (type : PropertyType) (word : String) :
    FailsOnly Fault.Unplaced (sourceOf type word) := by
  simp only [sourceOf]
  split
  · split
    · exact failsOnly_error rfl
    · exact failsOnly_bind (checkLiteral_unplaced _ _) fun _ _ => failsOnly_ok _
  · split
    · exact failsOnly_error trivial
    · split
      · exact failsOnly_error rfl
      · split
        · exact failsOnly_bind (checkLiteral_unplaced _ _) fun _ _ => failsOnly_ok _
        · exact failsOnly_ok _

theorem bindingOf_unplaced (elements : List String) (line : Line) :
    FailsOnly Fault.Unplaced (bindingOf elements line) := by
  simp only [bindingOf]
  split
  · split
    · exact failsOnly_error rfl
    · refine failsOnly_bind ?_ fun type _ => ?_
      · rw [typeNamed]
        split
        · exact failsOnly_ok _
        · exact failsOnly_error rfl
      · exact failsOnly_bind (sourceOf_unplaced _ _) fun _ _ => failsOnly_ok _
  · exact failsOnly_error rfl

theorem bindingAt_fails (elements : List String) (line : Line) :
    FailsOnly (Fault.On line) (bindingAt elements line) := by
  refine failsOnly_mapError ((bindingOf_unplaced elements line).mono fun fault unplaced => ?_)
  -- A fault that has no position gets that of the line.
  cases fault with
  | script fault =>
    obtain ⟨cause, number, text⟩ := fault
    obtain rfl : number = none := unplaced
    exact ⟨rfl, rfl⟩
  | desk number cause =>
    obtain rfl : number = none := unplaced
    rfl
  | host fault => trivial

theorem templateOf_fails (standard : Bool) (header : Line) (body : List Line) :
    FailsOnly (Fault.Among (header :: body)) (templateOf standard header body) := by
  have locating {β : Type} (x : Except ScriptCause β) :
      FailsOnly (Fault.Among (header :: body)) (header.locating x) :=
    failsOnly_among (header.locating_fails x) List.mem_cons_self
  simp only [templateOf]
  split
  · refine failsOnly_bind (locating _) fun portCount _ => ?_
    refine failsOnly_bind (locating _) fun layout _ => ?_
    refine failsOnly_bind (failsOnly_mapM fun line member => ?_) fun bindings _ => ?_
    · exact failsOnly_among (bindingAt_fails _ line) (List.mem_cons_of_mem header member)
    · exact failsOnly_bind (locating _) fun _ _ => failsOnly_ok _
  · exact failsOnly_error ⟨header, List.mem_cons_self, header.on_fault _⟩

/-! Statements -/

theorem nodeOf_fails (library : Library) (line : Line) :
    FailsOnly (Fault.On line) (nodeOf library line) := by
  simp only [nodeOf]
  split
  · split
    · exact failsOnly_error rfl
    · split
      · exact failsOnly_ok _
      · exact failsOnly_error (line.on_fault _)
  · exact failsOnly_error (line.on_fault _)

theorem plugOf_fails (line : Line) : FailsOnly (Fault.On line) (plugOf line) := by
  rw [plugOf.eq_def]
  split
  · exact failsOnly_ok _
  · exact failsOnly_error (line.on_fault _)

/-! Cues -/

section

variable {α : Type} [Number α]

theorem wrapActions_fails {belongs : Line → Bool} (opener : Line) (lines : List Line) :
    FailsOnly (Fault.Among (opener :: lines))
      (wrapActions opener (Block.take belongs lines) : Except Fault (List (Action α))) := by
  refine failsOnly_bind (failsOnly_mapM fun line member => ?_) fun actions _ => ?_
  · have inside : line ∈ lines := (List.takeWhile_prefix belongs).subset member
    exact failsOnly_among (line.locating_fails _) (List.mem_cons_of_mem opener inside)
  · split
    · exact failsOnly_error ⟨opener, List.mem_cons_self, opener.on_fault _⟩
    · next closer found =>
      have member := List.mem_cons_of_mem opener (Block.closer_mem found)
      split
      · exact failsOnly_error ⟨closer, member, closer.on_fault _⟩
      · split
        · exact failsOnly_error ⟨closer, member, closer.on_fault _⟩
        · exact failsOnly_ok _

theorem groupOf_fails (line : Line) (offset : Nat) (rest : List Line) :
    FailsOnly (Fault.Among (line :: rest))
      (groupOf line offset rest : Except Fault (ActionGroup α × Nat)) := by
  simp only [groupOf]
  split
  · exact failsOnly_bind (wrapActions_fails line rest) fun _ _ => failsOnly_ok _
  · refine failsOnly_bind ?_ fun _ _ => failsOnly_ok _
    exact failsOnly_among (line.locating_fails _) List.mem_cons_self
  · split
    · exact failsOnly_error ⟨line, List.mem_cons_self, line.on_fault _⟩
    · next next below =>
      refine failsOnly_bind ?_ fun _ _ => failsOnly_ok _
      exact failsOnly_among (next.locating_fails _) (List.mem_cons_of_mem line List.mem_cons_self)

theorem cueOf_fails (order : Nat) (line : Line) (rest : List Line) :
    FailsOnly (Fault.Among (line :: rest))
      (cueOf order line rest : Except Fault (Cue α × Nat)) := by
  refine failsOnly_bind ?_ fun found _ => ?_
  · exact failsOnly_among (line.locating_fails _) List.mem_cons_self
  · exact failsOnly_bind (groupOf_fails line found.2 rest) fun _ _ => failsOnly_ok _

/-! Whole scripts -/

theorem register_fails (line : Line) (template : Template) (library : Library) :
    FailsOnly (Fault.On line) ((register line template).eval library).1 := by
  simp only [register, Act.eval_bind, Act.eval_get]
  split
  · exact failsOnly_ok _
  · split
    · exact failsOnly_ok _
    · exact failsOnly_error (line.on_fault _)

theorem define_fails (line : Line) (rest : List Line) (library : Library) :
    FailsOnly (Fault.Among (line :: rest)) ((define line rest).eval library).1 := by
  rw [eval_define]
  refine Act.failsOnly_bind (templateBlock_fails line rest) fun block _ closed => ?_
  have body : line :: block.body ⊆ line :: rest :=
    List.cons_subset_cons line (mem_of_templateBlock ((Act.returns_ofExcept ..).1 closed).1)
  have read := (templateOf_fails false line block.body).mono fun _ among => among.mono body
  refine Act.failsOnly_bind read fun template between _ => ?_
  have registered := failsOnly_among (register_fails line template between)
    (List.mem_cons_self (l := rest))
  exact Act.failsOnly_bind registered fun _ _ _ => failsOnly_ok _

theorem Draft.read_fails (draft : Draft α) (line : Line) (rest : List Line) (library : Library) :
    FailsOnly (Fault.Among (line :: rest)) ((draft.read line rest).eval library).1 := by
  by_cases known : line.keyword ∈ ["raw", "new", "plug", "on"]
  · simp only [List.mem_cons, List.not_mem_nil, or_false] at known
    rcases known with keyword | keyword | keyword | keyword
    · rw [read_template draft rest keyword]
      exact Act.failsOnly_bind (define_fails line rest library) fun _ _ _ => failsOnly_ok _
    · rw [read_node draft rest keyword]
      refine Act.failsOnly_bind (failsOnly_ok library) fun known between _ => ?_
      have read := failsOnly_among (nodeOf_fails known line) (List.mem_cons_self (l := rest))
      exact Act.failsOnly_bind read fun _ _ _ => failsOnly_ok _
    · rw [read_plug draft rest keyword]
      have read := failsOnly_among (plugOf_fails line) (List.mem_cons_self (l := rest))
      exact Act.failsOnly_bind read fun _ _ _ => failsOnly_ok _
    · rw [eval_read_cue draft rest keyword]
      exact Act.failsOnly_bind (cueOf_fails _ line rest) fun _ _ _ => failsOnly_ok _
  -- A word that starts no construct is found on its line.
  · rw [read_misplaced draft rest known]
    exact failsOnly_error ⟨line, List.mem_cons_self, line.on_fault _⟩

theorem Draft.readAll_fails (draft : Draft α) (lines : List Line) (library : Library) :
    FailsOnly (Fault.Among lines) ((draft.readAll lines).eval library).1 := by
  induction draft, lines using Draft.readAll.induct generalizing library with
  | case1 draft =>
    rw [readAll]
    exact failsOnly_ok _
  | case2 draft line rest ih =>
    rw [readAll]
    refine Act.failsOnly_bind (read_fails draft line rest library) fun found between _ => ?_
    -- The lines that a construct leaves are lines of the script still.
    refine (ih found.1 found.2 between).mono fun _ among => among.mono ?_
    exact List.Subset.trans (List.drop_subset found.2 rest) (List.subset_cons_self line rest)

/-- Whatever keeps a script from being compiled is found on a line of it. -/
theorem compile_fails (script : String) (library : Library) :
    FailsOnly (Fault.Among (linesOf script))
      ((compile script : Act Library (Program α)).eval library).1 :=
  Act.failsOnly_bind (Draft.readAll_fails _ _ library) fun _ _ _ => failsOnly_ok _

end

end Script

end ShowControl
