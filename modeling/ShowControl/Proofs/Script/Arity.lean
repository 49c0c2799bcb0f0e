import ShowControl.Proofs.Number.Exact
import ShowControl.Proofs.Script.Composition
import ShowControl.Proofs.Table

/-! What becomes of the statements of a program when its templates are expanded.

The number of arguments is checked against the template that has the name at that line, and the
program has the template that has the name in the end. These differ only if a standard template is
replaced in between. -/

set_option autoImplicit false
namespace ShowControl

/-- An argument does not fit the type of its binding. -/
def Fault.OfArgument (fault : Fault) : Prop :=
  ∃ template parameter element property cause,
    fault = .ofDesk (.badArgument template parameter element property cause)

theorem Template.bindArguments_of_accepts {t : Template} {arguments : List String}
    (accepts : t.accepts arguments.length = true) : ∃ bound, t.bindArguments arguments = .ok bound := by
  rw [bindArguments, if_pos accepts]
  exact ⟨_, rfl⟩

theorem Template.bindArguments_of_not_accepts {t : Template} {arguments : List String}
    (accepts : t.accepts arguments.length = false) :
    t.bindArguments arguments = .error (.ofScript (t.arityCause arguments.length)) := by
  rw [bindArguments, accepts]
  rfl

theorem Expansion.add_fails (x : Expansion) (b : Binding) :
    FailsOnly Fault.OfArgument (x.add b) := by
  rw [add]
  split
  · exact failsOnly_error ⟨_, _, _, _, _, rfl⟩
  · split <;> exact failsOnly_ok _

theorem Template.expand_fails {t : Template} {arguments : List String}
    (accepts : t.accepts arguments.length = true) :
    FailsOnly Fault.OfArgument (t.expand arguments) := by
  obtain ⟨bound, binds⟩ := bindArguments_of_accepts accepts
  rw [expand, binds]
  exact failsOnly_foldlM Expansion.add_fails t.bindings _

theorem Library.expand_of_get? {library : Library} {name : String} {t : Template}
    (known : Table.get? library name = some t) (arguments : List String) :
    library.expand name arguments = t.expand arguments := by
  rw [expand, find, known]
  rfl

namespace Script

/-- A standard template that takes so many arguments is replaced below the line. -/
structure Overtaken (origin : Library) (lines : List Line) (name : String) (given line : Nat) :
    Prop where
  accepted : ∃ standard, Table.get? origin name = some standard ∧ standard.standard = true ∧
    standard.accepts given = true
  replaced : ∃ header ∈ lines, header.keyword = "raw" ∧ header.operands.head? = some name ∧
    line < header.number

/-- What is known of the template that a statement names. -/
def Answers (origin : Library) (lines : List Line) (name : String) (given line : Nat)
    (t : Template) : Prop :=
  t.accepts given = true ∨ t.standard = false ∧ Overtaken origin lines name given line

theorem operands_of_templateOf {standard : Bool} {header : Line} {body : List Line} {t : Template}
    (read : templateOf standard header body = .ok t) :
    header.operands.head? = some t.name ∧ t.standard = standard := by
  simp only [templateOf] at read
  split at read
  · next name count word words operands =>
    obtain ⟨portCount, _, read⟩ := ok_bind_iff.1 read
    obtain ⟨layout, _, read⟩ := ok_bind_iff.1 read
    obtain ⟨bindings, _, read⟩ := ok_bind_iff.1 read
    obtain ⟨defaults, _, read⟩ := ok_bind_iff.1 read
    cases read
    exact ⟨by rw [operands]; rfl, rfl⟩
  · cases read

theorem nodeOf_ok {library : Library} {line : Line} {statement : Statement}
    (read : nodeOf library line = .ok statement) :
    ∃ name given arguments t, statement = .node name given arguments line.number ∧
      Table.get? library name = some t ∧ t.accepts arguments.length = true := by
  simp only [nodeOf] at read
  split at read
  · next name given arguments _ =>
    split at read
    · cases read
    · next t known =>
      split at read
      · next accepts =>
        cases read
        exact ⟨name, given, arguments, t, rfl, known, accepts⟩
      · cases read
  · cases read

theorem plugOf_ok {line : Line} {statement : Statement} (read : plugOf line = .ok statement) :
    ∃ source target, statement = .plug source target line.number := by
  rw [plugOf.eq_def] at read
  split at read
  · cases read
    exact ⟨_, _, rfl⟩
  · cases read

variable {α : Type} {origin : Library} {all : List Line}

/-- The templates and statements read so far, where `lines` are still to be read. -/
structure Draft.Answered (origin : Library) (all : List Line) (draft : Draft α) (library : Library)
    (lines : List Line) : Prop where
  inherited : ∀ name t, Table.get? library name = some t → t.standard = true →
    Table.get? origin name = some t
  answered : ∀ name given arguments line, .node name given arguments line ∈ draft.statements →
    ∃ t, Table.get? library name = some t ∧ Answers origin all name arguments.length line t
  above : ∀ statement ∈ draft.statements, ∀ next ∈ lines, statement.line < next.number

theorem Draft.answered_start (lines : List Line) :
    (Draft.start : Draft α).Answered origin all origin lines where
  inherited _ _ found _ := found
  answered := nofun
  above := nofun

theorem Draft.Answered.fewer {draft : Draft α} {library : Library} {lines fewer : List Line}
    (answered : draft.Answered origin all library lines) (within : fewer ⊆ lines) :
    draft.Answered origin all library fewer :=
  { answered with above := fun statement member next later =>
      answered.above statement member next (within later) }

theorem Draft.Answered.define {draft : Draft α} {library : Library} {line : Line}
    {rest : List Line} (answered : draft.Answered origin all library (line :: rest))
    (within : line ∈ all) {body : List Line} {t : Template} (keyword : line.keyword = "raw")
    (read : templateOf false line body = .ok t)
    (free : ∀ existing, Table.get? library t.name = some existing → existing.standard = true) :
    draft.Answered origin all (Table.insert library t.name t) rest := by
  obtain ⟨named, own⟩ := operands_of_templateOf read
  constructor
  · intro name other found standard
    rw [Table.get?_insert] at found
    split at found
    · obtain rfl := Option.some.inj found
      rw [own] at standard
      cases standard
    · exact answered.inherited name other found standard
  · intro name given arguments number member
    obtain ⟨existing, known, answers⟩ := answered.answered name given arguments number member
    rw [Table.get?_insert]
    split
    -- The template of the statement is replaced, so that it is a standard one and inherited.
    · next same =>
      subst same
      have standard := free existing known
      refine ⟨t, rfl, .inr ⟨own, ?_⟩⟩
      rcases answers with accepts | ⟨replaced, -⟩
      · refine ⟨⟨existing, answered.inherited _ _ known standard, standard, accepts⟩, ?_⟩
        exact ⟨line, within, keyword, named, answered.above _ member line List.mem_cons_self⟩
      · rw [replaced] at standard
        cases standard
    · exact ⟨existing, known, answers⟩
  · exact fun statement member next later =>
      answered.above statement member next (List.mem_cons_of_mem line later)

theorem Draft.Answered.state {draft : Draft α} {library : Library} {line : Line}
    {rest : List Line} (answered : draft.Answered origin all library (line :: rest))
    (sorted : ∀ next ∈ rest, line.number < next.number) {statement : Statement}
    (here : statement.line = line.number)
    (known : ∀ name given arguments number, statement = .node name given arguments number →
      ∃ t, Table.get? library name = some t ∧ t.accepts arguments.length = true) :
    Draft.Answered origin all { draft with statements := draft.statements ++ [statement] } library
      rest := by
  refine ⟨answered.inherited, ?_, ?_⟩
  · intro name given arguments number member
    rcases List.mem_append.1 member with before | last
    · exact answered.answered name given arguments number before
    · obtain ⟨t, found, accepts⟩ := known _ _ _ _ (List.mem_singleton.1 last).symm
      exact ⟨t, found, .inl accepts⟩
  · intro other member next later
    rcases List.mem_append.1 member with before | last
    · exact answered.above other before next (List.mem_cons_of_mem line later)
    -- The statement that is read stands above what is still to be read.
    · obtain rfl := List.mem_singleton.1 last
      exact here ▸ sorted next later

variable [Number α]

theorem Draft.Answered.step {draft draft' : Draft α} {line : Line} {rest : List Line}
    {library library' : Library} {taken : Nat}
    (answered : draft.Answered origin all library (line :: rest)) (within : line ∈ all)
    (sorted : ∀ next ∈ rest, line.number < next.number)
    (reads : draft.Reads line rest library draft' taken library') :
    draft'.Answered origin all library' (rest.drop taken) := by
  refine Draft.Answered.fewer ?_ (List.drop_subset taken rest)
  cases reads with
  | template keyword closed read free => exact answered.define within keyword read free
  | node keyword read =>
    obtain ⟨name, given, arguments, t, rfl, known, accepts⟩ := nodeOf_ok read
    refine answered.state sorted rfl ?_
    rintro _ _ _ _ ⟨⟩
    exact ⟨t, known, accepts⟩
  | plug keyword read =>
    obtain ⟨source, target, rfl⟩ := plugOf_ok read
    exact answered.state sorted rfl nofun
  | cue keyword read =>
    have fewer := answered.fewer (List.subset_cons_self line rest)
    exact ⟨fewer.inherited, fewer.answered, fewer.above⟩

theorem Draft.Answered.run {draft draft' : Draft α} {lines : List Line} {library library' : Library}
    (answered : draft.Answered origin all library lines) (within : lines ⊆ all)
    (sorted : lines.Pairwise fun a b => a.number < b.number)
    (returned : (draft.readAll lines).Returns library draft' library') :
    draft'.Answered origin all library' [] := by
  refine (Draft.readAll_preserves (P := fun draft library lines =>
    draft.Answered origin all library lines ∧ lines ⊆ all ∧
      lines.Pairwise fun a b => a.number < b.number) ?_ ⟨answered, within, sorted⟩ returned).1
  rintro draft draft' line rest library library' taken ⟨answered, within, sorted⟩ reads
  obtain ⟨first, others⟩ := List.pairwise_cons.1 sorted
  obtain ⟨here, below⟩ := List.cons_subset.1 within
  refine ⟨answered.step here first reads, ?_, others.sublist (List.drop_sublist taken rest)⟩
  exact List.Subset.trans (List.drop_subset taken rest) below

/-- The template that a statement names is found, and the arguments are as many as it takes, unless
the script replaces a standard template below the statement. -/
theorem statements_expand_unless_overtaken {script : String} {library after : Library}
    {p : Program α} (compiled : (compile script).Returns library p after)
    {name given : String} {arguments : List String} {line : Nat}
    (member : .node name given arguments line ∈ p.statements) :
    ∃ t, Table.get? p.templates name = some t ∧
      ((t.accepts arguments.length = true ∧
          (∃ bound, t.bindArguments arguments = .ok bound) ∧
          FailsOnly Fault.OfArgument (p.templates.expand name arguments)) ∨
        (t.accepts arguments.length = false ∧
          p.templates.expand name arguments = .error (.ofScript (t.arityCause arguments.length)) ∧
          t.standard = false ∧
          Overtaken library (linesOf script) name arguments.length line)) := by
  obtain ⟨draft, read, rfl⟩ := returns_compile_iff.1 compiled
  have answered := (Draft.answered_start (linesOf script)).run (List.Subset.refl _)
    (pairwise_linesOf script) read
  obtain ⟨t, known, answers⟩ := answered.answered name given arguments line member
  have expands := Library.expand_of_get? known arguments
  refine ⟨t, known, ?_⟩
  rw [Draft.program, expands]
  cases accepts : t.accepts arguments.length with
  | true => exact .inl ⟨rfl, t.bindArguments_of_accepts accepts, t.expand_fails accepts⟩
  | false =>
    obtain accepted | ⟨own, overtaken⟩ := answers
    · rw [accepts] at accepted
      cases accepted
    · refine .inr ⟨rfl, ?_, own, overtaken⟩
      rw [Template.expand, Template.bindArguments_of_not_accepts accepts]
      rfl

end Script

namespace Sample

def voiced : String := "raw w 0 fakesrc name=s\ns freq int $1=440\nwar\nnew w a 880\n"

/-- The first of the standard templates. -/
def shelf : Library :=
  match Script.definitions .empty (Script.linesOf Script.mp3Input) with
  | .ok library => library
  | .error _ => .empty

/-- The standard template that the first line names is replaced behind it. -/
def overtaken : String := "new mp3input a clip.mp3\nraw mp3input 0 fakesrc\nwar\n"

end Sample

set_option maxRecDepth 20000 in
theorem Script.statements_expand_voiced :
    ∃ (p : Program ℚ) (after : Library),
      (compile Sample.voiced).Returns .empty p after ∧ .node "w" "a" ["880"] 4 ∈ p.statements ∧
      ∃ t, Table.get? p.templates "w" = some t ∧
        ((t.accepts 1 = true ∧ (∃ bound, t.bindArguments ["880"] = .ok bound) ∧
            FailsOnly Fault.OfArgument (p.templates.expand "w" ["880"])) ∨
          (t.accepts 1 = false ∧
            p.templates.expand "w" ["880"] = .error (.ofScript (t.arityCause 1)) ∧
            t.standard = false ∧ Overtaken .empty (linesOf Sample.voiced) "w" 1 4)) := by
  have checks : ((compile Sample.voiced : Act Library (Program ℚ)).eval .empty).1.isOk = true ∧
      ∀ p ∈ ((compile Sample.voiced : Act Library (Program ℚ)).eval .empty).1.toOption,
        .node "w" "a" ["880"] 4 ∈ p.statements := by
    decide +kernel
  obtain ⟨p, compiled⟩ := Act.exists_returns_of_isOk checks.1
  have member := checks.2 p (by rw [compiled]; rfl)
  exact ⟨p, _, compiled, member, statements_expand_unless_overtaken compiled member⟩

set_option maxRecDepth 20000 in
/-- The script compiles, and its statement has an argument too many for the template that the program
has in the end. -/
theorem Script.not_statements_expand_overtaken :
    ∃ (p : Program ℚ) (after : Library),
      (compile Sample.overtaken).Returns Sample.shelf p after ∧
      .node "mp3input" "a" ["clip.mp3"] 1 ∈ p.statements ∧
      p.templates.expand "mp3input" ["clip.mp3"] = .error (.ofScript (.arity "mp3input" 0 0 1)) := by
  have checks :
      ((compile Sample.overtaken : Act Library (Program ℚ)).eval Sample.shelf).1.isOk = true ∧
      ∀ p ∈ ((compile Sample.overtaken : Act Library (Program ℚ)).eval Sample.shelf).1.toOption,
        .node "mp3input" "a" ["clip.mp3"] 1 ∈ p.statements ∧
        (match p.templates.expand "mp3input" ["clip.mp3"] with
          | .error fault => decide (fault = .ofScript (.arity "mp3input" 0 0 1))
          | .ok _ => false) = true := by
    decide +kernel
  obtain ⟨p, compiled⟩ := Act.exists_returns_of_isOk checks.1
  obtain ⟨member, failed⟩ := checks.2 p (by rw [compiled]; rfl)
  refine ⟨p, _, compiled, member, ?_⟩
  split at failed
  · next found => rw [found, of_decide_eq_true failed]
  · cases failed

end ShowControl
