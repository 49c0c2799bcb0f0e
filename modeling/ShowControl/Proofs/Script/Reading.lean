import ShowControl.Proofs.Act
import ShowControl.Script.Compile

/-! What it takes to read a construct.

A construct is one of four. It ends within the lines that it is given, and what stands below these
makes no difference to it. -/

set_option autoImplicit false
namespace ShowControl.Script

/-! Constructs that have been read -/

/-- A remark in the log makes no difference to what comes of a step. -/
theorem eval_remark {σ β : Type} {c : Prop} [Decidable c] (level : Level) (text : String)
    (x : Act σ β) (s : σ) :
    (if c then Act.log level text >>= fun _ => x else x).eval s = x.eval s := by
  split
  · rw [Act.eval_bind, Act.eval_log]
  · rfl

theorem eval_define (line : Line) (rest : List Line) (library : Library) :
    (define line rest).eval library = (do
      let block ← Act.ofExcept (templateBlock line rest)
      let template ← Act.ofExcept (templateOf false line block.body)
      register line template
      return block.size : Act Library Nat).eval library := by
  simp only [define, Act.info, eval_remark, Act.eval_bind (Act.ofExcept _)]

theorem returns_register_iff {line : Line} {template : Template} {library library' : Library} :
    (register line template).Returns library () library' ↔
      (∀ existing, Table.get? library template.name = some existing → existing.standard = true) ∧
        Table.insert library template.name template = library' := by
  simp only [register, Act.Returns, Act.eval_bind, Act.eval_get]
  cases Table.get? library template.name with
  | none => simp [Act.eval_bind]
  | some existing => cases standard : existing.standard <;> simp [Act.eval_bind, standard]

theorem returns_define_iff {line : Line} {rest : List Line} {library library' : Library}
    {taken : Nat} :
    (define line rest).Returns library taken library' ↔
      ∃ block template, templateBlock line rest = .ok block ∧
        templateOf false line block.body = .ok template ∧
        (register line template).Returns library () library' ∧ block.size = taken := by
  rw [Act.Returns, eval_define]
  change Act.Returns _ _ _ _ ↔ _
  simp only [Act.returns_bind, Act.returns_ofExcept, Act.returns_pure]
  constructor
  · rintro ⟨block, _, ⟨closed, rfl⟩, template, _, ⟨read, rfl⟩, _, _, registered, same, rfl⟩
    exact ⟨block, template, closed, read, registered, same⟩
  · rintro ⟨block, template, closed, read, registered, same⟩
    exact ⟨block, library, ⟨closed, rfl⟩, template, library, ⟨read, rfl⟩, (), library', registered,
      same, rfl⟩

variable {α : Type} [Number α]

/-- A construct that has been read, from a draft and a library to those behind it. `taken` lines are
taken up besides the first one. -/
inductive Draft.Reads (draft : Draft α) (line : Line) (rest : List Line) (library : Library) :
    Draft α → Nat → Library → Prop where
  | template {block : Block} {template : Template} (keyword : line.keyword = "raw")
    (closed : templateBlock line rest = .ok block)
    (read : templateOf false line block.body = .ok template)
    (free : ∀ existing, Table.get? library template.name = some existing →
      existing.standard = true) :
    Reads draft line rest library draft block.size
      (Table.insert library template.name template)
  | node {statement : Statement} (keyword : line.keyword = "new")
    (read : nodeOf library line = .ok statement) :
    Reads draft line rest library
      { draft with statements := draft.statements ++ [statement] } 0 library
  | plug {statement : Statement} (keyword : line.keyword = "plug")
    (read : plugOf line = .ok statement) :
    Reads draft line rest library
      { draft with statements := draft.statements ++ [statement] } 0 library
  | cue {cue : Cue α} {taken : Nat} (keyword : line.keyword = "on")
    (read : cueOf draft.cues.length line rest = .ok (cue, taken)) :
    Reads draft line rest library { draft with cues := draft.cues ++ [cue] } taken library

namespace Draft

/-! One equation for each keyword -/

section Keyword

variable (draft : Draft α) {line : Line} (rest : List Line)

theorem read_template (keyword : line.keyword = "raw") :
    draft.read line rest = do
      let taken ← define line rest
      return (draft, taken) := by
  simp only [read, keyword, reduceIte]

theorem read_node (keyword : line.keyword = "new") :
    draft.read line rest = do
      let statement ← Act.ofExcept (nodeOf (← get) line)
      return ({ draft with statements := draft.statements ++ [statement] }, 0) := by
  simp only [read, keyword, String.reduceEq, reduceIte]

theorem read_plug (keyword : line.keyword = "plug") :
    draft.read line rest = do
      let statement ← Act.ofExcept (plugOf line)
      return ({ draft with statements := draft.statements ++ [statement] }, 0) := by
  simp only [read, keyword, String.reduceEq, reduceIte]

theorem eval_read_cue (keyword : line.keyword = "on") (library : Library) :
    (draft.read line rest).eval library = (do
      let found ← Act.ofExcept (cueOf draft.cues.length line rest)
      return ({ draft with cues := draft.cues ++ [found.1] }, found.2)).eval library := by
  simp only [read, keyword, String.reduceEq, reduceIte, Act.warn, eval_remark,
    Act.eval_bind (Act.ofExcept _)]

/-- Why no construct starts with a word. -/
def misplaced (keyword : String) : ScriptCause :=
  if keyword = "war" || keyword = "parw" then .closerWithoutOpener keyword
  else if keyword = "act" || keyword = "terminate" || keyword = "wrap" then .outsideTrigger keyword
  else .unknownKeyword keyword

theorem read_misplaced (other : line.keyword ∉ ["raw", "new", "plug", "on"]) :
    draft.read line rest = throw (line.fault (misplaced line.keyword)) := by
  simp only [List.mem_cons, List.not_mem_nil, or_false, not_or] at other
  obtain ⟨raw, new, plug, on⟩ := other
  simp only [read, if_neg raw, if_neg new, if_neg plug, if_neg on, misplaced]
  split
  · rfl
  · split <;> rfl

end Keyword

theorem returns_read_iff {draft draft' : Draft α} {line : Line} {rest : List Line}
    {library library' : Library} {taken : Nat} :
    (draft.read line rest).Returns library (draft', taken) library' ↔
      draft.Reads line rest library draft' taken library' := by
  constructor
  · intro returned
    by_cases known : line.keyword ∈ ["raw", "new", "plug", "on"]
    · simp only [List.mem_cons, List.not_mem_nil, or_false] at known
      rcases known with keyword | keyword | keyword | keyword
      · rw [read_template draft rest keyword] at returned
        simp only [Act.returns_bind, Act.returns_pure, Prod.mk.injEq] at returned
        obtain ⟨_, _, defined, ⟨rfl, rfl⟩, rfl⟩ := returned
        obtain ⟨block, template, closed, read, registered, rfl⟩ := returns_define_iff.1 defined
        obtain ⟨free, rfl⟩ := returns_register_iff.1 registered
        exact .template keyword closed read free
      · rw [read_node draft rest keyword] at returned
        simp only [Act.returns_bind, Act.returns_get, Act.returns_ofExcept, Act.returns_pure,
          Prod.mk.injEq] at returned
        obtain ⟨_, _, ⟨rfl, rfl⟩, _, _, ⟨read, rfl⟩, ⟨rfl, rfl⟩, rfl⟩ := returned
        exact .node keyword read
      · rw [read_plug draft rest keyword] at returned
        simp only [Act.returns_bind, Act.returns_ofExcept, Act.returns_pure,
          Prod.mk.injEq] at returned
        obtain ⟨_, _, ⟨read, rfl⟩, ⟨rfl, rfl⟩, rfl⟩ := returned
        exact .plug keyword read
      · rw [Act.Returns, eval_read_cue draft rest keyword] at returned
        obtain ⟨⟨cue, n⟩, _, found, returned⟩ := (Act.returns_bind ..).1 returned
        obtain ⟨read, rfl⟩ := (Act.returns_ofExcept ..).1 found
        cases returned
        exact .cue keyword read
    · rw [read_misplaced draft rest known] at returned
      exact absurd returned (Act.returns_throw _ _ _ _)
  · intro reads
    cases reads with
    | template keyword closed read free =>
      rw [read_template draft rest keyword]
      refine (Act.returns_bind ..).2 ⟨_, _, returns_define_iff.2 ?_, rfl⟩
      exact ⟨_, _, closed, read, returns_register_iff.2 ⟨free, rfl⟩, rfl⟩
    | node keyword read =>
      rw [read_node draft rest keyword]
      refine (Act.returns_bind ..).2 ⟨library, library, rfl, ?_⟩
      exact (Act.returns_bind ..).2 ⟨_, library, (Act.returns_ofExcept ..).2 ⟨read, rfl⟩, rfl⟩
    | plug keyword read =>
      rw [read_plug draft rest keyword]
      exact (Act.returns_bind ..).2 ⟨_, library, (Act.returns_ofExcept ..).2 ⟨read, rfl⟩, rfl⟩
    | cue keyword read =>
      rw [Act.Returns, eval_read_cue draft rest keyword]
      exact (Act.returns_bind ..).2 ⟨_, library, (Act.returns_ofExcept ..).2 ⟨read, rfl⟩, rfl⟩

/-- What each construct keeps, of the draft, the library and the lines that are left, holds in the
end. -/
theorem readAll_preserves {P : Draft α → Library → List Line → Prop}
    (step : ∀ {draft draft' : Draft α} {line : Line} {rest : List Line} {library library' : Library}
      {taken : Nat}, P draft library (line :: rest) →
        draft.Reads line rest library draft' taken library' → P draft' library' (rest.drop taken))
    {draft draft' : Draft α} {lines : List Line} {library library' : Library}
    (first : P draft library lines)
    (returned : (draft.readAll lines).Returns library draft' library') : P draft' library' [] := by
  induction draft, lines using readAll.induct generalizing library with
  | case1 draft =>
    rw [readAll] at returned
    obtain ⟨rfl, rfl⟩ := (Act.returns_pure ..).1 returned
    exact first
  | case2 draft line rest ih =>
    rw [readAll] at returned
    obtain ⟨⟨next, taken⟩, between, read, returned⟩ := (Act.returns_bind ..).1 returned
    exact ih next taken (step first (returns_read_iff.1 read)) returned

end Draft

/-! Whole scripts -/

/-- The program of a draft, with the templates known behind it. -/
def Draft.program (draft : Draft α) (library : Library) : Program α :=
  ⟨library, draft.statements, draft.cues⟩

theorem eval_compile (script : String) (library : Library) :
    (compile script : Act Library (Program α)).eval library =
      match ((Draft.start : Draft α).readAll (linesOf script)).eval library with
      | (.ok draft, after) => (.ok (draft.program after), after)
      | (.error fault, after) => (.error fault, after) := by
  rw [compile, Act.eval_bind]
  rcases ((Draft.start : Draft α).readAll (linesOf script)).eval library with ⟨_ | draft, after⟩
    <;> rfl

theorem returns_compile_iff {script : String} {p : Program α} {library after : Library} :
    (compile script).Returns library p after ↔
      ∃ draft, ((Draft.start : Draft α).readAll (linesOf script)).Returns library draft after ∧
        draft.program after = p := by
  rw [Act.Returns, eval_compile]
  simp only [Act.Returns]
  rcases ((Draft.start : Draft α).readAll (linesOf script)).eval library with ⟨_ | draft, after⟩
  · simp
  · simp only [Prod.mk.injEq, Except.ok.injEq]
    constructor
    · rintro ⟨rfl, rfl⟩
      exact ⟨draft, ⟨rfl, rfl⟩, rfl⟩
    · rintro ⟨_, ⟨rfl, rfl⟩, rfl⟩
      exact ⟨rfl, rfl⟩

/-! Further lines below -/

/-- A block that is closed ends with its closer. -/
theorem Block.take_append {belongs : Line → Bool} {lines : List Line}
    (closed : (Block.take belongs lines).closer ≠ none) (more : List Line) :
    Block.take belongs (lines ++ more) = Block.take belongs lines ∧
      (Block.take belongs lines).size ≤ lines.length := by
  obtain ⟨closer, left, split⟩ : ∃ closer left, lines.dropWhile belongs = closer :: left := by
    refine List.exists_cons_of_ne_nil fun none => closed ?_
    rw [take, none, List.head?_nil]
  have length := congrArg List.length (List.takeWhile_append_dropWhile (p := belongs) (l := lines))
  rw [List.length_append, split, List.length_cons] at length
  constructor
  · have inside : (lines.takeWhile belongs).length ≠ lines.length := by omega
    simp only [take, List.takeWhile_append, List.dropWhile_append, if_neg inside, split,
      List.isEmpty_cons, Bool.false_eq_true, if_false, List.cons_append, List.head?_cons]
  · show (lines.takeWhile belongs).length + 1 ≤ lines.length
    omega

theorem templateBlock_append {header : Line} {rest : List Line} {block : Block}
    (closed : templateBlock header rest = .ok block) (more : List Line) :
    templateBlock header (rest ++ more) = .ok block ∧ block.size ≤ rest.length := by
  simp only [templateBlock] at closed ⊢
  split at closed
  · cases closed
  next closer found =>
  obtain ⟨same, size⟩ := Block.take_append (found ▸ Option.some_ne_none closer) more
  rw [same, found]
  refine ⟨closed, ?_⟩
  split at closed
  · cases closed
    exact size
  · cases closed

section

variable {α : Type} [Number α]

theorem closed_of_wrapActions {opener : Line} {block : Block} {actions : List (Action α)}
    (read : wrapActions opener block = .ok actions) : block.closer ≠ none := by
  intro opened
  obtain ⟨actions, inside, read⟩ := ok_bind_iff.1 read
  rw [opened] at read
  cases read

theorem groupOf_append {line : Line} {offset : Nat} {rest : List Line} {group : ActionGroup α}
    {taken : Nat} (read : groupOf line offset rest = .ok (group, taken)) (more : List Line) :
    groupOf line offset (rest ++ more) = .ok (group, taken) ∧ taken ≤ rest.length := by
  simp only [groupOf] at read ⊢
  split at read
  · next wrap =>
    obtain ⟨actions, inside, read⟩ := ok_bind_iff.1 read
    cases read
    obtain ⟨same, size⟩ := Block.take_append (closed_of_wrapActions inside) more
    rw [same]
    exact ⟨ok_bind_iff.2 ⟨actions, inside, rfl⟩, size⟩
  · obtain ⟨action, inline, read⟩ := ok_bind_iff.1 read
    cases read
    exact ⟨ok_bind_iff.2 ⟨action, inline, rfl⟩, Nat.zero_le _⟩
  · cases rest with
    | nil => cases read
    | cons next below =>
      refine ⟨read, ?_⟩
      obtain ⟨action, following, read⟩ := ok_bind_iff.1 read
      cases read
      exact Nat.succ_le_succ (Nat.zero_le _)

theorem cueOf_append {order : Nat} {line : Line} {rest : List Line} {cue : Cue α} {taken : Nat}
    (read : cueOf order line rest = .ok (cue, taken)) (more : List Line) :
    cueOf order line (rest ++ more) = .ok (cue, taken) ∧ taken ≤ rest.length := by
  obtain ⟨⟨trigger, offset⟩, found, read⟩ := ok_bind_iff.1 read
  obtain ⟨⟨group, n⟩, grouped, read⟩ := ok_bind_iff.1 read
  cases read
  obtain ⟨same, size⟩ := groupOf_append grouped more
  exact ⟨ok_bind_iff.2 ⟨_, found, ok_bind_iff.2 ⟨_, same, rfl⟩⟩, size⟩

theorem Draft.Reads.append {draft draft' : Draft α} {line : Line} {rest : List Line}
    {library library' : Library} {taken : Nat}
    (reads : draft.Reads line rest library draft' taken library') (more : List Line) :
    draft.Reads line (rest ++ more) library draft' taken library' ∧ taken ≤ rest.length := by
  cases reads with
  | template keyword closed read free =>
    obtain ⟨closed, size⟩ := templateBlock_append closed more
    exact ⟨.template keyword closed read free, size⟩
  | node keyword read => exact ⟨.node keyword read, Nat.zero_le _⟩
  | plug keyword read => exact ⟨.plug keyword read, Nat.zero_le _⟩
  | cue keyword read =>
    obtain ⟨read, size⟩ := cueOf_append read more
    exact ⟨.cue keyword read, size⟩

/-- Lines that have been read to their end are read before those below them. -/
theorem Draft.eval_readAll_append {draft draft' : Draft α} {lines : List Line}
    {library library' : Library} (returned : (draft.readAll lines).Returns library draft' library')
    (more : List Line) :
    (draft.readAll (lines ++ more)).eval library = (draft'.readAll more).eval library' := by
  induction draft, lines using Draft.readAll.induct generalizing library with
  | case1 draft =>
    rw [readAll] at returned
    obtain ⟨rfl, rfl⟩ := (Act.returns_pure ..).1 returned
    rfl
  | case2 draft line rest ih =>
    rw [readAll] at returned
    obtain ⟨⟨next, taken⟩, between, read, returned⟩ := (Act.returns_bind ..).1 returned
    obtain ⟨extended, size⟩ := (returns_read_iff.1 read).append more
    have read : (draft.read line (rest ++ more)).eval library = (.ok (next, taken), between) :=
      returns_read_iff.2 extended
    rw [List.cons_append, readAll, Act.eval_bind, read]
    -- The construct takes up no more than the lines above, so that those below are left whole.
    have below := ih next taken returned
    rw [← List.drop_append_of_le_length size] at below
    exact below

end

end ShowControl.Script
