import ShowControl.Proofs.Number.Exact
import ShowControl.Proofs.Script.Compiled
import ShowControl.Proofs.Script.Displacement

/-! Scripts that are put together from two.

Compiling the whole is compiling the upper script and then the lower one with the templates that are
known by then. Everything that comes of the lower script stands below everything of the upper one. -/

set_option autoImplicit false
namespace ShowControl

variable {α : Type}

/-- The program of a script of `n` lines, and that of the script below it. The templates known below
are those of both. -/
def Program.followedBy (p : Program α) (n : Nat) (q : Program α) : Program α :=
  ⟨q.templates, p.statements ++ q.statements.map (Statement.below n),
    p.cues ++ q.cues.map (Cue.below n p.cues.length)⟩

namespace Script

/-- Two steps that change the state alike and have displaced answers. -/
def Displaces {σ β γ : Type} (n : Nat) (f : β → γ) (x : Act σ β) (x' : Act σ γ) : Prop :=
  ∀ s, Displaced n f (x.eval s).1 (x'.eval s).1 ∧ (x'.eval s).2 = (x.eval s).2

section Displaces

variable {σ β β' γ γ' : Type} {n : Nat} {f : β → β'} {g : γ → γ'}

theorem displaces_pure (b : β) : Displaces n f (pure b : Act σ β) (pure (f b)) :=
  fun _ => ⟨.ok b, rfl⟩

theorem displaces_ofExcept {x : Except Fault β} {x' : Except Fault β'} (displaced : Displaced n f x x') :
    Displaces n f (Act.ofExcept x : Act σ β) (Act.ofExcept x') := fun _ => ⟨displaced, rfl⟩

theorem displaces_get : Displaces n id (MonadState.get : Act σ σ) MonadState.get :=
  fun s => ⟨.ok s, rfl⟩

theorem Displaces.bind {x : Act σ β} {x' : Act σ β'} {k : β → Act σ γ} {k' : β' → Act σ γ'}
    (first : Displaces n f x x') (second : ∀ b, Displaces n g (k b) (k' (f b))) :
    Displaces n g (x >>= k) (x' >>= k') := by
  intro s
  obtain ⟨displaced, same⟩ := first s
  rw [Act.eval_bind, Act.eval_bind]
  generalize x.eval s = outcome at displaced same
  generalize x'.eval s = outcome' at displaced same
  obtain ⟨answer, t⟩ := outcome
  obtain ⟨answer', t'⟩ := outcome'
  obtain rfl : t' = t := same
  cases displaced with
  | ok b => exact second b t'
  | error fault => exact ⟨.error fault, rfl⟩

theorem Displaces.of_eval {x y : Act σ β} {x' y' : Act σ β'} (displaces : Displaces n f x x')
    (left : ∀ s, y.eval s = x.eval s) (right : ∀ s, y'.eval s = x'.eval s) :
    Displaces n f y y' := by
  intro s
  rw [left, right]
  exact displaces s

end Displaces

variable {n : Nat}

theorem displaces_register (line : Line) (template : Template) :
    Displaces n id (register line template) (register (line.below n) template) := by
  have enter : Displaces n id
      (modify fun library => Table.insert library template.name template : Act Library PUnit)
      (modify fun library => Table.insert library template.name template) :=
    fun _ => ⟨.ok _, rfl⟩
  refine displaces_get.bind fun library => ?_
  simp only [id]
  cases Table.get? library template.name with
  | none => exact Displaces.bind (f := id) (displaces_pure ()) fun _ => enter
  | some existing =>
    simp only
    split
    · exact Displaces.bind (f := id) (fun _ => ⟨.ok _, rfl⟩) fun _ => enter
    · exact fun _ => ⟨displaced_fault line _, rfl⟩

theorem displaces_define (line : Line) (rest : List Line) :
    Displaces n id (define line rest) (define (line.below n) (rest.map (Line.below n))) := by
  refine Displaces.of_eval ?_ (eval_define line rest) (eval_define _ _)
  refine (displaces_ofExcept (displaced_templateBlock line rest)).bind fun block => ?_
  refine (displaces_ofExcept (displaced_templateOf false line block.body)).bind fun template => ?_
  refine (displaces_register line template).bind fun _ => ?_
  rw [show (block.below n).size = block.size by simp [Block.size, Block.below]]
  exact displaces_pure block.size

/-- What has been read of two scripts, of which the upper one has `n` lines. -/
def Draft.onto (upper : Draft α) (n : Nat) (lower : Draft α) : Draft α :=
  ⟨upper.statements ++ lower.statements.map (Statement.below n),
    upper.cues ++ lower.cues.map (Cue.below n upper.cues.length)⟩

theorem Draft.onto_start (upper : Draft α) (n : Nat) : upper.onto n .start = upper := by
  simp [onto, start]

theorem Draft.onto_statement (upper lower : Draft α) (n : Nat) (statement : Statement) :
    upper.onto n { lower with statements := lower.statements ++ [statement] } =
      { upper.onto n lower with
        statements := (upper.onto n lower).statements ++ [statement.below n] } := by
  simp [onto]

theorem Draft.onto_cue (upper lower : Draft α) (n : Nat) (cue : Cue α) :
    upper.onto n { lower with cues := lower.cues ++ [cue] } =
      { upper.onto n lower with
        cues := (upper.onto n lower).cues ++ [cue.below n upper.cues.length] } := by
  simp [onto]

variable [Number α]

theorem Draft.displaces_read (upper lower : Draft α) (line : Line) (rest : List Line) :
    Displaces n (Prod.map (upper.onto n) id) (lower.read line rest)
      ((upper.onto n lower).read (line.below n) (rest.map (Line.below n))) := by
  have same : (line.below n).keyword = line.keyword := rfl
  by_cases known : line.keyword ∈ ["raw", "new", "plug", "on"]
  · simp only [List.mem_cons, List.not_mem_nil, or_false] at known
    rcases known with keyword | keyword | keyword | keyword
    · rw [read_template lower rest keyword, read_template _ _ (same.trans keyword)]
      exact (displaces_define line rest).bind fun taken => displaces_pure (lower, taken)
    · rw [read_node lower rest keyword, read_node _ _ (same.trans keyword)]
      refine displaces_get.bind fun library => ?_
      refine (displaces_ofExcept (displaced_nodeOf library line)).bind fun statement => ?_
      rw [← onto_statement]
      exact displaces_pure ({ lower with statements := lower.statements ++ [statement] }, 0)
    · rw [read_plug lower rest keyword, read_plug _ _ (same.trans keyword)]
      refine (displaces_ofExcept (displaced_plugOf line)).bind fun statement => ?_
      rw [← onto_statement]
      exact displaces_pure ({ lower with statements := lower.statements ++ [statement] }, 0)
    · refine Displaces.of_eval ?_ (eval_read_cue lower rest keyword)
        (eval_read_cue _ _ (same.trans keyword))
      -- The cues of the upper script are counted before the one that is read.
      have order : (upper.onto n lower).cues.length = lower.cues.length + upper.cues.length := by
        simp [onto, Nat.add_comm]
      rw [order]
      refine (displaces_ofExcept (displaced_cueOf _ _ line rest)).bind fun found => ?_
      obtain ⟨cue, taken⟩ := found
      simp only [Prod.map_apply, id]
      rw [← onto_cue]
      exact displaces_pure ({ lower with cues := lower.cues ++ [cue] }, taken)
  · rw [read_misplaced lower rest known, read_misplaced _ _ (same.symm ▸ known)]
    exact fun _ => ⟨displaced_fault line _, rfl⟩

theorem Draft.displaces_readAll (upper lower : Draft α) (lines : List Line) :
    Displaces n (upper.onto n) (lower.readAll lines)
      ((upper.onto n lower).readAll (lines.map (Line.below n))) := by
  induction lower, lines using Draft.readAll.induct with
  | case1 lower =>
    rw [List.map_nil, readAll, readAll]
    exact displaces_pure lower
  | case2 lower line rest ih =>
    rw [List.map_cons, readAll, readAll]
    refine (displaces_read upper lower line rest).bind fun found => ?_
    obtain ⟨next, taken⟩ := found
    simp only [Prod.map_apply, id, ← List.map_drop]
    exact ih next taken

/-! Whole scripts -/

/-- Below a script that compiles, another one compiles just as it does on its own with the templates
known by then, and fails just as it does on its own. -/
theorem compile_append {a : String} (ends : a.toList.getLast? = some '\n')
    {library between : Library} {p : Program α} (compiled : (compile a).Returns library p between)
    (b : String) :
    ((∃ q after, (compile b : Act Library (Program α)).Returns between q after) ↔
      ∃ r after, (compile (a ++ b) : Act Library (Program α)).Returns library r after) ∧
    (∀ q after, (compile b).Returns between q after →
      (compile (a ++ b)).Returns library (p.followedBy (Text.lines a).length q) after) ∧
    ∀ fault after, (compile b : Act Library (Program α)).eval between = (.error fault, after) →
      fault.Among (linesOf b) ∧
      (compile (a ++ b) : Act Library (Program α)).eval library =
        (.error (fault.below (Text.lines a).length), after) := by
  obtain ⟨upper, read, rfl⟩ := returns_compile_iff.1 compiled
  have displaces := Draft.displaces_readAll (n := (Text.lines a).length) upper .start (linesOf b)
  rw [Draft.onto_start] at displaces
  obtain ⟨displaced, same⟩ := displaces between
  -- The whole script has been read up to the lower one, and all three parts are about the rest.
  have whole := eval_compile (α := α) (a ++ b) library
  rw [linesOf_append ends, Draft.eval_readAll_append read] at whole
  have part := eval_compile (α := α) b between
  have found := compile_fails (α := α) b between
  simp only [Act.Returns]
  rw [whole, part]
  rw [part] at found
  generalize ((Draft.start : Draft α).readAll (linesOf b)).eval between = lower at *
  generalize (upper.readAll _).eval between = both at *
  obtain ⟨answer, after⟩ := lower
  obtain ⟨answer', after'⟩ := both
  obtain rfl : after' = after := same
  cases displaced with
  | ok lower =>
    refine ⟨iff_of_true ⟨_, _, rfl⟩ ⟨_, _, rfl⟩, ?_, ?_⟩
    · rintro q after ⟨⟩
      rfl
    · rintro fault after ⟨⟩
  | error fault =>
    refine ⟨iff_of_false ?_ ?_, ?_, ?_⟩
    · rintro ⟨q, after, ⟨⟩⟩
    · rintro ⟨r, after, ⟨⟩⟩
    · rintro q after ⟨⟩
    · rintro fault' after ⟨⟩
      exact ⟨found _ rfl, rfl⟩

end Script

namespace Sample

def tones : String :=
  "raw w 0 fakesrc name=s\ns freq int $1=440\nwar\n\nnew w a\non pre wrap\nact a play start\nparw\n"

def moreTones : String := "// b\nnew w b 880\non progress a 2\nact b play start\n"

def endlessTones : String := "new w b\non pre wrap\n"

end Sample

set_option maxRecDepth 20000 in
/-- A script with a template and a block, above one that compiles and above one that does not. -/
theorem Script.compile_append_tones :
    Sample.tones.toList.getLast? = some '\n' ∧ (Text.lines Sample.tones).length = 8 ∧
    ∃ (p : Program ℚ) (between : Library),
      (compile Sample.tones).Returns .empty p between ∧
      (∃ q after, (compile Sample.moreTones).Returns between q after ∧
        (compile (Sample.tones ++ Sample.moreTones)).Returns .empty (p.followedBy 8 q) after) ∧
      ∃ fault after,
        (compile Sample.endlessTones : Act Library (Program ℚ)).eval between = (.error fault, after) ∧
        (compile (Sample.tones ++ Sample.endlessTones) : Act Library (Program ℚ)).eval .empty =
          (.error (fault.below 8), after) := by
  have checks : (decide (Sample.tones.toList.getLast? = some '\n' ∧
        (Text.lines Sample.tones).length = 8) &&
      ((compile Sample.tones : Act Library (Program ℚ)).eval .empty).1.isOk &&
      ((compile Sample.moreTones : Act Library (Program ℚ)).eval
        ((compile Sample.tones : Act Library (Program ℚ)).eval .empty).2).1.isOk &&
      !((compile Sample.endlessTones : Act Library (Program ℚ)).eval
        ((compile Sample.tones : Act Library (Program ℚ)).eval .empty).2).1.isOk) = true := by
    decide +kernel
  simp only [Bool.and_eq_true, Bool.not_eq_true', decide_eq_true_eq] at checks
  obtain ⟨⟨⟨⟨ends, lines⟩, first⟩, second⟩, third⟩ := checks
  obtain ⟨p, compiled⟩ := Act.exists_returns_of_isOk first
  generalize ((compile Sample.tones : Act Library (Program ℚ)).eval .empty).2 = between at *
  obtain ⟨q, followed⟩ := Act.exists_returns_of_isOk second
  obtain ⟨fault, after, failed⟩ := Act.exists_error_of_not_isOk third
  refine ⟨ends, lines, p, between, compiled, ⟨q, _, followed, ?_⟩, fault, after, failed, ?_⟩
  · have law := (compile_append ends compiled Sample.moreTones).2.1 q _ followed
    rwa [lines] at law
  · have law := (compile_append ends compiled Sample.endlessTones).2.2 fault after failed
    rw [lines] at law
    exact law.2

end ShowControl
