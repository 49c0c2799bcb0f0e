import Mathlib.Data.List.TakeWhile
import ShowControl.Proofs.Number.Exact
import ShowControl.Proofs.Script.Lines
import ShowControl.Proofs.Script.Position

/-! Where the reading of a script breaks off.

Constructs are read one by one from above. A construct takes up lines until it is read or a fault
cuts it short, and it has the same outcome whatever stands below these lines. A fault is found on
one of them. -/

set_option autoImplicit false
namespace ShowControl

namespace Script

/-! Blocks -/

def Block.lines (block : Block) : List Line := block.body ++ block.closer.toList

section Block

variable {belongs : Line → Bool}

theorem Block.take_of_all {lines : List Line} (all : ∀ line ∈ lines, belongs line = true) :
    Block.take belongs lines = ⟨lines, none⟩ := by
  rw [take, List.takeWhile_eq_self_iff.2 all, List.dropWhile_eq_nil_iff.2 all]
  rfl

theorem Block.take_of_closer {body : List Line} {closer : Line}
    (all : ∀ line ∈ body, belongs line = true) (closes : belongs closer = false)
    (back : List Line) : Block.take belongs (body ++ closer :: back) = ⟨body, some closer⟩ := by
  rw [take, List.takeWhile_append_of_pos all, List.dropWhile_append_of_pos all,
    List.takeWhile_cons_of_neg (by simp [closes]), List.dropWhile_cons_of_neg (by simp [closes]),
    List.append_nil]
  rfl

theorem Block.take_cases (belongs : Line → Bool) (lines : List Line) :
    (∀ line ∈ lines, belongs line = true) ∨
      ∃ body closer back, lines = body ++ closer :: back ∧ (∀ line ∈ body, belongs line = true) ∧
        belongs closer = false := by
  cases split : lines.dropWhile belongs with
  | nil => exact .inl (List.dropWhile_eq_nil_iff.1 split)
  | cons closer back =>
    refine .inr ⟨lines.takeWhile belongs, closer, back, ?_, fun _ => List.mem_takeWhile_imp, ?_⟩
    · rw [← split, List.takeWhile_append_dropWhile]
    · have outside := List.head?_dropWhile_not belongs lines
      rw [split] at outside
      exact outside

theorem Block.lines_of_closer {body : List Line} {closer : Line}
    (all : ∀ line ∈ body, belongs line = true) (closes : belongs closer = false)
    (back : List Line) :
    (Block.take belongs (body ++ closer :: back)).lines = body ++ [closer] := by
  rw [take_of_closer all closes]
  rfl

theorem Block.lines_of_all {lines : List Line} (all : ∀ line ∈ lines, belongs line = true) :
    (Block.take belongs lines).lines = lines := by
  rw [take_of_all all]
  exact List.append_nil lines

theorem Block.lines_prefix (belongs : Line → Bool) (lines : List Line) :
    (Block.take belongs lines).lines <+: lines := by
  rcases take_cases belongs lines with all | ⟨body, closer, back, rfl, all, closes⟩
  · exact ⟨[], by rw [lines_of_all all, List.append_nil]⟩
  · exact ⟨back, by rw [lines_of_closer all closes, List.append_assoc, List.singleton_append]⟩

theorem Block.belongs_of_fewer {lines fewer : List Line}
    (front : fewer <+: (Block.take belongs lines).lines)
    (proper : fewer ≠ (Block.take belongs lines).lines) :
    ∀ line ∈ fewer, belongs line = true := by
  rcases take_cases belongs lines with all | ⟨body, closer, back, rfl, all, closes⟩
  · rw [lines_of_all all] at front
    exact fun line member => all line (front.subset member)
  · rw [lines_of_closer all closes] at front proper
    have inside := (List.prefix_concat_iff.1 front).resolve_left proper
    exact fun line member => all line (inside.subset member)

theorem Block.take_lines (belongs : Line → Bool) (lines : List Line) :
    Block.take belongs (Block.take belongs lines).lines = Block.take belongs lines := by
  rcases take_cases belongs lines with all | ⟨body, closer, back, rfl, all, closes⟩
  · rw [lines_of_all all]
  · rw [lines_of_closer all closes, take_of_closer all closes, take_of_closer all closes]

theorem Block.length_lines {lines : List Line} (closed : (Block.take belongs lines).closer ≠ none) :
    (Block.take belongs lines).lines.length = (Block.take belongs lines).size := by
  obtain ⟨closer, found⟩ := Option.ne_none_iff_exists'.1 closed
  rw [Block.lines, found, List.length_append]
  rfl

end Block

/-! Constructs -/

theorem isOk_locating {β : Type} (line : Line) (x : Except ScriptCause β) :
    (line.locating x).isOk = x.isOk := by
  cases x <;> rfl

section

variable {α : Type} [Number α]

def isAction (α : Type) [Number α] (line : Line) : Bool :=
  isActionLine line && (actionOf line 0 : Except ScriptCause (Action α)).isOk

def groupLines (α : Type) [Number α] (released : List String) (rest : List Line) : List Line :=
  match released with
  | ["wrap"] => (Block.take (isAction α) rest).lines
  | _ :: _ => []
  | [] => rest.take 1

/-- The lines that a construct takes up below its first one, until it is read or breaks off. -/
def Line.takes (α : Type) [Number α] (line : Line) (rest : List Line) : List Line :=
  if line.keyword = "raw" then (Block.take (fun line => line.keyword ≠ "war") rest).lines
  else if line.keyword = "on" then
    match (triggerOf line.operands : Except ScriptCause (Trigger α × Nat)) with
    | .error _ => []
    | .ok (_, offset) => groupLines α (line.words.drop offset) rest
  else []

theorem groupLines_inline {first : String} {further : List String}
    (other : first = "wrap" → further = [] → False) (rest : List Line) :
    groupLines α (first :: further) rest = [] := by
  rw [groupLines]
  rintro rfl rfl
  exact other rfl rfl

theorem isActionLine_of_isAction {lines : List Line}
    (all : ∀ line ∈ lines, isAction α line = true) : ∀ line ∈ lines, isActionLine line = true :=
  fun line member => (Bool.and_eq_true_iff.1 (all line member)).1

theorem isOk_of_isAction {lines : List Line} (all : ∀ line ∈ lines, isAction α line = true) :
    ∀ line ∈ lines, (line.locating (actionOf line 0) : Except Fault (Action α)).isOk = true := by
  intro line member
  rw [isOk_locating]
  exact (Bool.and_eq_true_iff.1 (all line member)).2

theorem wrapActions_error (opener : Line) {body : List Line} {closer : Line} {fault : Fault}
    (all : ∀ line ∈ body, isAction α line = true) (action : isActionLine closer = true)
    (failed : (closer.locating (actionOf closer 0) : Except Fault (Action α)) = .error fault)
    (back : List Line) :
    (wrapActions opener (Block.take isActionLine (body ++ closer :: back)) :
      Except Fault (List (Action α))) = .error fault := by
  have mapped := mapM_append_error (isOk_of_isAction all) failed (back.takeWhile isActionLine)
  rw [wrapActions, Block.take, List.takeWhile_append_of_pos (isActionLine_of_isAction all),
    List.takeWhile_cons_of_pos action, mapped]
  rfl

theorem wrapActions_lines (opener : Line) (rest : List Line) :
    Block.take isActionLine (Block.take (isAction α) rest).lines = Block.take isActionLine rest ∨
      ∃ fault, (wrapActions opener (Block.take isActionLine (Block.take (isAction α) rest).lines) :
          Except Fault (List (Action α))) = .error fault ∧
        (wrapActions opener (Block.take isActionLine rest) : Except Fault (List (Action α))) =
          .error fault := by
  rcases Block.take_cases (isAction α) rest with all | ⟨body, closer, back, rfl, all, closes⟩
  · rw [Block.lines_of_all all]
    exact .inl rfl
  rw [Block.lines_of_closer all closes]
  have acts := isActionLine_of_isAction all
  cases action : isActionLine closer with
  | false =>
    rw [Block.take_of_closer acts action, Block.take_of_closer acts action]
    exact .inl rfl
  | true =>
    cases read : (actionOf closer 0 : Except ScriptCause (Action α)) with
    | ok act => simp [isAction, action, read, Except.isOk, Except.toBool] at closes
    | error cause =>
      have failed : (closer.locating (actionOf closer 0) : Except Fault (Action α)) =
          .error (closer.fault cause) := by
        rw [read]
        rfl
      have fails := wrapActions_error opener all action failed
      exact .inr ⟨closer.fault cause, fails [], fails back⟩

theorem take_of_wrapActions {opener : Line} {rest : List Line} {actions : List (Action α)}
    (read : wrapActions opener (Block.take isActionLine rest) = .ok actions) :
    Block.take (isAction α) rest = Block.take isActionLine rest := by
  rcases Block.take_cases isActionLine rest with all | ⟨body, closer, back, rfl, all, closes⟩
  · rw [Block.take_of_all all] at read
    exact absurd rfl (closed_of_wrapActions read)
  · rw [Block.take_of_closer all closes] at read ⊢
    obtain ⟨found, mapped, -⟩ := ok_bind_iff.1 read
    refine Block.take_of_closer (fun line member => ?_) (by simp [isAction, closes]) back
    rw [isAction, all line member, Bool.true_and, ← isOk_locating line]
    exact isOk_of_mapM_ok mapped line member

/-! What a construct takes up is enough for its outcome -/

theorem groupOf_lines (line : Line) (offset : Nat) (rest : List Line) :
    (groupOf line offset (groupLines α (line.words.drop offset) rest) :
      Except Fault (ActionGroup α × Nat)) = groupOf line offset rest := by
  simp only [groupOf]
  generalize line.words.drop offset = released
  split
  · rcases wrapActions_lines (α := α) line rest with same | ⟨fault, here, there⟩
    · rw [groupLines, same]
    · rw [groupLines, here, there]
      rfl
  · rfl
  · cases rest <;> rfl

theorem cueOf_takes (order : Nat) {line : Line} (keyword : line.keyword = "on") (rest : List Line) :
    (cueOf order line (line.takes α rest) : Except Fault (Cue α × Nat)) =
      cueOf order line rest := by
  simp only [cueOf, Line.takes, keyword, String.reduceEq, reduceIte]
  cases (triggerOf line.operands : Except ScriptCause (Trigger α × Nat)) with
  | error cause => rfl
  | ok found =>
    show (groupOf line found.2 _ >>= _) = (groupOf line found.2 rest >>= _)
    rw [groupOf_lines]

theorem templateBlock_takes {line : Line} (keyword : line.keyword = "raw") (rest : List Line) :
    templateBlock line (line.takes α rest) = templateBlock line rest := by
  simp only [templateBlock, Line.takes, keyword, reduceIte, Block.take_lines]

theorem Draft.eval_read_takes (draft : Draft α) (line : Line) (rest : List Line)
    (library : Library) :
    (draft.read line (line.takes α rest)).eval library = (draft.read line rest).eval library := by
  by_cases known : line.keyword ∈ ["raw", "new", "plug", "on"]
  · simp only [List.mem_cons, List.not_mem_nil, or_false] at known
    rcases known with keyword | keyword | keyword | keyword
    · rw [read_template draft _ keyword, read_template draft _ keyword, Act.eval_bind,
        Act.eval_bind, eval_define, eval_define, templateBlock_takes keyword]
    · rw [read_node draft _ keyword, read_node draft _ keyword]
    · rw [read_plug draft _ keyword, read_plug draft _ keyword]
    · rw [eval_read_cue draft _ keyword, eval_read_cue draft _ keyword, cueOf_takes _ keyword]
  · rw [read_misplaced draft _ known, read_misplaced draft _ known]

/-! None of it is too much -/

/-- Why a construct needs further lines. -/
def unfinished : List ScriptCause := [.unclosedTemplate, .unclosedWrap, .triggerWithoutAction]

theorem groupOf_of_fewer {line : Line} {offset : Nat} {rest fewer : List Line}
    (front : fewer <+: groupLines α (line.words.drop offset) rest)
    (proper : fewer ≠ groupLines α (line.words.drop offset) rest) :
    ∃ cause ∈ unfinished, (groupOf line offset fewer : Except Fault (ActionGroup α × Nat)) =
      .error (line.fault cause) := by
  simp only [groupOf]
  generalize line.words.drop offset = released at front proper
  split
  · have all := Block.belongs_of_fewer front proper
    obtain ⟨actions, read⟩ := mapM_ok_of_isOk (isOk_of_isAction all)
    refine ⟨.unclosedWrap, by decide, ?_⟩
    rw [Block.take_of_all (isActionLine_of_isAction all), wrapActions, read]
    rfl
  · next first further other =>
    rw [groupLines_inline other] at front proper
    exact absurd (List.prefix_nil.1 front) proper
  · refine ⟨.triggerWithoutAction, by decide, ?_⟩
    cases rest with
    | nil => exact absurd (List.prefix_nil.1 front) proper
    | cons next below =>
      have single : fewer <+: [] ++ [next] := front
      have none := (List.prefix_concat_iff.1 single).resolve_left proper
      rw [List.prefix_nil.1 none]

theorem cueOf_of_fewer (order : Nat) {line : Line} (keyword : line.keyword = "on")
    {rest fewer : List Line} (front : fewer <+: line.takes α rest)
    (proper : fewer ≠ line.takes α rest) :
    ∃ cause ∈ unfinished,
      (cueOf order line fewer : Except Fault (Cue α × Nat)) = .error (line.fault cause) := by
  simp only [Line.takes, keyword, String.reduceEq, reduceIte] at front proper
  simp only [cueOf]
  cases read : (triggerOf line.operands : Except ScriptCause (Trigger α × Nat)) with
  | error cause =>
    rw [read] at front proper
    exact absurd (List.prefix_nil.1 front) proper
  | ok found =>
    rw [read] at front proper
    obtain ⟨cause, known, fails⟩ := groupOf_of_fewer front proper
    refine ⟨cause, known, ?_⟩
    show (groupOf line found.2 fewer >>= _) = _
    rw [fails]
    rfl

theorem templateBlock_of_fewer {line : Line} (keyword : line.keyword = "raw")
    {rest fewer : List Line} (front : fewer <+: line.takes α rest)
    (proper : fewer ≠ line.takes α rest) :
    templateBlock line fewer = .error (line.fault .unclosedTemplate) := by
  simp only [Line.takes, keyword, reduceIte] at front proper
  rw [templateBlock, Block.take_of_all (Block.belongs_of_fewer front proper)]

/-- What a construct takes up of the lines below it. These are enough for its outcome, and with
fewer of them it is not finished. -/
structure Draft.Consumes (draft : Draft α) (line : Line) (rest : List Line) (library : Library)
    (taken : List Line) : Prop where
  front : taken <+: rest
  enough : (draft.read line taken).eval library = (draft.read line rest).eval library
  needed : ∀ fewer, fewer <+: taken → fewer ≠ taken →
    ∃ cause ∈ unfinished, (draft.read line fewer).eval library =
      (.error (line.fault cause), library)

theorem Draft.read_of_fewer (draft : Draft α) {line : Line} {rest fewer : List Line}
    (front : fewer <+: line.takes α rest) (proper : fewer ≠ line.takes α rest)
    (library : Library) :
    ∃ cause ∈ unfinished, (draft.read line fewer).eval library =
      (.error (line.fault cause), library) := by
  by_cases raw : line.keyword = "raw"
  · refine ⟨.unclosedTemplate, by decide, ?_⟩
    rw [read_template draft _ raw, Act.eval_bind, eval_define, Act.eval_bind, Act.eval_ofExcept,
      templateBlock_of_fewer raw front proper]
  by_cases on : line.keyword = "on"
  · obtain ⟨cause, known, fails⟩ := cueOf_of_fewer draft.cues.length on front proper
    refine ⟨cause, known, ?_⟩
    rw [eval_read_cue draft _ on, Act.eval_bind, Act.eval_ofExcept, fails]
  · simp only [Line.takes, raw, on, reduceIte] at front proper
    exact absurd (List.prefix_nil.1 front) proper

theorem Line.takes_prefix (line : Line) (rest : List Line) : line.takes α rest <+: rest := by
  simp only [takes]
  split
  · exact Block.lines_prefix _ rest
  · split
    · split
      · exact List.nil_prefix
      · rw [groupLines.eq_def]
        split
        · exact Block.lines_prefix _ rest
        · exact List.nil_prefix
        · exact List.take_prefix 1 rest
    · exact List.nil_prefix

theorem Draft.consumes_takes (draft : Draft α) (line : Line) (rest : List Line)
    (library : Library) : draft.Consumes line rest library (line.takes α rest) where
  front := line.takes_prefix rest
  enough := draft.eval_read_takes line rest library
  needed _ front proper := draft.read_of_fewer front proper library

/-! A construct that is read takes up as many lines as it says -/

theorem length_groupLines {line : Line} {offset : Nat} {rest : List Line} {group : ActionGroup α}
    {taken : Nat} (read : groupOf line offset rest = .ok (group, taken)) :
    (groupLines α (line.words.drop offset) rest).length = taken := by
  simp only [groupOf] at read
  generalize line.words.drop offset = released at read
  split at read
  · obtain ⟨actions, wrapped, read⟩ := ok_bind_iff.1 read
    cases read
    have same := take_of_wrapActions wrapped
    rw [groupLines, same, Block.length_lines (closed_of_wrapActions wrapped)]
  · next first further other =>
    obtain ⟨action, _, read⟩ := ok_bind_iff.1 read
    cases read
    rw [groupLines_inline other]
    rfl
  · cases rest with
    | nil => cases read
    | cons next below =>
      obtain ⟨action, _, read⟩ := ok_bind_iff.1 read
      cases read
      rfl

theorem Draft.Reads.length_takes {draft draft' : Draft α} {line : Line} {rest : List Line}
    {library library' : Library} {taken : Nat}
    (reads : draft.Reads line rest library draft' taken library') :
    (line.takes α rest).length = taken := by
  cases reads with
  | template keyword closed read free =>
    simp only [Line.takes, keyword, reduceIte]
    simp only [templateBlock] at closed
    split at closed
    · cases closed
    · next closer found =>
      split at closed
      · cases closed
        exact Block.length_lines (found ▸ Option.some_ne_none closer)
      · cases closed
  | node keyword read => simp [Line.takes, keyword]
  | plug keyword read => simp [Line.takes, keyword]
  | cue keyword read =>
    obtain ⟨⟨trigger, offset⟩, found, read⟩ := ok_bind_iff.1 read
    obtain ⟨⟨group, n⟩, grouped, read⟩ := ok_bind_iff.1 read
    cases read
    simp only [Line.takes, keyword, String.reduceEq, reduceIte, ok_mapError_iff.1 found]
    exact length_groupLines grouped

theorem Draft.Reads.alone {draft draft' : Draft α} {line : Line} {rest : List Line}
    {library library' : Library} {taken : Nat}
    (reads : draft.Reads line rest library draft' taken library') :
    draft.Reads line (rest.take taken) library draft' taken library' := by
  have front := List.prefix_iff_eq_take.1 (line.takes_prefix (α := α) rest)
  rw [reads.length_takes] at front
  have returned : (draft.read line (rest.take taken)).eval library =
      (.ok (draft', taken), library') := by
    rw [← front, eval_read_takes]
    exact returns_read_iff.2 reads
  exact returns_read_iff.1 returned

/-! Where the reading stops -/

/-- Construct by construct, the reading of lines comes from a draft and a library to those in front
of the lines that are left. -/
inductive Draft.Comes : Draft α → Library → List Line → Draft α → Library → List Line → Prop where
  | here (draft : Draft α) (library : Library) (lines : List Line) :
    Comes draft library lines draft library lines
  | next {draft between last : Draft α} {line : Line} {rest left : List Line}
    {library library' final : Library} {taken : Nat}
    (reads : draft.Reads line rest library between taken library')
    (later : Comes between library' (rest.drop taken) last final left) :
    Comes draft library (line :: rest) last final left

theorem Draft.Comes.returns {draft draft' : Draft α} {library library' : Library}
    {lines left : List Line} (comes : Comes draft library lines draft' library' left) :
    ∃ above, lines = above ++ left ∧ (draft.readAll above).Returns library draft' library' := by
  induction comes with
  | here draft library lines =>
    refine ⟨[], rfl, ?_⟩
    rw [readAll]
    exact (Act.returns_pure ..).2 ⟨rfl, rfl⟩
  | @next draft between last line rest left library library' final taken reads later ih =>
    obtain ⟨above, split, returned⟩ := ih
    refine ⟨line :: (rest.take taken ++ above), ?_, ?_⟩
    · rw [List.cons_append, List.append_assoc, ← split, List.take_append_drop]
    · have first := returns_read_iff.2 (reads.alone.append above).1
      have length : (rest.take taken).length = taken :=
        List.length_take_of_le (reads.append []).2
      rw [readAll]
      refine (Act.returns_bind ..).2 ⟨_, _, first, ?_⟩
      show (between.readAll ((rest.take taken ++ above).drop taken)).Returns library' last final
      rw [List.drop_left' length]
      exact returned

theorem Draft.Comes.eval {draft draft' : Draft α} {library library' : Library}
    {lines left : List Line} (comes : Comes draft library lines draft' library' left) :
    (draft.readAll lines).eval library = (draft'.readAll left).eval library' := by
  obtain ⟨above, rfl, returned⟩ := comes.returns
  exact eval_readAll_append returned left

/-- Where the reading of a script breaks off: the construct that starts there is not read. -/
structure Stop (α : Type) where
  draft : Draft α
  library : Library
  start : Line
  below : List Line

structure Stop.Of (stop : Stop α) (draft : Draft α) (library : Library) (lines : List Line)
    (fault : Fault) (after : Library) : Prop where
  comes : Draft.Comes draft library lines stop.draft stop.library (stop.start :: stop.below)
  fails : (stop.draft.read stop.start stop.below).eval stop.library = (.error fault, after)

theorem Draft.exists_stop {draft : Draft α} {library after : Library} {lines : List Line}
    {fault : Fault} (failed : (draft.readAll lines).eval library = (.error fault, after)) :
    ∃ stop : Stop α, stop.Of draft library lines fault after := by
  induction draft, lines using Draft.readAll.induct generalizing library with
  | case1 draft =>
    rw [readAll] at failed
    cases failed
  | case2 draft line rest ih =>
    rw [readAll, Act.eval_bind] at failed
    cases read : (draft.read line rest).eval library with
    | mk answer between =>
      rw [read] at failed
      cases answer with
      | error other =>
        cases failed
        exact ⟨⟨draft, library, line, rest⟩, .here .., read⟩
      | ok found =>
        obtain ⟨stop, comes, fails⟩ := ih found.1 found.2 failed
        exact ⟨stop, .next (returns_read_iff.1 read) comes, fails⟩

theorem exists_stop {script : String} {library after : Library} {fault : Fault}
    (failed : (compile script : Act Library (Program α)).eval library = (.error fault, after)) :
    ∃ stop : Stop α, stop.Of .start library (linesOf script) fault after := by
  rw [eval_compile] at failed
  cases read : ((Draft.start : Draft α).readAll (linesOf script)).eval library with
  | mk answer between =>
    rw [read] at failed
    cases answer with
    | ok draft => cases failed
    | error other =>
      cases failed
      exact Draft.exists_stop read

theorem Draft.fault_among_takes {draft : Draft α} {line : Line} {rest : List Line}
    {library after : Library} {fault : Fault}
    (failed : (draft.read line rest).eval library = (.error fault, after)) :
    fault.Among (line :: line.takes α rest) := by
  rw [← eval_read_takes] at failed
  exact draft.read_fails line _ library fault (congrArg Prod.fst failed)

end

/-- The script above a line, as a text of its own. -/
def Above (upper script : String) (line : Line) : Prop :=
  Text.lines upper = (Text.lines script).take (line.number - 1)

theorem exists_above {script : String} {line : Line} (member : line ∈ linesOf script) :
    ∃ upper lower, script = upper ++ lower ∧ Above upper script line ∧
      Text.lines lower = (Text.lines script).drop (line.number - 1) := by
  have within := (List.getElem?_eq_some_iff.1 (place_of_linesOf member).2).1
  exact Text.exists_lines_split (Nat.le_of_lt within)

theorem mem_of_between {above taken left : List Line} {start line other : Line}
    (ordered : (above ++ (start :: taken ++ left)).Pairwise fun a b => a.number < b.number)
    (member : line ∈ start :: taken) (within : other ∈ above ++ (start :: taken ++ left))
    (behind : start.number ≤ other.number) (before : other.number ≤ line.number) :
    other ∈ start :: taken := by
  obtain ⟨-, ordered, higher⟩ := List.pairwise_append.1 ordered
  obtain ⟨-, -, lower⟩ := List.pairwise_append.1 ordered
  rcases List.mem_append.1 within with high | within
  · have := higher other high start List.mem_cons_self
    omega
  · rcases List.mem_append.1 within with inside | low
    · exact inside
    · have := lower line member other low
      omega

end Script

open Script in
/-- A fault of a script is found on a significant line of it. The construct that the line belongs to
starts there or above: the script cut off in front of the construct compiles, and the lines from the
start of the construct to that of the fault are lines that the construct has taken up. -/
theorem faults_point_at_construct {α : Type} [Number α] {script : String}
    {library after : Library} {fault : Fault}
    (failed : (compile script : Act Library (Program α)).eval library = (.error fault, after)) :
    (∃ stop : Stop α, stop.Of .start library (linesOf script) fault after) ∧
    ∀ stop : Stop α, stop.Of .start library (linesOf script) fault after →
      (∃ line ∈ linesOf script, fault.On line ∧
        (∀ number cause, fault = .desk number cause →
          fault.message = s!"line {line.number}: " ++ cause.message) ∧
        (Text.lines script)[line.number - 1]? = some line.text ∧
        stop.start.number ≤ line.number ∧
        ∀ other ∈ linesOf script, stop.start.number ≤ other.number → other.number ≤ line.number →
          other ∈ stop.start :: stop.start.takes α stop.below) ∧
      stop.draft.Consumes stop.start stop.below stop.library (stop.start.takes α stop.below) ∧
      (∃ upper lower, script = upper ++ lower ∧ Above upper script stop.start ∧
        Text.lines lower = (Text.lines script).drop (stop.start.number - 1)) ∧
      ∀ upper, Above upper script stop.start →
        (compile upper).Returns library (stop.draft.program stop.library) stop.library := by
  refine ⟨exists_stop failed, fun stop stops => ?_⟩
  obtain ⟨above, split, returned⟩ := stops.comes.returns
  have ordered := pairwise_linesOf script
  have start : stop.start ∈ linesOf script := by
    rw [split]
    exact List.mem_append_right above List.mem_cons_self
  refine ⟨?_, Draft.consumes_takes .., exists_above start, fun upper cut => ?_⟩
  · obtain ⟨line, member, on⟩ := Draft.fault_among_takes stops.fails
    obtain ⟨left, whole⟩ := stop.start.takes_prefix (α := α) stop.below
    have lines : linesOf script =
        above ++ (stop.start :: stop.start.takes α stop.below ++ left) := by
      rw [split, List.cons_append, whole]
    rw [lines] at ordered ⊢
    have within := List.mem_append_right above (List.mem_append_left left member)
    refine ⟨line, within, on, ?_, (place_of_linesOf (lines ▸ within)).2, ?_,
      fun other => mem_of_between ordered member⟩
    · rintro number cause rfl
      obtain rfl : number = some line.number := on
      rfl
    · have construct := (List.pairwise_append.1 (List.pairwise_append.1 ordered).2.1).1
      exact number_le_of_mem_cons construct member
  · refine returns_compile_iff.2 ⟨stop.draft, ?_, rfl⟩
    have lines : linesOf upper = above := by
      show linesFrom 1 (Text.lines upper) = above
      rw [cut, linesOf_take split]
    rw [lines]
    exact returned

namespace Script.Sample

def garbled : String :=
  "raw w 0 fakesrc name=s\nwar\nnew w a\non pre wrap\nact a play start\nact a fly\nparw\n"

end Script.Sample

open Script in
theorem faults_point_at_construct_sample :
    ∃ (fault : Fault) (after : Library) (stop : Stop ℚ),
      (compile Sample.garbled : Act Library (Program ℚ)).eval .empty = (.error fault, after) ∧
      fault.message = "line 6: Unknown action verb: fly: 'act a fly'" ∧
      stop.Of .start .empty (linesOf Sample.garbled) fault after ∧
      (∃ line ∈ linesOf Sample.garbled, line.number = 6 ∧ fault.On line ∧
        stop.start.number ≤ 6 ∧
        ∀ other ∈ linesOf Sample.garbled, stop.start.number ≤ other.number → other.number ≤ 6 →
          other ∈ stop.start :: stop.start.takes ℚ stop.below) ∧
      stop.draft.Consumes stop.start stop.below stop.library (stop.start.takes ℚ stop.below) ∧
      ∃ upper lower, Sample.garbled = upper ++ lower ∧
        (compile upper).Returns .empty (stop.draft.program stop.library) stop.library := by
  have checks :
      ((compile Sample.garbled : Act Library (Program ℚ)).eval .empty).1.map (fun _ => ()) =
        .error (.script ⟨.unknownVerb "fly", some 6, some "act a fly"⟩) := by
    decide +kernel
  generalize outcome : (compile Sample.garbled : Act Library (Program ℚ)).eval .empty = found
    at checks
  obtain ⟨fault | p, after⟩ := found
  · obtain rfl := Except.error.inj checks
    obtain ⟨⟨stop, stops⟩, law⟩ := faults_point_at_construct outcome
    obtain ⟨place, consumes, ⟨upper, lower, cut, above, -⟩, compiles⟩ := law stop stops
    obtain ⟨line, within, on, -, -, order, taken⟩ := place
    have number : line.number = 6 := by
      have same := Option.some.inj on.1
      omega
    rw [number] at order taken
    exact ⟨_, after, stop, rfl, by decide +kernel, stops, ⟨line, within, number, on, order, taken⟩,
      consumes, upper, lower, cut, compiles upper above⟩
  · cases checks

end ShowControl
