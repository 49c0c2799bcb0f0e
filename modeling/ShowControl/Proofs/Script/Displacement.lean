import ShowControl.Proofs.Script.Position
import ShowControl.Proofs.Script.Lines

/-! Constructs that stand further down.

A construct says the same wherever it stands, except for the numbers of its lines: those of what it
is read as, and those of the faults in it. -/

set_option autoImplicit false
namespace ShowControl

variable {α : Type}

/-! What is read from lines with `n` more lines above them -/

def ScriptFault.below (n : Nat) (fault : ScriptFault) : ScriptFault :=
  { fault with number := fault.number.map (· + (n : Int)) }

def Fault.below (n : Nat) : Fault → Fault
  | script fault => script (fault.below n)
  | desk line cause => desk (line.map (· + n)) cause
  | host fault => host fault

def Statement.below (n : Nat) : Statement → Statement
  | node template name arguments line => node template name arguments (line + n)
  | plug source target line => plug source target (line + n)

def Action.below (n : Nat) : Action α → Action α
  | command target order line => command target order (line + n)
  | terminate line => terminate (line + n)

def ActionGroup.below (n : Nat) (group : ActionGroup α) : ActionGroup α :=
  { group with actions := group.actions.map (Action.below n) }

/-- Further up there are `k` cues, too. -/
def Cue.below (n k : Nat) (cue : Cue α) : Cue α :=
  { cue with group := cue.group.below n, order := cue.order + k, line := cue.line + n }

namespace Script

def Block.below (n : Nat) (block : Block) : Block :=
  ⟨block.body.map (Line.below n), block.closer.map (Line.below n)⟩

/-- Two answers, to a question and to the same one `n` lines further down. -/
inductive Displaced {β γ : Type} (n : Nat) (f : β → γ) :
    Except Fault β → Except Fault γ → Prop where
  | ok (b : β) : Displaced n f (.ok b) (.ok (f b))
  | error (fault : Fault) : Displaced n f (.error fault) (.error (fault.below n))

section Displaced

variable {β β' γ γ' : Type} {n : Nat} {f : β → β'} {g : γ → γ'}

theorem Displaced.bind {x : Except Fault β} {x' : Except Fault β'} {k : β → Except Fault γ}
    {k' : β' → Except Fault γ'} (first : Displaced n f x x')
    (second : ∀ b, Displaced n g (k b) (k' (f b))) : Displaced n g (x >>= k) (x' >>= k') := by
  cases first with
  | ok b => exact second b
  | error fault => exact .error fault

theorem Displaced.mapM {k : Line → Except Fault β} {k' : Line → Except Fault β'}
    (each : ∀ line, Displaced n f (k line) (k' (line.below n))) (lines : List Line) :
    Displaced n (List.map f) (lines.mapM k) ((lines.map (Line.below n)).mapM k') := by
  induction lines with
  | nil => exact .ok []
  | cons line rest ih =>
    rw [List.map_cons, List.mapM_cons, List.mapM_cons]
    exact (each line).bind fun b => ih.bind fun bs => .ok (b :: bs)

theorem Line.fault_below (line : Line) (cause : ScriptCause) :
    (line.below n).fault cause = (line.fault cause).below n := by
  simp [fault, below, Fault.below, ScriptFault.below]

theorem displaced_fault (line : Line) (cause : ScriptCause) :
    Displaced n f (.error (line.fault cause)) (.error ((line.below n).fault cause)) := by
  rw [line.fault_below]
  exact .error _

theorem displaced_locating (line : Line) (x : Except ScriptCause β) :
    Displaced n f (line.locating x) ((line.below n).locating (x.map f)) := by
  cases x with
  | error cause => exact displaced_fault line cause
  | ok b => exact .ok b

theorem displaced_locating_same (line : Line) (x : Except ScriptCause β) :
    Displaced n id (line.locating x) ((line.below n).locating x) := by
  have displaced := displaced_locating (n := n) (f := id) line x
  rwa [Except.map_id] at displaced

end Displaced

variable {n : Nat}

/-! Templates -/

theorem Block.take_below {belongs : Line → Bool}
    (alike : ∀ line, belongs (line.below n) = belongs line) (lines : List Line) :
    Block.take belongs (lines.map (Line.below n)) = (Block.take belongs lines).below n := by
  have same : belongs ∘ Line.below n = belongs := funext alike
  rw [take, take, below, List.takeWhile_map, List.dropWhile_map, List.head?_map, same]

theorem displaced_templateBlock (header : Line) (rest : List Line) :
    Displaced n (Block.below n) (templateBlock header rest)
      (templateBlock (header.below n) (rest.map (Line.below n))) := by
  simp only [templateBlock]
  rw [Block.take_below fun _ => rfl]
  generalize Block.take _ rest = block
  obtain ⟨body, _ | closer⟩ := block
  · exact displaced_fault header _
  · simp only [Block.below, Option.map_some, Line.below]
    split
    · exact .ok _
    · exact displaced_fault closer _

theorem displaced_bindingAt (elements : List String) (line : Line) :
    Displaced n id (bindingAt elements line) (bindingAt elements (line.below n)) := by
  -- Only the words of the line are looked at, and a fault without a position is put on the line.
  have same : bindingOf elements (line.below n) = bindingOf elements line := rfl
  have unplaced := bindingOf_unplaced elements line
  rw [bindingAt, bindingAt, same]
  cases found : bindingOf elements line with
  | ok binding => exact .ok binding
  | error fault =>
    cases fault with
    | script fault =>
      obtain ⟨cause, number, text⟩ := fault
      obtain rfl : number = none := unplaced _ found
      exact displaced_fault line cause
    | desk number cause =>
      obtain rfl : number = none := unplaced _ found
      exact .error _
    | host fault => exact .error _

theorem displaced_templateOf (standard : Bool) (header : Line) (body : List Line) :
    Displaced n id (templateOf standard header body)
      (templateOf standard (header.below n) (body.map (Line.below n))) := by
  have operands : (header.below n).operands = header.operands := rfl
  simp only [templateOf, operands]
  split
  · refine (displaced_locating_same header _).bind fun portCount => ?_
    refine (displaced_locating_same header _).bind fun layout => ?_
    refine (Displaced.mapM (displaced_bindingAt _) body).bind fun bindings => ?_
    rw [List.map_id]
    exact (displaced_locating_same header _).bind fun defaults => .ok _
  · exact displaced_fault header _

/-! Statements -/

theorem displaced_nodeOf (library : Library) (line : Line) :
    Displaced n (Statement.below n) (nodeOf library line) (nodeOf library (line.below n)) := by
  have operands : (line.below n).operands = line.operands := rfl
  simp only [nodeOf, operands]
  split
  · split
    · exact .error _
    · split
      · exact .ok _
      · exact displaced_fault line _
  · exact displaced_fault line _

theorem displaced_plugOf (line : Line) :
    Displaced n (Statement.below n) (plugOf line) (plugOf (line.below n)) := by
  have operands : (line.below n).operands = line.operands := rfl
  simp only [plugOf, operands]
  split
  · exact .ok _
  · exact displaced_fault line _

/-! Cues -/

section

variable [Number α]

theorem actionOf_below (line : Line) (offset : Nat) :
    (actionOf (line.below n) offset : Except ScriptCause (Action α)) =
      (actionOf line offset).map (Action.below n) := by
  have words : (line.below n).words = line.words := rfl
  have text : (line.below n).text = line.text := rfl
  simp only [actionOf, words, text]
  split
  · rfl
  · next target verb operands _ =>
    cases (commandOf (Text.remainder (offset + 6) line.text) verb operands :
      Except ScriptCause (Command α)) <;> rfl
  all_goals rfl

theorem displaced_actionOf (line : Line) (offset : Nat) :
    Displaced n (Action.below n) (line.locating (actionOf line offset))
      ((line.below n).locating (actionOf (line.below n) offset : Except _ (Action α))) := by
  rw [actionOf_below]
  exact displaced_locating line _

theorem displaced_wrapActions (opener : Line) (block : Block) :
    Displaced n (List.map (Action.below n)) (wrapActions opener block)
      (wrapActions (opener.below n) (block.below n) : Except Fault (List (Action α))) := by
  refine (Displaced.mapM (fun line => displaced_actionOf line 0) block.body).bind fun actions => ?_
  obtain ⟨body, _ | closer⟩ := block
  · exact displaced_fault opener _
  · simp only [Block.below, Option.map_some, Line.below]
    split
    · exact displaced_fault closer _
    · split
      · exact displaced_fault closer _
      · exact .ok actions

theorem displaced_groupOf (line : Line) (offset : Nat) (rest : List Line) :
    Displaced n (Prod.map (ActionGroup.below n) id) (groupOf line offset rest)
      (groupOf (line.below n) offset (rest.map (Line.below n)) :
        Except Fault (ActionGroup α × Nat)) := by
  have words : (line.below n).words = line.words := rfl
  simp only [groupOf, words]
  split
  · rw [Block.take_below fun _ => rfl]
    refine (displaced_wrapActions line _).bind fun actions => ?_
    have size : ((Block.take isActionLine rest).below n).size =
        (Block.take isActionLine rest).size := by simp [Block.size, Block.below]
    rw [size]
    exact .ok _
  · exact (displaced_actionOf line offset).bind fun action => .ok _
  · cases rest with
    | nil => exact displaced_fault line _
    | cons next below => exact (displaced_actionOf next 0).bind fun action => .ok _

theorem displaced_cueOf (order k : Nat) (line : Line) (rest : List Line) :
    Displaced n (Prod.map (Cue.below n k) id) (cueOf order line rest)
      (cueOf (order + k) (line.below n) (rest.map (Line.below n)) :
        Except Fault (Cue α × Nat)) :=
  (displaced_locating_same line _).bind fun found =>
    (displaced_groupOf line found.2 rest).bind fun _ => .ok _

end

end Script

end ShowControl
