import Mathlib.Data.List.Forall2
import ShowControl.Proofs.Script.Arity
import ShowControl.Proofs.Script.Compiled
import ShowControl.Proofs.Script.Lines

/-! How a script falls into constructs.

A statement is one line, and a template goes from its header to the first line that closes it. A cue
has its action behind the trigger, on the line below, or in a block of lines. Every significant line of
a script that compiles belongs to one construct, and the program has what the constructs say, in their
order. -/

set_option autoImplicit false
namespace ShowControl

section Forall₂

variable {β γ δ : Type} {R : β → γ → Prop} {l : List β} {found : List δ} {f : δ → Option γ}

theorem forall₂_skip (before : List.Forall₂ R l (found.filterMap f)) {d : δ} (none : f d = none) :
    List.Forall₂ R l ((found ++ [d]).filterMap f) := by
  rw [List.filterMap_append, List.filterMap_cons_none none, List.filterMap_nil, List.append_nil]
  exact before

theorem forall₂_take (before : List.Forall₂ R l (found.filterMap f)) {d : δ} {b : β} {c : γ}
    (some : f d = some c) (last : R b c) :
    List.Forall₂ R (l ++ [b]) ((found ++ [d]).filterMap f) := by
  rw [List.filterMap_append, List.filterMap_cons_some some]
  exact List.rel_append before (.cons last .nil)

end Forall₂

def Statement.words : Statement → List String
  | node template name arguments _ => "new" :: template :: name :: arguments
  | plug source target _ => ["plug", source.port, source.node, target.port, target.node]

namespace Script

/-! Constructs and their lines -/

/-- Where the actions of a cue stand: on the line of the trigger, on the next one, or in a block. -/
inductive Release where
  | inline
  | below (line : Line)
  | block (body : List Line) (closer : Line)

inductive Construct where
  | statement (line : Line)
  | template (header : Line) (body : List Line) (closer : Line)
  | cue (line : Line) (release : Release)

def Release.lines : Release → List Line
  | inline => []
  | below line => [line]
  | block body closer => body ++ [closer]

def Construct.lines : Construct → List Line
  | statement line => [line]
  | template header body closer => header :: (body ++ [closer])
  | cue line release => line :: release.lines

/-- The number of words of a line that its trigger takes up, with the keyword. -/
def Line.triggerWidth (line : Line) : Nat := if line.operands.head? = some "pre" then 2 else 4

def Line.released (line : Line) : List String := line.words.drop line.triggerWidth

def Release.Fits (words : List String) : Release → Prop
  | inline => words ≠ [] ∧ words ≠ ["wrap"]
  | below line => words = [] ∧ isActionLine line = true
  | block body closer =>
    words = ["wrap"] ∧ (∀ line ∈ body, isActionLine line = true) ∧ closer.words = ["parw"]

def Construct.WellFormed : Construct → Prop
  | statement line => line.keyword = "new" ∨ line.keyword = "plug"
  | template header body closer =>
    header.keyword = "raw" ∧ (∀ line ∈ body, line.keyword ≠ "war") ∧ closer.words = ["war"]
  | cue line release => line.keyword = "on" ∧ release.Fits line.released

instance (words : List String) : (release : Release) → Decidable (release.Fits words)
  | .inline => inferInstanceAs (Decidable (_ ∧ _))
  | .below _ => inferInstanceAs (Decidable (_ ∧ _))
  | .block .. => inferInstanceAs (Decidable (_ ∧ _ ∧ _))

instance : (construct : Construct) → Decidable construct.WellFormed
  | .statement _ => inferInstanceAs (Decidable (_ ∨ _))
  | .template .. => inferInstanceAs (Decidable (_ ∧ _ ∧ _))
  | .cue .. => inferInstanceAs (Decidable (_ ∧ _))

namespace Construct

def statement? : Construct → Option Line
  | statement line => some line
  | template .. | cue .. => none

def template? : Construct → Option (Line × List Line)
  | template header body _ => some (header, body)
  | statement _ | cue .. => none

def cue? : Construct → Option (Line × Release)
  | cue line release => some (line, release)
  | statement _ | template .. => none

end Construct

def Release.actions (line : Line) : Release → List (Line × Nat)
  | inline => [(line, line.triggerWidth)]
  | below next => [(next, 0)]
  | block body _ => body.map fun line => (line, 0)

end Script

/-! What constructs say -/

open Script (Line Release Construct actionOf triggerOf templateOf)

/-- The statement is what the line says. -/
structure Statement.From (statement : Statement) (line : Line) : Prop where
  words : statement.words = line.words
  line : statement.line = line.number

variable {α : Type} [Number α]

structure Action.From (action : Action α) (place : Line × Nat) : Prop where
  read : actionOf place.1 place.2 = .ok action
  line : action.line = place.1.number

structure Cue.From (cue : Cue α) (place : Line × Release) : Prop where
  line : cue.line = place.1.number
  trigger : triggerOf place.1.operands = .ok (cue.trigger, place.1.triggerWidth)
  actions : List.Forall₂ Action.From cue.group.actions (place.2.actions place.1)
  parallel : cue.group.mode = .parallel ↔ place.1.released = ["wrap"]

omit [Number α] in
def Template.From (template : Template) (place : Line × List Line) : Prop :=
  templateOf false place.1 place.2 = .ok template

def Library.enter (library : Library) (templates : List Template) : Library :=
  templates.foldl (fun library template => Table.insert library template.name template) library

theorem Library.enter_append (library : Library) (templates : List Template) (t : Template) :
    library.enter (templates ++ [t]) = Table.insert (library.enter templates) t.name t := by
  rw [enter, List.foldl_append]
  rfl

theorem Library.get?_enter (library : Library) {templates : List Template} {name : String}
    (taken : name ∈ templates.map Template.name) :
    ∃ t ∈ templates, Table.get? (library.enter templates) name = some t := by
  induction templates using List.reverseRecOn with
  | nil => cases taken
  | append_singleton templates last ih =>
    rw [enter_append, Table.get?_insert]
    split
    · exact ⟨last, by simp, rfl⟩
    · next other =>
      have before : name ∈ templates.map Template.name := by
        simpa [other] using taken
      obtain ⟨t, member, known⟩ := ih before
      exact ⟨t, List.mem_append_left _ member, known⟩

theorem own_of_forall₂ {templates : List Template} {places : List (Line × List Line)}
    (each : List.Forall₂ Template.From templates places) : ∀ t ∈ templates, t.standard = false := by
  induction each with
  | nil => exact List.forall_mem_nil _
  | cons first _ ih => exact List.forall_mem_cons.2 ⟨(Script.operands_of_templateOf first).2, ih⟩

namespace Script

/-! Blocks -/

theorem Block.take_split {belongs : Line → Bool} {lines : List Line} {closer : Line}
    (closed : (Block.take belongs lines).closer = some closer) :
    lines = (Block.take belongs lines).body ++ [closer] ++
        lines.drop (Block.take belongs lines).size ∧
      (∀ line ∈ (Block.take belongs lines).body, belongs line = true) ∧ belongs closer = false := by
  change (lines.dropWhile belongs).head? = some closer at closed
  obtain ⟨left, split⟩ := List.head?_eq_some_iff.1 closed
  have whole : lines = (Block.take belongs lines).body ++ [closer] ++ left := by
    rw [List.append_assoc, List.singleton_append, ← split]
    exact List.takeWhile_append_dropWhile.symm
  have behind : lines.drop (Block.take belongs lines).size = left :=
    (congrArg _ whole).trans (List.drop_left' (by simp [size]))
  refine ⟨?_, List.all_eq_true.1 List.all_takeWhile, ?_⟩
  · rw [behind]
    exact whole
  · have outside := List.head?_dropWhile_not belongs lines
    rw [closed] at outside
    exact outside

theorem templateBlock_split {header : Line} {rest : List Line} {block : Block}
    (closed : templateBlock header rest = .ok block) :
    ∃ closer, rest = block.body ++ [closer] ++ rest.drop block.size ∧
      (∀ line ∈ block.body, line.keyword ≠ "war") ∧ closer.words = ["war"] := by
  simp only [templateBlock] at closed
  split at closed
  · cases closed
  next closer found =>
  split at closed
  · next bare =>
    cases closed
    obtain ⟨split, inside, outside⟩ := Block.take_split found
    refine ⟨closer, split, fun line member => of_decide_eq_true (inside line member), ?_⟩
    rw [Line.words, List.isEmpty_iff.1 bare, Decidable.not_not.1 (of_decide_eq_false outside)]
  · cases closed

/-! Statements -/

theorem from_of_nodeOf {library : Library} {line : Line} {statement : Statement}
    (keyword : line.keyword = "new") (read : nodeOf library line = .ok statement) :
    statement.From line := by
  simp only [nodeOf] at read
  split at read
  · next name given arguments operands =>
    split at read
    · cases read
    · split at read
      · cases read
        refine ⟨?_, rfl⟩
        rw [Line.words, keyword, operands]
        rfl
      · cases read
  · cases read

theorem from_of_plugOf {line : Line} {statement : Statement} (keyword : line.keyword = "plug")
    (read : plugOf line = .ok statement) : statement.From line := by
  rw [plugOf.eq_def] at read
  split at read
  · next operands =>
    cases read
    refine ⟨?_, rfl⟩
    rw [Line.words, keyword, operands]
    rfl
  · cases read

/-! Actions and triggers -/

theorem line_of_actionOf {line : Line} {offset : Nat} {action : Action α}
    (read : actionOf line offset = .ok action) : action.line = line.number := by
  rw [actionOf.eq_def] at read
  split at read
  · cases read
    rfl
  · obtain ⟨command, _, read⟩ := ok_bind_iff.1 read
    cases read
    rfl
  all_goals cases read

theorem isActionLine_of_actionOf {line : Line} {action : Action α}
    (read : actionOf line 0 = .ok action) : isActionLine line = true := by
  rw [actionOf.eq_def, List.drop_zero, Line.words] at read
  split at read
  · next words => simp [isActionLine, (List.cons.inj words).1]
  · next words => simp [isActionLine, (List.cons.inj words).1]
  all_goals cases read

theorem from_of_actionOf {line : Line} {offset : Nat} {action : Action α}
    (read : line.locating (actionOf line offset) = .ok action) : action.From (line, offset) :=
  ⟨ok_mapError_iff.1 read, line_of_actionOf (ok_mapError_iff.1 read)⟩

theorem width_of_triggerOf {line : Line} {trigger : Trigger α} {offset : Nat}
    (read : triggerOf line.operands = .ok (trigger, offset)) : offset = line.triggerWidth := by
  rw [triggerOf.eq_def] at read
  unfold Line.triggerWidth
  split at read
  · next operands =>
    cases read
    rw [operands]
    rfl
  · next operands =>
    obtain ⟨threshold, _, read⟩ := ok_bind_iff.1 read
    split at read
    · cases read
    · cases read
      rw [operands]
      rfl
  · cases read
  · next operands =>
    cases read
    rw [operands]
    rfl
  all_goals cases read

theorem split_of_wrapActions {line : Line} {rest : List Line} {actions : List (Action α)}
    (read : wrapActions line (Block.take isActionLine rest) = .ok actions) :
    ∃ closer, rest = (Block.take isActionLine rest).body ++ [closer] ++
        rest.drop (Block.take isActionLine rest).size ∧
      (∀ line ∈ (Block.take isActionLine rest).body, isActionLine line = true) ∧
      closer.words = ["parw"] ∧
      List.Forall₂ Action.From actions
        ((Block.take isActionLine rest).body.map fun line => (line, 0)) := by
  obtain ⟨found, mapped, read⟩ := ok_bind_iff.1 read
  split at read
  · cases read
  next closer closed =>
  split at read
  · cases read
  next keyword =>
  split at read
  · cases read
  next bare =>
  cases read
  obtain ⟨split, inside, _⟩ := Block.take_split closed
  refine ⟨closer, split, inside, ?_, ?_⟩
  · rw [Line.words, Decidable.not_not.1 keyword]
    simpa using bare
  · rw [List.forall₂_map_right_iff]
    exact (forall₂_of_mapM_ok mapped).imp fun action line read => from_of_actionOf read

theorem sequential_iff {words : List String} (single : words ≠ ["wrap"]) :
    GroupMode.sequential = .parallel ↔ words = ["wrap"] := by
  constructor
  · intro same
    cases same
  · intro wrap
    exact absurd wrap single

theorem release_of_groupOf {line : Line} {rest : List Line} {group : ActionGroup α} {taken : Nat}
    (read : groupOf line line.triggerWidth rest = .ok (group, taken)) :
    ∃ release : Release, rest = release.lines ++ rest.drop taken ∧ release.Fits line.released ∧
      List.Forall₂ Action.From group.actions (release.actions line) ∧
      (group.mode = .parallel ↔ line.released = ["wrap"]) := by
  rw [groupOf.eq_def] at read
  split at read
  · next wrap =>
    obtain ⟨actions, wrapped, read⟩ := ok_bind_iff.1 read
    cases read
    obtain ⟨closer, split, inside, closed, each⟩ := split_of_wrapActions wrapped
    exact ⟨.block _ closer, split, ⟨wrap, inside, closed⟩, each, iff_of_true rfl wrap⟩
  · next first further other behind =>
    obtain ⟨action, inline, read⟩ := ok_bind_iff.1 read
    cases read
    have released : line.released = first :: further := behind
    have single : line.released ≠ ["wrap"] := by
      intro wrap
      obtain ⟨same, alone⟩ := List.cons.inj (released.symm.trans wrap)
      exact other same alone
    have filled : line.released ≠ [] := released ▸ List.cons_ne_nil _ _
    exact ⟨.inline, rfl, ⟨filled, single⟩, .cons (from_of_actionOf inline) .nil,
      sequential_iff single⟩
  · next behind =>
    cases rest with
    | nil => cases read
    | cons next further =>
      obtain ⟨action, following, read⟩ := ok_bind_iff.1 read
      cases read
      have released : line.released = [] := behind
      have action := isActionLine_of_actionOf (ok_mapError_iff.1 following)
      have single : line.released ≠ ["wrap"] := by
        rw [released]
        exact (List.cons_ne_nil _ _).symm
      exact ⟨.below next, rfl, ⟨released, action⟩, .cons (from_of_actionOf following) .nil,
        sequential_iff single⟩

theorem from_of_cueOf {order : Nat} {line : Line} {rest : List Line} {cue : Cue α} {taken : Nat}
    (read : cueOf order line rest = .ok (cue, taken)) :
    ∃ release : Release, rest = release.lines ++ rest.drop taken ∧ release.Fits line.released ∧
      cue.From (line, release) := by
  obtain ⟨⟨trigger, offset⟩, found, read⟩ := ok_bind_iff.1 read
  obtain ⟨⟨group, n⟩, grouped, read⟩ := ok_bind_iff.1 read
  cases read
  have trigger := ok_mapError_iff.1 found
  obtain rfl := width_of_triggerOf trigger
  obtain ⟨release, split, fits, actions, parallel⟩ := release_of_groupOf grouped
  exact ⟨release, split, fits, rfl, trigger, actions, parallel⟩

/-! Whole scripts -/

/-- What has been read so far is what these constructs say. -/
structure Draft.Accounts (origin : Library) (constructs : List Construct) (draft : Draft α)
    (library : Library) : Prop where
  formed : ∀ construct ∈ constructs, construct.WellFormed
  statements : List.Forall₂ Statement.From draft.statements
    (constructs.filterMap Construct.statement?)
  cues : List.Forall₂ Cue.From draft.cues (constructs.filterMap Construct.cue?)
  templates : ∃ templates, library = origin.enter templates ∧
    List.Forall₂ Template.From templates (constructs.filterMap Construct.template?) ∧
    (templates.map Template.name).Nodup

theorem Draft.Accounts.same_templates {origin : Library} {constructs : List Construct}
    {draft : Draft α} {library : Library} (accounts : draft.Accounts origin constructs library)
    {construct : Construct} (none : construct.template? = none) :
    ∃ templates, library = origin.enter templates ∧
      List.Forall₂ Template.From templates
        ((constructs ++ [construct]).filterMap Construct.template?) ∧
      (templates.map Template.name).Nodup := by
  obtain ⟨templates, entered, each, distinct⟩ := accounts.templates
  exact ⟨templates, entered, forall₂_skip each none, distinct⟩

theorem Draft.Accounts.step {origin : Library} {constructs : List Construct}
    {draft draft' : Draft α} {line : Line} {rest : List Line} {library library' : Library}
    {taken : Nat} (accounts : draft.Accounts origin constructs library)
    (reads : draft.Reads line rest library draft' taken library') :
    ∃ construct : Construct, line :: rest = construct.lines ++ rest.drop taken ∧
      draft'.Accounts origin (constructs ++ [construct]) library' := by
  have formed {construct : Construct} (form : construct.WellFormed) :
      ∀ other ∈ constructs ++ [construct], other.WellFormed := by
    intro other member
    rcases List.mem_append.1 member with before | last
    · exact accounts.formed other before
    · obtain rfl := List.mem_singleton.1 last
      exact form
  cases reads with
  | template keyword closed read free =>
    obtain ⟨closer, split, inside, closed⟩ := templateBlock_split closed
    obtain ⟨templates, rfl, each, distinct⟩ := accounts.templates
    refine ⟨.template line _ closer, congrArg (line :: ·) split, formed ⟨keyword, inside, closed⟩,
      forall₂_skip accounts.statements rfl, forall₂_skip accounts.cues rfl, templates ++ [_],
      (origin.enter_append templates _).symm, forall₂_take each rfl read, ?_⟩
    rw [List.map_append, List.map_singleton, List.nodup_append_comm, List.singleton_append,
      List.nodup_cons]
    refine ⟨fun taken => ?_, distinct⟩
    -- A template of the script itself may not be replaced.
    obtain ⟨existing, member, known⟩ := origin.get?_enter taken
    have standard := free existing known
    rw [own_of_forall₂ each existing member] at standard
    cases standard
  | node keyword read =>
    exact ⟨.statement line, rfl, formed (.inl keyword),
      forall₂_take accounts.statements rfl (from_of_nodeOf keyword read),
      forall₂_skip accounts.cues rfl, accounts.same_templates rfl⟩
  | plug keyword read =>
    exact ⟨.statement line, rfl, formed (.inr keyword),
      forall₂_take accounts.statements rfl (from_of_plugOf keyword read),
      forall₂_skip accounts.cues rfl, accounts.same_templates rfl⟩
  | cue keyword read =>
    obtain ⟨release, split, fits, reading⟩ := from_of_cueOf read
    exact ⟨.cue line release, congrArg (line :: ·) split, formed ⟨keyword, fits⟩,
      forall₂_skip accounts.statements rfl, forall₂_take accounts.cues rfl reading,
      accounts.same_templates rfl⟩

theorem accounts_of_readAll {draft : Draft α} {lines : List Line} {library library' : Library}
    (returned : ((Draft.start : Draft α).readAll lines).Returns library draft library') :
    ∃ constructs : List Construct, lines = constructs.flatMap Construct.lines ∧
      draft.Accounts library constructs library' := by
  have whole := Draft.readAll_preserves (P := fun draft library' left =>
    ∃ constructs : List Construct, lines = constructs.flatMap Construct.lines ++ left ∧
      draft.Accounts library constructs library') ?_ ?_ returned
  · obtain ⟨constructs, split, accounts⟩ := whole
    exact ⟨constructs, by simpa using split, accounts⟩
  · rintro draft draft' line rest between after taken ⟨constructs, split, accounts⟩ reads
    obtain ⟨construct, taken, accounts⟩ := accounts.step reads
    refine ⟨constructs ++ [construct], ?_, accounts⟩
    rw [split, taken]
    simp
  · refine ⟨[], rfl, List.forall_mem_nil _, .nil, .nil, [], rfl, .nil, List.nodup_nil⟩

/-! There is but one way -/

/-- Where a block ends is settled by the first line that does not belong to it. -/
theorem block_unique {P : Line → Prop} {body body' left left' : List Line} {closer closer' : Line}
    (inside : ∀ line ∈ body, P line) (inside' : ∀ line ∈ body', P line) (outside : ¬P closer)
    (outside' : ¬P closer') (same : body ++ [closer] ++ left = body' ++ [closer'] ++ left') :
    body = body' ∧ closer = closer' ∧ left = left' := by
  induction body generalizing body' with
  | nil =>
    cases body' with
    | nil =>
      obtain ⟨closers, lefts⟩ := List.cons.inj same
      exact ⟨rfl, closers, lefts⟩
    | cons first rest =>
      obtain ⟨rfl, _⟩ := List.cons.inj same
      exact absurd (inside' closer List.mem_cons_self) outside
  | cons first rest ih =>
    cases body' with
    | nil =>
      obtain ⟨rfl, _⟩ := List.cons.inj same
      exact absurd (inside first List.mem_cons_self) outside'
    | cons first' rest' =>
      obtain ⟨rfl, behind⟩ := List.cons.inj same
      obtain ⟨rfl, closers, lefts⟩ := ih (List.forall_mem_cons.1 inside).2
        (List.forall_mem_cons.1 inside').2 behind
      exact ⟨rfl, closers, lefts⟩

theorem Release.unique {release release' : Release} {words : List String} {left left' : List Line}
    (fits : release.Fits words) (fits' : release'.Fits words)
    (same : release.lines ++ left = release'.lines ++ left') : release = release' ∧ left = left' := by
  cases release with
  | inline =>
    cases release' with
    | inline => exact ⟨rfl, same⟩
    | below => exact absurd fits'.1 fits.1
    | block => exact absurd fits'.1 fits.2
  | below line =>
    cases release' with
    | inline => exact absurd fits.1 fits'.1
    | below =>
      obtain ⟨rfl, rfl⟩ := List.cons.inj same
      exact ⟨rfl, rfl⟩
    | block => exact absurd (fits.1.symm.trans fits'.1) nofun
  | block body closer =>
    obtain ⟨wrap, inside, closed⟩ := fits
    cases release' with
    | inline => exact absurd wrap fits'.2
    | below => exact absurd (fits'.1.symm.trans wrap) nofun
    | block body' closer' =>
      obtain ⟨_, inside', closed'⟩ := fits'
      have outside {closer : Line} (closed : closer.words = ["parw"]) :
          ¬isActionLine closer = true := by
        simp [isActionLine, (List.cons.inj closed).1]
      obtain ⟨rfl, rfl, rfl⟩ := block_unique inside inside' (outside closed) (outside closed') same
      exact ⟨rfl, rfl⟩

theorem Construct.unique {c c' : Construct} {left left' : List Line} (formed : c.WellFormed)
    (formed' : c'.WellFormed) (same : c.lines ++ left = c'.lines ++ left') :
    c = c' ∧ left = left' := by
  -- The first line is that of both, and its keyword tells what construct it is.
  cases c with
  | statement line =>
    cases c' with
    | statement =>
      obtain ⟨rfl, rfl⟩ := List.cons.inj same
      exact ⟨rfl, rfl⟩
    | template | cue =>
      obtain ⟨rfl, _⟩ := List.cons.inj same
      exact absurd formed (by simp [WellFormed, formed'.1])
  | template header body closer =>
    cases c' with
    | statement | cue =>
      obtain ⟨rfl, _⟩ := List.cons.inj same
      exact absurd formed' (by simp [WellFormed, formed.1])
    | template header' body' closer' =>
      obtain ⟨rfl, behind⟩ := List.cons.inj same
      obtain ⟨_, inside, closed⟩ := formed
      obtain ⟨_, inside', closed'⟩ := formed'
      have outside {closer : Line} (closed : closer.words = ["war"]) : ¬closer.keyword ≠ "war" :=
        fun other => other (List.cons.inj closed).1
      obtain ⟨rfl, rfl, rfl⟩ := block_unique inside inside' (outside closed) (outside closed') behind
      exact ⟨rfl, rfl⟩
  | cue line release =>
    cases c' with
    | statement | template =>
      obtain ⟨rfl, _⟩ := List.cons.inj same
      exact absurd formed' (by simp [WellFormed, formed.1])
    | cue =>
      obtain ⟨rfl, behind⟩ := List.cons.inj same
      obtain ⟨rfl, rfl⟩ := Release.unique formed.2 formed'.2 behind
      exact ⟨rfl, rfl⟩

theorem constructs_unique {constructs others : List Construct}
    (formed : ∀ c ∈ constructs, c.WellFormed) (formed' : ∀ c ∈ others, c.WellFormed)
    (same : constructs.flatMap Construct.lines = others.flatMap Construct.lines) :
    constructs = others := by
  have filled (c : Construct) : c.lines ≠ [] := by cases c <;> exact List.cons_ne_nil _ _
  induction constructs generalizing others with
  | nil =>
    cases others with
    | nil => rfl
    | cons c rest => exact absurd (List.append_eq_nil_iff.1 same.symm).1 (filled c)
  | cons c rest ih =>
    cases others with
    | nil => exact absurd (List.append_eq_nil_iff.1 same).1 (filled c)
    | cons c' rest' =>
      obtain ⟨here, there⟩ := List.forall_mem_cons.1 formed
      obtain ⟨here', there'⟩ := List.forall_mem_cons.1 formed'
      obtain ⟨rfl, behind⟩ := Construct.unique here here' same
      rw [ih there there' behind]

/-! Programs -/

theorem sublist_statements (constructs : List Construct) :
    (constructs.filterMap Construct.statement?).Sublist (constructs.flatMap Construct.lines) := by
  induction constructs with
  | nil => exact .slnil
  | cons c rest ih =>
    rw [List.flatMap_cons]
    cases c with
    | statement line => exact ih.cons_cons line
    | template | cue => exact ih.trans (List.sublist_append_right _ _)

end Script

open Script in
/-- Every significant line of a script that compiles belongs to one construct, and there is one way only
to tell the constructs apart. The program has what they say in their order: the statements, whose lines
are further and further down, the cues, which are numbered, and a template for each definition. -/
theorem lines_fall_into_constructs {script : String} {library after : Library} {p : Program α}
    (returned : (compile script).Returns library p after) :
    ∃ constructs : List Construct, linesOf script = constructs.flatMap Construct.lines ∧
      (∀ construct ∈ constructs, construct.WellFormed) ∧
      (∀ others : List Construct, linesOf script = others.flatMap Construct.lines →
        (∀ construct ∈ others, construct.WellFormed) → others = constructs) ∧
      List.Forall₂ Statement.From p.statements (constructs.filterMap Construct.statement?) ∧
      (p.statements.map Statement.line).Pairwise (· < ·) ∧
      List.Forall₂ Cue.From p.cues (constructs.filterMap Construct.cue?) ∧
      p.cues.map Cue.order = List.range p.cues.length ∧
      ∃ templates, List.Forall₂ Template.From templates (constructs.filterMap Construct.template?) ∧
        (templates.map Template.name).Nodup ∧ p.templates = library.enter templates ∧
        after = p.templates := by
  have numbered := (sound_of_compile returned).numbered
  obtain ⟨draft, read, rfl⟩ := returns_compile_iff.1 returned
  obtain ⟨constructs, split, accounts⟩ := accounts_of_readAll read
  obtain ⟨templates, entered, each, distinct⟩ := accounts.templates
  refine ⟨constructs, split, accounts.formed, fun others split' formed => ?_, accounts.statements, ?_,
    accounts.cues, numbered, templates, each, distinct, entered, rfl⟩
  · exact constructs_unique formed accounts.formed (split'.symm.trans split)
  · have lines : List.Forall₂ (· = ·) (draft.statements.map Statement.line)
        ((constructs.filterMap Construct.statement?).map Line.number) := by
      rw [List.forall₂_map_left_iff, List.forall₂_map_right_iff]
      exact accounts.statements.imp fun _ _ reading => reading.line
    rw [List.forall₂_eq_eq_eq] at lines
    show (draft.statements.map Statement.line).Pairwise (· < ·)
    rw [lines, List.pairwise_map]
    apply List.Pairwise.sublist _ (pairwise_linesOf script)
    rw [split]
    exact sublist_statements constructs

namespace Script.Sample

def score : String :=
  "raw w 0 fakesrc name=s\ns freq int $1=440\nwar\nnew w a 880\n// cues\non pre wrap\n" ++
  "act a play start\nact a seek 1 2\nparw\non progress a 0.5\nact a play pause\n" ++
  "on callback a end act a play stop\n"

def passages : List Construct :=
  match linesOf score with
  | [header, binding, war, node, opening, first, second, parw, halfway, pause, ending] =>
    [.template header [binding] war, .statement node, .cue opening (.block [first, second] parw),
      .cue halfway (.below pause), .cue ending .inline]
  | _ => []

end Script.Sample

open Script in
theorem lines_fall_into_constructs_sample :
    Sample.passages.map (fun construct => construct.lines.map Line.number) =
        [[1, 2, 3], [4], [6, 7, 8, 9], [10, 11], [12]] ∧
      ∃ (p : Program ℚ) (after : Library), (compile Sample.score).Returns .empty p after ∧
        linesOf Sample.score = Sample.passages.flatMap Construct.lines ∧
        (∀ construct ∈ Sample.passages, construct.WellFormed) ∧
        List.Forall₂ Statement.From p.statements
          (Sample.passages.filterMap Construct.statement?) ∧
        (p.statements.map Statement.line).Pairwise (· < ·) ∧
        List.Forall₂ Cue.From p.cues (Sample.passages.filterMap Construct.cue?) ∧
        p.cues.map Cue.order = List.range p.cues.length ∧
        ∃ templates, List.Forall₂ Template.From templates
            (Sample.passages.filterMap Construct.template?) ∧
          (templates.map Template.name).Nodup ∧ p.templates = Library.enter .empty templates ∧
          after = p.templates := by
  have checks : ((compile Sample.score : Act Library (Program ℚ)).eval .empty).1.isOk = true ∧
      linesOf Sample.score = Sample.passages.flatMap Construct.lines ∧
      (∀ construct ∈ Sample.passages, construct.WellFormed) ∧
      Sample.passages.map (fun construct => construct.lines.map Line.number) =
        [[1, 2, 3], [4], [6, 7, 8, 9], [10, 11], [12]] := by
    decide +kernel
  obtain ⟨ok, lines, formed, numbers⟩ := checks
  obtain ⟨p, returned⟩ := Act.exists_returns_of_isOk ok
  obtain ⟨constructs, split, formed', unique, parts⟩ := lines_fall_into_constructs returned
  obtain rfl := unique Sample.passages lines formed
  exact ⟨numbers, p, _, returned, lines, formed, parts⟩

end ShowControl
