import ShowControl.Proofs.Script.Reading
import ShowControl.Proofs.Script.Timeline

/-! What holds of every program that a script compiles to.

Cues get their numbers one after the other, whatever stands between them, and every threshold is read
from a numeral. -/

set_option autoImplicit false
namespace ShowControl

variable {α : Type} [Number α]

/-- The program comes from a script, with any templates known beforehand. -/
def Program.Compiled (p : Program α) : Prop :=
  ∃ script library library', (Script.compile script).Returns library p library'

namespace Script

theorem comparable_of_numberOf [Number.Ordered α] {what word : String} {x : α}
    (read : numberOf what word = .ok x) : Number.Comparable x := by
  simp only [numberOf] at read
  split at read
  · cases read
  · split at read
    · cases read
    · next found =>
      cases read
      exact Number.Ordered.comparable_of_numeral found

theorem comparable_of_triggerOf [Number.Ordered α] {words : List String} {clock : String}
    {threshold : α} {n : Nat} (read : triggerOf words = .ok (.progress clock threshold, n)) :
    Number.Comparable threshold := by
  simp only [triggerOf] at read
  split at read
  · cases read
  · obtain ⟨x, number, read⟩ := ok_bind_iff.1 read
    split at read
    · cases read
    · cases read
      exact comparable_of_numberOf number
  all_goals cases read

theorem cueOf_ok {order : Nat} {line : Line} {rest : List Line} {cue : Cue α} {taken : Nat}
    (read : cueOf order line rest = .ok (cue, taken)) :
    cue.order = order ∧ ∃ offset, triggerOf line.operands = .ok (cue.trigger, offset) := by
  obtain ⟨⟨trigger, offset⟩, found, read⟩ := ok_bind_iff.1 read
  obtain ⟨_, _, read⟩ := ok_bind_iff.1 read
  cases read
  exact ⟨rfl, offset, ok_mapError_iff.1 found⟩

/-- The cues read so far have the numbers of their places, and their triggers have been read. -/
structure Draft.Sound (draft : Draft α) : Prop where
  numbered : draft.cues.map Cue.order = List.range draft.cues.length
  read : ∀ cue ∈ draft.cues, ∃ words offset, triggerOf words = .ok (cue.trigger, offset)

theorem Draft.sound_start : (Draft.start : Draft α).Sound where
  numbered := rfl
  read _ member := nomatch member

theorem Draft.Sound.add {draft : Draft α} (sound : draft.Sound) {line : Line} {rest : List Line}
    {cue : Cue α} {taken : Nat} (read : cueOf draft.cues.length line rest = .ok (cue, taken)) :
    Draft.Sound { draft with cues := draft.cues ++ [cue] } := by
  obtain ⟨order, offset, trigger⟩ := cueOf_ok read
  constructor
  · simp [sound.numbered, order, List.range_succ]
  · intro other member
    rcases List.mem_append.1 member with before | last
    · exact sound.read other before
    · obtain rfl := List.mem_singleton.1 last
      exact ⟨line.operands, offset, trigger⟩

theorem Draft.Sound.step {draft draft' : Draft α} (sound : draft.Sound) {line : Line}
    {rest : List Line} {library library' : Library} {taken : Nat}
    (reads : draft.Reads line rest library draft' taken library') : draft'.Sound := by
  cases reads with
  | template => exact sound
  | node | plug => exact ⟨sound.numbered, sound.read⟩
  | cue keyword read => exact sound.add read

theorem sound_of_compile {script : String} {p : Program α} {library library' : Library}
    (returned : (compile script).Returns library p library') :
    Draft.Sound ⟨p.statements, p.cues⟩ := by
  obtain ⟨draft, read, rfl⟩ := returns_compile_iff.1 returned
  exact Draft.readAll_preserves (P := fun draft _ _ => draft.Sound)
    (fun sound reads => sound.step reads) Draft.sound_start read

end Script

theorem Program.Compiled.numbered {p : Program α} (compiled : p.Compiled) : p.Numbered := by
  obtain ⟨script, library, library', returned⟩ := compiled
  exact (Script.sound_of_compile returned).numbered

theorem Program.Compiled.comparable [Number.Ordered α] {p : Program α} (compiled : p.Compiled) :
    p.Comparable := by
  obtain ⟨script, library, library', returned⟩ := compiled
  intro cue member clock threshold timed
  obtain ⟨words, offset, trigger⟩ := (Script.sound_of_compile returned).read cue member
  exact Script.comparable_of_triggerOf (timed ▸ trigger)

/-- The program of a script that needs no templates but its own; empty if it does not compile. -/
def Script.programOf (script : String) : Program α :=
  match ((compile script).eval .empty).1 with
  | .ok program => program
  | .error _ => ⟨.empty, [], []⟩

theorem Script.compiled_programOf {script : String}
    (ok : ((compile script : Act Library (Program α)).eval .empty).1.isOk = true) :
    (programOf script : Program α).Compiled := by
  refine ⟨script, .empty, ((compile script : Act Library (Program α)).eval .empty).2, ?_⟩
  rw [Act.Returns, programOf]
  generalize (compile script : Act Library (Program α)).eval .empty = outcome at ok
  rcases outcome with ⟨_ | _, library⟩
  · cases ok
  · rfl

end ShowControl
