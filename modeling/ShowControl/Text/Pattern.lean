/-! Regular patterns, which a text matches as a whole.

A pattern is tested one character at a time: what is to follow behind a character is a pattern again.
Main statement: this finds exactly the texts that match. -/

set_option autoImplicit false
namespace ShowControl.Text

inductive Pattern where
  | never
  | nothing
  | char (p : Char → Bool)
  | seq (first second : Pattern)
  | either (first second : Pattern)
  | many (each : Pattern)

namespace Pattern

def word (s : String) : Pattern := s.toList.foldr (fun c rest => seq (char (· == c)) rest) nothing

def chain (parts : List Pattern) : Pattern := parts.foldr seq nothing

def oneOf (choices : List Pattern) : Pattern := choices.foldr either never

def optional (p : Pattern) : Pattern := either nothing p

def some (p : Pattern) : Pattern := seq p (many p)

def letter (s : String) : Pattern := char s.toList.contains

def digit : Pattern := char Char.isDigit

def matchesEmpty : Pattern → Bool
  | never | char _ => false
  | nothing | many _ => true
  | seq a b => a.matchesEmpty && b.matchesEmpty
  | either a b => a.matchesEmpty || b.matchesEmpty

/-- One pattern behind another, where a side that adds nothing is left out. -/
def behind : Pattern → Pattern → Pattern
  | never, _ => never
  | nothing, b => b
  | a, b => seq a b

def or : Pattern → Pattern → Pattern
  | never, b => b
  | a, never => a
  | a, b => either a b

def after (c : Char) : Pattern → Pattern
  | never | nothing => never
  | char p => if p c then nothing else never
  | seq a b =>
    let rest := behind (a.after c) b
    if a.matchesEmpty then or rest (b.after c) else rest
  | either a b => or (a.after c) (b.after c)
  | many a => behind (a.after c) (many a)

def admits (p : Pattern) (cs : List Char) : Bool :=
  (cs.foldl (fun p c => p.after c) p).matchesEmpty

inductive Matches : Pattern → List Char → Prop where
  | nothing : Matches nothing []
  | char {p : Char → Bool} {c : Char} : p c = true → Matches (char p) [c]
  | seq {a b : Pattern} {s t : List Char} : Matches a s → Matches b t → Matches (seq a b) (s ++ t)
  | left {a b : Pattern} {s : List Char} : Matches a s → Matches (either a b) s
  | right {a b : Pattern} {s : List Char} : Matches b s → Matches (either a b) s
  | none {a : Pattern} : Matches (many a) []
  | more {a : Pattern} {s t : List Char} : Matches a s → Matches (many a) t →
      Matches (many a) (s ++ t)

theorem not_matches_never (s : List Char) : ¬ Matches never s := nofun

theorem matches_nothing_iff {s : List Char} : Matches nothing s ↔ s = [] :=
  ⟨fun | .nothing => rfl, fun h => h ▸ .nothing⟩

theorem matches_seq_iff {a b : Pattern} {s : List Char} :
    Matches (seq a b) s ↔ ∃ t u, Matches a t ∧ Matches b u ∧ s = t ++ u := by
  constructor
  · rintro (_ | _ | ⟨ha, hb⟩)
    exact ⟨_, _, ha, hb, rfl⟩
  · rintro ⟨t, u, ha, hb, rfl⟩
    exact .seq ha hb

theorem matches_either_iff {a b : Pattern} {s : List Char} :
    Matches (either a b) s ↔ Matches a s ∨ Matches b s := by
  constructor
  · rintro (_ | _ | _ | h | h)
    · exact .inl h
    · exact .inr h
  · rintro (h | h)
    · exact .left h
    · exact .right h

theorem matches_behind_iff {a b : Pattern} {s : List Char} :
    Matches (behind a b) s ↔ Matches (seq a b) s := by
  unfold behind
  split
  · simp [matches_seq_iff, not_matches_never]
  · simp [matches_seq_iff, matches_nothing_iff]
  · rfl

theorem matches_or_iff {a b : Pattern} {s : List Char} :
    Matches (or a b) s ↔ Matches (either a b) s := by
  unfold or
  split
  · simp [matches_either_iff, not_matches_never]
  · simp [matches_either_iff, not_matches_never]
  · rfl

theorem matchesEmpty_iff {p : Pattern} : p.matchesEmpty = true ↔ Matches p [] := by
  induction p with
  | never => simp [matchesEmpty, not_matches_never]
  | nothing => simp [matchesEmpty, matches_nothing_iff]
  | char p => exact ⟨nofun, nofun⟩
  | seq a b iha ihb => simp [matchesEmpty, matches_seq_iff, iha, ihb]
  | either a b iha ihb => simp [matchesEmpty, matches_either_iff, iha, ihb]
  | many a => simp [matchesEmpty, Matches.none]

theorem matches_many_cons_iff {a : Pattern} {c : Char} {s : List Char} :
    Matches (many a) (c :: s) ↔ ∃ t u, Matches a (c :: t) ∧ Matches (many a) u ∧ s = t ++ u := by
  constructor
  · generalize hp : many a = p
    generalize hs : c :: s = text
    intro h
    induction h with
    | @more _ t u first rest _ ih =>
      cases hp
      cases t with
      | nil => exact ih rfl hs
      | cons d t =>
        obtain ⟨rfl, rfl⟩ : c = d ∧ s = t ++ u := by simpa using hs
        exact ⟨t, u, first, rest, rfl⟩
    | _ => simp_all
  · rintro ⟨t, u, first, rest, rfl⟩
    exact .more first rest

theorem matches_after_iff {p : Pattern} {c : Char} {s : List Char} :
    Matches (p.after c) s ↔ Matches p (c :: s) := by
  induction p generalizing s with
  | never => exact ⟨nofun, nofun⟩
  | nothing => exact ⟨nofun, nofun⟩
  | char p =>
    unfold after
    split
    · next h =>
      rw [matches_nothing_iff]
      exact ⟨fun same => same ▸ .char h, fun | .char _ => rfl⟩
    · next h => exact ⟨nofun, fun | .char same => absurd same h⟩
  | seq a b iha ihb =>
    have first : Matches (behind (a.after c) b) s ↔
        ∃ t u, Matches a (c :: t) ∧ Matches b u ∧ s = t ++ u := by
      simp [matches_behind_iff, matches_seq_iff, iha]
    have all : Matches (seq a b) (c :: s) ↔ Matches (behind (a.after c) b) s ∨
        (a.matchesEmpty = true ∧ Matches (b.after c) s) := by
      rw [first, matchesEmpty_iff, ihb, matches_seq_iff]
      constructor
      · rintro ⟨t, u, ha, hb, same⟩
        cases t with
        | nil => exact .inr ⟨ha, by simp_all⟩
        | cons d t =>
          obtain ⟨rfl, rfl⟩ : c = d ∧ s = t ++ u := by simpa using same
          exact .inl ⟨t, u, ha, hb, rfl⟩
      · rintro (⟨t, u, ha, hb, rfl⟩ | ⟨ha, hb⟩)
        · exact ⟨c :: t, u, ha, hb, rfl⟩
        · exact ⟨[], c :: s, ha, hb, rfl⟩
    rw [all]
    simp only [after]
    split
    · next h => simp [matches_or_iff, matches_either_iff, h]
    · next h => simp [h]
  | either a b iha ihb => simp [after, matches_or_iff, matches_either_iff, iha, ihb]
  | many a ih => simp [after, matches_behind_iff, matches_seq_iff, matches_many_cons_iff, ih]

/-- A pattern admits the texts that it describes and no others. -/
theorem admits_iff {p : Pattern} {cs : List Char} : p.admits cs = true ↔ Matches p cs := by
  unfold admits
  induction cs generalizing p with
  | nil => exact matchesEmpty_iff
  | cons c cs ih => exact ih.trans matches_after_iff

end Pattern

end ShowControl.Text
