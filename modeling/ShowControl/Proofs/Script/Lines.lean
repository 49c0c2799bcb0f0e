import Mathlib.Data.List.Induction
import ShowControl.Script.Line

/-! The lines of a script that is put together from two, and of one that is cut in two.

Of two scripts that are put together, the first one ends with a line feed, so that its last line stays
a line of its own; the lines of the second one are the same further down. A script may be cut in front
of any line. -/

set_option autoImplicit false
namespace ShowControl

namespace Text

theorem lineChars_cons {c : Char} {rest : List Char}
    (single : ¬(c = '\r' ∧ rest.head? = some '\n')) :
    lineChars (c :: rest) =
      if isLineBreak c then [] :: lineChars rest
      else match lineChars rest with
        | [] => [[c]]
        | line :: lines => (c :: line) :: lines := by
  refine lineChars.eq_3 c rest ?_
  rintro rest' rfl rfl
  exact single ⟨rfl, rfl⟩

/-- A carriage return in front of a line feed adds nothing to it. -/
theorem lineChars_joined {c : Char} {rest : List Char}
    (joined : c = '\r' ∧ rest.head? = some '\n') : lineChars (c :: rest) = lineChars rest := by
  obtain ⟨rfl, head⟩ := joined
  obtain ⟨rest, rfl⟩ := List.head?_eq_some_iff.1 head
  rfl

theorem lineChars_ne_nil {cs : List Char} (filled : cs ≠ []) : lineChars cs ≠ [] := by
  rw [lineChars.eq_def]
  split
  · exact absurd rfl filled
  · exact List.cons_ne_nil _ _
  · split
    · exact List.cons_ne_nil _ _
    · split <;> exact List.cons_ne_nil _ _

/-- A line feed ends its line whatever stands behind it. -/
theorem lineChars_append (front back : List Char) :
    lineChars (front ++ '\n' :: back) = lineChars (front ++ ['\n']) ++ lineChars back := by
  induction front with
  | nil => rfl
  | cons c rest ih =>
    have head : (rest ++ '\n' :: back).head? = (rest ++ ['\n']).head? := by cases rest <;> rfl
    rw [List.cons_append, List.cons_append]
    by_cases joined : c = '\r' ∧ (rest ++ ['\n']).head? = some '\n'
    · rw [lineChars_joined (head ▸ joined), lineChars_joined joined, ih]
    · rw [lineChars_cons (head ▸ joined), lineChars_cons joined, ih]
      split
      · rfl
      -- The rest has a line, which takes in the character.
      · obtain ⟨line, lines, split⟩ :=
          List.exists_cons_of_ne_nil (lineChars_ne_nil (List.concat_ne_nil '\n' rest))
        rw [split]
        rfl

theorem lineChars_of_plain {cs : List Char} (plain : ∀ c ∈ cs, isLineBreak c = false) :
    lineChars (cs ++ ['\n']) = [cs] := by
  induction cs with
  | nil => rfl
  | cons c rest ih =>
    obtain ⟨first, others⟩ := List.forall_mem_cons.1 plain
    have single : ¬(c = '\r' ∧ (rest ++ ['\n']).head? = some '\n') := by
      rintro ⟨rfl, -⟩
      cases first
    rw [List.cons_append, lineChars_cons single, ih others, if_neg (by simp [first])]

theorem lines_of_plain {s : String} (plain : ∀ c ∈ s.toList, isLineBreak c = false) :
    lines (s ++ "\n") = [s] := by
  rw [lines, String.toList_append]
  show (lineChars (s.toList ++ ['\n'])).map String.ofList = _
  rw [lineChars_of_plain plain, List.map_singleton, String.ofList_toList]

theorem lines_append {a : String} (ends : a.toList.getLast? = some '\n') (b : String) :
    lines (a ++ b) = lines a ++ lines b := by
  obtain ⟨front, split⟩ := List.getLast?_eq_some_iff.1 ends
  rw [lines, lines, lines, String.toList_append, split, List.append_assoc, List.singleton_append,
    lineChars_append, List.map_append]

/-- The characters may be cut in front of the line that stands below `n` others. -/
def Cut (cs : List Char) (n : Nat) : Prop :=
  ∃ front back, cs = front ++ back ∧ lineChars front = (lineChars cs).take n ∧
    lineChars back = (lineChars cs).drop n

section Cut

variable {c : Char} {rest : List Char} {n : Nat}

theorem cut_joined (joined : c = '\r' ∧ rest.head? = some '\n') (filled : lineChars rest ≠ [])
    (cut : Cut rest (n + 1)) : Cut (c :: rest) (n + 1) := by
  obtain ⟨front, back, rfl, upper, lower⟩ := cut
  rw [Cut, lineChars_joined joined]
  refine ⟨c :: front, back, rfl, ?_, lower⟩
  -- The line feed stands above the cut, with the carriage return in front of it.
  cases front with
  | nil => exact absurd ((List.take_eq_nil_iff.1 upper.symm).resolve_left n.succ_ne_zero) filled
  | cons d front =>
    have same : c = '\r' ∧ (d :: front).head? = some '\n' := joined
    rw [lineChars_joined same, upper]

theorem single_of_append {front back : List Char} (split : rest = front ++ back)
    (single : ¬(c = '\r' ∧ rest.head? = some '\n')) :
    ¬(c = '\r' ∧ front.head? = some '\n') := by
  rintro ⟨rfl, head⟩
  obtain ⟨front, rfl⟩ := List.head?_eq_some_iff.1 head
  exact single ⟨rfl, split ▸ rfl⟩

theorem cut_break (single : ¬(c = '\r' ∧ rest.head? = some '\n')) (breaks : isLineBreak c = true)
    (cut : Cut rest n) : Cut (c :: rest) (n + 1) := by
  obtain ⟨front, back, split, upper, lower⟩ := cut
  rw [Cut, lineChars_cons single, if_pos breaks]
  refine ⟨c :: front, back, congrArg (c :: ·) split, ?_, lower⟩
  rw [lineChars_cons (single_of_append split single), if_pos breaks, upper]
  rfl

theorem cut_plain (single : ¬(c = '\r' ∧ rest.head? = some '\n')) (plain : ¬isLineBreak c = true)
    (filled : lineChars rest ≠ []) (cut : Cut rest (n + 1)) : Cut (c :: rest) (n + 1) := by
  obtain ⟨front, back, split, upper, lower⟩ := cut
  obtain ⟨line, lines, first⟩ := List.exists_cons_of_ne_nil filled
  rw [first] at upper lower
  rw [Cut, lineChars_cons single, if_neg plain, first]
  refine ⟨c :: front, back, congrArg (c :: ·) split, ?_, lower⟩
  rw [lineChars_cons (single_of_append split single), if_neg plain, upper]
  rfl

end Cut

/-- Characters may be cut in front of any of their lines. -/
theorem cut_of_le {cs : List Char} {n : Nat} (within : n ≤ (lineChars cs).length) : Cut cs n := by
  induction cs generalizing n with
  | nil =>
    obtain rfl : n = 0 := Nat.le_zero.1 within
    exact ⟨[], [], rfl, rfl, rfl⟩
  | cons c rest ih =>
    cases n with
    | zero => exact ⟨[], c :: rest, rfl, rfl, rfl⟩
    | succ n =>
      by_cases joined : c = '\r' ∧ rest.head? = some '\n'
      · rw [lineChars_joined joined] at within
        exact cut_joined joined (List.ne_nil_of_length_pos (by omega)) (ih within)
      by_cases breaks : isLineBreak c = true
      · rw [lineChars_cons joined, if_pos breaks] at within
        exact cut_break joined breaks (ih (Nat.le_of_succ_le_succ within))
      rw [lineChars_cons joined, if_neg breaks] at within
      cases below : lineChars rest with
      | nil =>
        -- There is one line only, and it stands above the cut.
        have none : rest = [] := Decidable.not_not.1 fun filled => lineChars_ne_nil filled below
        subst none
        refine ⟨[c], [], rfl, (List.take_of_length_le ?_).symm, ?_⟩
        · rw [lineChars_cons joined, if_neg breaks]
          exact Nat.le_add_left 1 n
        · rw [lineChars_cons joined, if_neg breaks]
          exact List.drop_nil.symm
      | cons line lines =>
        rw [below] at within
        exact cut_plain joined breaks (below ▸ List.cons_ne_nil line lines)
          (ih (by rw [below]; exact within))

theorem exists_lines_split {s : String} {n : Nat} (within : n ≤ (lines s).length) :
    ∃ upper lower, s = upper ++ lower ∧ lines upper = (lines s).take n ∧
      lines lower = (lines s).drop n := by
  rw [lines, List.length_map] at within
  obtain ⟨front, back, split, upper, lower⟩ := cut_of_le within
  refine ⟨String.ofList front, String.ofList back, ?_, ?_, ?_⟩
  · rw [← String.ofList_append, ← split, String.ofList_toList]
  · rw [lines, lines, String.toList_ofList, upper, List.map_take]
  · rw [lines, lines, String.toList_ofList, lower, List.map_drop]

end Text

namespace Script

/-- The same line with `n` more lines above it. -/
def Line.below (n : Nat) (line : Line) : Line := { line with number := line.number + n }

theorem Line.ofText?_add (number n : Nat) (text : String) :
    Line.ofText? (number + n) text = (Line.ofText? number text).map (Line.below n) := by
  simp only [ofText?]
  split
  · rfl
  · split <;> rfl

/-- The significant ones of the lines of a text, of which the first one has the number `first`. -/
def linesFrom (first : Nat) (texts : List String) : List Line :=
  (texts.zipIdx first).filterMap fun (text, number) => Line.ofText? number text

theorem linesFrom_append (first : Nat) (front back : List String) :
    linesFrom first (front ++ back) =
      linesFrom first front ++ linesFrom (first + front.length) back := by
  rw [linesFrom, List.zipIdx_append, List.filterMap_append]
  rfl

theorem linesFrom_add (first n : Nat) (texts : List String) :
    linesFrom (first + n) texts = (linesFrom first texts).map (Line.below n) := by
  induction texts generalizing first with
  | nil => rfl
  | cons text rest ih =>
    have further := ih (first + 1)
    rw [Nat.add_right_comm] at further
    simp only [linesFrom, List.zipIdx_cons, List.filterMap_cons, Line.ofText?_add] at further ⊢
    rw [further]
    cases Line.ofText? first text <;> rfl

theorem linesOf_append {a : String} (ends : a.toList.getLast? = some '\n') (b : String) :
    linesOf (a ++ b) = linesOf a ++ (linesOf b).map (Line.below (Text.lines a).length) := by
  rw [linesOf, Text.lines_append ends, List.zipIdx_append, List.filterMap_append]
  congr 1
  exact linesFrom_add 1 _ _

theorem number_of_ofText? {number : Nat} {text : String} {line : Line}
    (read : Line.ofText? number text = some line) : line.number = number := by
  simp only [Line.ofText?] at read
  split at read
  · cases read
  · split at read
    · cases read
    · cases read
      rfl

/-- The lines of a script are numbered from above. -/
theorem pairwise_linesOf (script : String) :
    (linesOf script).Pairwise fun a b => a.number < b.number := by
  have numbers : ((Text.lines script).zipIdx 1).Pairwise fun a b => a.2 < b.2 := by
    rw [← List.pairwise_map (f := Prod.snd) (R := (· < ·)), List.zipIdx_map_snd]
    exact List.pairwise_lt_range'
  refine numbers.filterMap _ fun a b before c first d second => ?_
  rw [number_of_ofText? first, number_of_ofText? second]
  exact before

theorem text_of_ofText? {number : Nat} {text : String} {line : Line}
    (read : Line.ofText? number text = some line) : line.text = text := by
  simp only [Line.ofText?] at read
  split at read
  · cases read
  · split at read
    · cases read
    · cases read
      rfl

theorem place_of_linesFrom {first : Nat} {texts : List String} {line : Line}
    (member : line ∈ linesFrom first texts) :
    first ≤ line.number ∧ texts[line.number - first]? = some line.text := by
  obtain ⟨⟨text, number⟩, place, read⟩ := List.mem_filterMap.1 member
  rw [number_of_ofText? read, text_of_ofText? read]
  exact List.mk_mem_zipIdx_iff_le_and_getElem?_sub.1 place

theorem place_of_linesOf {script : String} {line : Line} (member : line ∈ linesOf script) :
    1 ≤ line.number ∧ (Text.lines script)[line.number - 1]? = some line.text :=
  place_of_linesFrom member

/-- Sorted lists that are cut at one value. -/
theorem eq_of_cut {front front' back back' : List Line} {n : Nat}
    (same : front ++ back = front' ++ back') (small : ∀ line ∈ front, line.number < n)
    (small' : ∀ line ∈ front', line.number < n) (large : ∀ line ∈ back, n ≤ line.number)
    (large' : ∀ line ∈ back', n ≤ line.number) : front = front' := by
  have cut {front back : List Line} (small : ∀ line ∈ front, line.number < n)
      (large : ∀ line ∈ back, n ≤ line.number) :
      (front ++ back).takeWhile (fun line => line.number < n) = front := by
    rw [List.takeWhile_append_of_pos (by simpa using small)]
    cases back with
    | nil => simp
    | cons line back =>
      have := large line List.mem_cons_self
      rw [List.takeWhile_cons_of_neg (by simpa using this), List.append_nil]
  rw [← cut small large, same, cut small' large']

theorem number_le_of_mem_cons {start line : Line} {lines : List Line}
    (ordered : (start :: lines).Pairwise fun a b => a.number < b.number)
    (member : line ∈ start :: lines) : start.number ≤ line.number := by
  rcases List.mem_cons.1 member with rfl | below
  · exact Nat.le_refl _
  · exact Nat.le_of_lt ((List.pairwise_cons.1 ordered).1 line below)

/-- The significant lines above one of them are those of the text above it. -/
theorem linesOf_take {script : String} {above below : List Line} {start : Line}
    (split : linesOf script = above ++ start :: below) :
    linesFrom 1 ((Text.lines script).take (start.number - 1)) = above := by
  have ordered := pairwise_linesOf script
  rw [split, List.pairwise_append] at ordered
  obtain ⟨-, ordered, before⟩ := ordered
  have member : start ∈ linesOf script := by
    rw [split]
    exact List.mem_append_right above List.mem_cons_self
  have place := place_of_linesOf member
  have whole : linesFrom 1 ((Text.lines script).take (start.number - 1)) ++
      linesFrom (1 + ((Text.lines script).take (start.number - 1)).length)
        ((Text.lines script).drop (start.number - 1)) = above ++ start :: below := by
    rw [← linesFrom_append, List.take_append_drop]
    exact split
  have count : 1 + ((Text.lines script).take (start.number - 1)).length = start.number := by
    have := (List.getElem?_eq_some_iff.1 place.2).1
    rw [List.length_take]
    omega
  rw [count] at whole
  refine eq_of_cut whole (fun line member => ?_) (fun line member => ?_)
    (fun line member => (place_of_linesFrom member).1) fun line member => ?_
  · have place := place_of_linesFrom member
    have := (List.getElem?_eq_some_iff.1 place.2).1
    omega
  · exact before line member start List.mem_cons_self
  · exact number_le_of_mem_cons ordered member

end Script

end ShowControl
