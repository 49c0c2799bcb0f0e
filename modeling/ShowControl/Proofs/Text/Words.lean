import Mathlib.Data.List.TakeWhile
import ShowControl.Text.Blank

/-! Words of texts that are put together, and what is left of a text behind some of its words. -/

set_option autoImplicit false
namespace ShowControl.Text

/-- The text does not go on with the word in front of it. -/
def Parted (cs : List Char) : Prop := ∀ c ∈ cs.head?, isBlank c = true

theorem parted_append {gap : List Char} (filled : gap ≠ []) (blank : ∀ c ∈ gap, isBlank c = true)
    (cs : List Char) : Parted (gap ++ cs) := by
  obtain ⟨c, rest, rfl⟩ := List.exists_cons_of_ne_nil filled
  rintro _ ⟨⟩
  exact blank c List.mem_cons_self

theorem wordChars_blank {c : Char} (blank : isBlank c = true) (rest : List Char) :
    wordChars (c :: rest) = wordChars rest := by
  cases rest <;> simp [wordChars, blank]

theorem wordChars_cons {c : Char} (solid : isBlank c = false) (rest : List Char) :
    wordChars (c :: rest) = (c :: rest.takeWhile fun c => !isBlank c) ::
      wordChars (rest.dropWhile fun c => !isBlank c) := by
  induction rest generalizing c with
  | nil => simp [wordChars, solid]
  | cons d rest ih =>
    cases edge : isBlank d with
    | true => simp [wordChars, solid, edge, wordChars_blank]
    | false => simp [wordChars, solid, edge, ih edge]

theorem wordChars_dropWhile (cs : List Char) : wordChars (cs.dropWhile isBlank) = wordChars cs := by
  induction cs with
  | nil => rfl
  | cons c rest ih =>
    cases edge : isBlank c with
    | true => rw [List.dropWhile_cons_of_pos edge, wordChars_blank edge, ih]
    | false => rw [List.dropWhile_cons_of_neg (by simp [edge])]

/-- Words do not go on over a blank. -/
theorem wordChars_append (front : List Char) {back : List Char} (parted : Parted back) :
    wordChars (front ++ back) = wordChars front ++ wordChars back := by
  induction front with
  | nil => rfl
  | cons c rest ih =>
    rw [List.cons_append]
    cases edge : isBlank c with
    | true => rw [wordChars_blank edge, wordChars_blank edge, ih]
    | false =>
      cases rest with
      | nil =>
        rw [List.nil_append, wordChars_cons edge, wordChars_cons edge]
        cases back with
        | nil => rfl
        | cons d back => simp [parted d rfl, wordChars]
      | cons d rest =>
        rw [List.cons_append] at ih ⊢
        cases next : isBlank d with
        | true => simpa [wordChars, edge, next, wordChars_blank next] using ih
        | false =>
          -- Both first words go on with the character in front.
          rw [wordChars_cons next, wordChars_cons next, List.cons_append, List.cons.injEq] at ih
          simp [wordChars_cons edge, next, ih.2, (List.cons.inj ih.1).2]

/-! What is left behind some words -/

theorem solid_of_dropWhile {cs : List Char} {c : Char} {rest : List Char}
    (split : cs.dropWhile isBlank = c :: rest) : isBlank c = false := by
  have stops := List.head?_dropWhile_not isBlank cs
  rw [split] at stops
  exact stops

theorem wordChars_blank_append {gap : List Char} (blank : ∀ c ∈ gap, isBlank c = true)
    (cs : List Char) : wordChars (gap ++ cs) = wordChars cs := by
  induction gap with
  | nil => rfl
  | cons c gap ih =>
    obtain ⟨first, others⟩ := List.forall_mem_cons.1 blank
    rw [List.cons_append, wordChars_blank first, ih others]

theorem dropWhileEnd_split (cs : List Char) :
    ∃ gap, cs = dropWhileEnd isBlank cs ++ gap ∧ ∀ c ∈ gap, isBlank c = true := by
  refine ⟨(cs.reverse.takeWhile isBlank).reverse, ?_, fun c member => ?_⟩
  · rw [dropWhileEnd, ← List.reverse_append, List.takeWhile_append_dropWhile, List.reverse_reverse]
  · exact List.mem_takeWhile_imp (List.mem_reverse.1 member)

theorem head?_trimChars {cs word : List Char} {words : List (List Char)}
    (split : wordChars cs = word :: words) : (trimChars isBlank cs).head? = word.head? := by
  rw [← wordChars_dropWhile] at split
  rw [trimChars]
  cases shape : cs.dropWhile isBlank with
  | nil =>
    rw [shape] at split
    cases split
  | cons c rest =>
    have solid := solid_of_dropWhile shape
    rw [shape, wordChars_cons solid] at split
    obtain ⟨rfl, -⟩ := List.cons.inj split
    obtain ⟨gap, whole, blank⟩ := dropWhileEnd_split (c :: rest)
    cases kept : dropWhileEnd isBlank (c :: rest) with
    | nil =>
      -- All of it would be blank.
      rw [kept, List.nil_append] at whole
      have first := blank c (by rw [← whole]; exact List.mem_cons_self)
      rw [solid] at first
      cases first
    | cons d kept' =>
      rw [kept] at whole
      rw [(List.cons.inj whole).1]
      rfl

/-! Texts -/

theorem words_append (a : String) {b : String} (parted : Parted b.toList) :
    words (a ++ b) = words a ++ words b := by
  rw [words, String.toList_append, wordChars_append _ parted, List.map_append]
  rfl

theorem words_blank_append {gap : String} (blank : ∀ c ∈ gap.toList, isBlank c = true) (s : String) :
    words (gap ++ s) = words s := by
  rw [words, String.toList_append, wordChars_blank_append blank]
  rfl

/-- Blanks between two texts keep their words apart. -/
theorem words_gap_append (a : String) {gap : String} (filled : gap ≠ "")
    (blank : ∀ c ∈ gap.toList, isBlank c = true) (s : String) :
    words (a ++ gap ++ s) = words a ++ words s := by
  have parted : Parted (gap ++ s).toList := by
    rw [String.toList_append]
    exact parted_append (by simpa using filled) blank _
  rw [String.append_assoc, words_append _ parted, words_blank_append blank]

theorem words_of_solid {s : String} (filled : s ≠ "") (solid : ∀ c ∈ s.toList, isBlank c = false) :
    words s = [s] := by
  obtain ⟨c, rest, split⟩ := List.exists_cons_of_ne_nil (mt String.toList_eq_nil_iff.1 filled)
  rw [split, List.forall_mem_cons] at solid
  have all : ∀ d ∈ rest, (!isBlank d) = true := by simpa using solid.2
  rw [words, split, wordChars_cons solid.1, List.takeWhile_eq_self_iff.2 all,
    List.dropWhile_eq_nil_iff.2 all, ← split]
  simp [wordChars]

theorem head?_trim {s word : String} {further : List String} (split : words s = word :: further) :
    (trim s).toList.head? = word.toList.head? := by
  obtain ⟨first, others, shape, rfl, -⟩ := List.map_eq_cons_iff.1 split
  rw [trim, String.toList_ofList, String.toList_ofList, head?_trimChars shape]

end ShowControl.Text
