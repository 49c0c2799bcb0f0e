import Mathlib.Data.List.ModifyLast
import ShowControl.Pipeline.Description
import ShowControl.Proofs.List

/-! What a description says.

A description falls into passages, each an element with the settings that are written behind it. A
link goes from the element or reference nearest before it to the one right behind it. `Describes` says
which sub-pipeline the tokens of a description are of, and `Sound` that they are of one at all. -/

set_option autoImplicit false
namespace ShowControl.Pipeline

namespace Token

inductive Spells : Token → String → Prop where
  | link : Spells .link "!"
  | reference {name : String} : name ≠ "" → '=' ∉ name.toList →
      Spells (.reference name) (name ++ ".")
  | property {key value : String} : '=' ∉ key.toList →
      Spells (.property key value) (key ++ "=" ++ value)
  | element {word : String} : word ≠ "!" → '=' ∉ word.toList →
      (∀ name, name ≠ "" → word ≠ name ++ ".") → Spells (.element word) word

theorem ofWord_of_split {front : List Char} (plain : '=' ∉ front) (back : List Char) :
    ofWord (String.ofList (front ++ '=' :: back)) =
      .property (String.ofList front) (String.ofList back) := by
  have before : ∀ c ∈ front, decide (c ≠ '=') = true := by
    intro c member
    apply decide_eq_true
    rintro rfl
    exact plain member
  have other : String.ofList (front ++ '=' :: back) ≠ "!" := by
    intro same
    have within : '=' ∈ (String.ofList (front ++ '=' :: back)).toList := by simp
    rw [same] at within
    revert within
    decide
  unfold ofWord
  rw [if_neg other, String.toList_ofList, List.takeWhile_append_of_pos before,
    List.dropWhile_append_of_pos before]
  simp

theorem marked_iff {word : String} :
    (word.toList.getLast? = some '.' && 1 < word.toList.length) = true ↔
      ∃ name, name ≠ "" ∧ word = name ++ "." := by
  constructor
  · intro marked
    simp only [Bool.and_eq_true, decide_eq_true_eq] at marked
    obtain ⟨front, split⟩ := List.getLast?_eq_some_iff.1 marked.1
    refine ⟨String.ofList front, ?_, ?_⟩
    · intro empty
      have bare : front = [] := by simpa using empty
      simp [split, bare] at marked
    · apply String.toList_inj.1
      simp [split]
  · rintro ⟨name, named, rfl⟩
    have filled : name.toList ≠ [] := by simpa using named
    have := List.length_pos_iff.2 filled
    simp
    omega

theorem spells_ofWord (word : String) : (ofWord word).Spells word := by
  by_cases equals : '=' ∈ word.toList
  · obtain ⟨front, back, split, plain⟩ := List.eq_append_cons_of_mem equals
    have text : word = String.ofList front ++ "=" ++ String.ofList back := by
      apply String.toList_inj.1
      simp [split]
    have read := ofWord_of_split plain back
    rw [← split, String.ofList_toList] at read
    rw [read, text]
    exact .property (by simpa using plain)
  · unfold ofWord
    simp only [List.contains_iff_mem, equals, if_false]
    split
    · next bang => exact bang ▸ .link
    · next other =>
      split
      · next marked =>
        obtain ⟨name, named, rfl⟩ := marked_iff.1 marked
        have plain : '=' ∉ name.toList := by
          intro member
          simp [member] at equals
        simpa using Spells.reference named plain
      · next unmarked =>
        apply Spells.element other equals
        rintro name named rfl
        exact unmarked (marked_iff.2 ⟨name, named, rfl⟩)

theorem ofWord_eq_of_spells {token : Token} {word : String} (spells : token.Spells word) :
    ofWord word = token := by
  cases spells with
  | link => rfl
  | @reference name named plain =>
    have marked := marked_iff.2 ⟨name, named, rfl⟩
    have other : name ++ "." ≠ "!" := by
      intro same
      rw [same] at marked
      revert marked
      decide
    unfold ofWord
    simp only [other, marked, if_false, if_true]
    simp [plain]
  | @property key value plain =>
    have text : key ++ "=" ++ value = String.ofList (key.toList ++ '=' :: value.toList) := by
      apply String.toList_inj.1
      simp
    rw [text, ofWord_of_split plain, String.ofList_toList, String.ofList_toList]
  | element other plain unmarked =>
    have unmarked' := mt marked_iff.1 fun ⟨name, named, same⟩ => unmarked name named same
    unfold ofWord
    simp only [other, List.contains_iff_mem, plain, unmarked', Bool.false_eq_true, if_false]

theorem spells_iff {token : Token} {word : String} : token.Spells word ↔ token = ofWord word := by
  constructor
  · exact fun spells => (ofWord_eq_of_spells spells).symm
  · rintro rfl
    exact spells_ofWord word

theorem forall₂_spells_iff {tokens : List Token} {words : List String} :
    List.Forall₂ Spells tokens words ↔ tokens = words.map ofWord := by
  have same : Spells = fun token word => token = ofWord word := by
    funext token word
    exact propext spells_iff
  rw [same, ← List.forall₂_map_right_iff, List.forall₂_eq_eq_eq]

def kind? : Token → Option String
  | element kind => some kind
  | link | reference _ | property .. => none

def stops : Token → Bool
  | element _ | reference _ => true
  | link | property .. => false

def parts : Token → Bool
  | link | reference _ => true
  | property .. | element _ => false

end Token

/-- An element with the settings that are its own. -/
structure Passage where
  kind : String
  settings : List (String × String)

namespace Passage

def value? (p : Passage) (key : String) : Option String := p.settings.reverse.lookup key

def unnamed (kind : String) (p : Passage) : Bool := p.kind = kind && (p.value? "name").isNone

/-- The name of an element that comes after others. -/
def nameAfter (earlier : List Passage) (p : Passage) : String :=
  (p.value? "name").getD (p.kind ++ toString (earlier.countP (unnamed p.kind)))

def namesAfter (earlier : List Passage) : List Passage → List String
  | [] => []
  | p :: rest => p.nameAfter earlier :: namesAfter (earlier ++ [p]) rest

def set (p : Passage) (key value : String) : Passage :=
  { p with settings := p.settings ++ [(key, value)] }

@[simp] theorem kind_set (p : Passage) (key value : String) : (p.set key value).kind = p.kind := rfl

theorem value?_set (p : Passage) (key value key' : String) :
    (p.set key value).value? key' = if key' = key then some value else p.value? key' := by
  simp [value?, set, lookup_cons_eq]

@[simp] theorem length_namesAfter (earlier passages : List Passage) :
    (namesAfter earlier passages).length = passages.length := by
  induction passages generalizing earlier with
  | nil => rfl
  | cons p rest ih => simp [namesAfter, ih]

end Passage

def tokensOf (description : String) : List Token := (Text.words description).map Token.ofWord

def settingsIn : List Token → List (String × String)
  | [] | .element _ :: _ => []
  | .property key value :: rest => (key, value) :: settingsIn rest
  | .link :: rest | .reference _ :: rest => settingsIn rest

def passages : List Token → List Passage
  | [] => []
  | .element kind :: rest => ⟨kind, settingsIn rest⟩ :: passages rest
  | .link :: rest | .reference _ :: rest | .property .. :: rest => passages rest

def namesIn (tokens : List Token) : List String := Passage.namesAfter [] (passages tokens)

/-- What a token is to a link. An element may be named only later. -/
def Token.end? (front : List Token) : Token → Option End
  | element _ => some (.position (passages front).length)
  | reference name => some (.named name)
  | link | property .. => none

def End.Is (names : List String) (name : String) : End → Prop
  | position index => names[index]? = some name
  | named called => called = name ∧ called ∈ names

/-- The element or reference nearest before a place. -/
def Nearest (front : List Token) (e : End) : Prop :=
  Since (fun earlier token => token.end? earlier = some e) Token.stops front

def Next (front behind : List Token) (e : End) : Prop :=
  ∃ token later, behind = token :: later ∧ token.end? (front ++ [.link]) = some e

/-- There is an element, and no link and no reference behind it. -/
def Open (front : List Token) : Prop :=
  Since (fun _ token => token.kind?.isSome) Token.parts front

structure Describes (tokens : List Token) (layout : Layout) : Prop where
  kinds : layout.elements.map Element.kind = tokens.filterMap Token.kind?
  names : layout.names = namesIn tokens
  distinct : layout.names.Nodup
  properties : List.Forall₂ (fun (e : Element) (p : Passage) => ∀ key,
    e.properties.get? key = if key = "name" then none else p.value? key)
    layout.elements (passages tokens)
  links : layout.links.length = tokens.count .link
  linked : ∀ front behind, tokens = front ++ .link :: behind →
    ∃ link source target, layout.links[front.count .link]? = some link ∧
      Nearest front source ∧ source.Is layout.names link.source ∧
      Next front behind target ∧ target.Is layout.names link.target
  inside : ∀ link ∈ layout.links, link.source ∈ layout.names ∧ link.target ∈ layout.names

/-- The tokens describe a sub-pipeline. -/
structure Sound (tokens : List Token) : Prop where
  inhabited : ∃ kind, .element kind ∈ tokens
  distinct : (namesIn tokens).Nodup
  linked : ∀ front behind, tokens = front ++ .link :: behind →
    (∃ source name, Nearest front source ∧ source.Is (namesIn tokens) name) ∧
    ∃ target name, Next front behind target ∧ target.Is (namesIn tokens) name
  placed : ∀ front key value behind, tokens = front ++ .property key value :: behind →
    key ≠ "" ∧ Open front

/-! Tokens that are read one after the other -/

theorem map_kind_passages (tokens : List Token) :
    (passages tokens).map Passage.kind = tokens.filterMap Token.kind? := by
  induction tokens with
  | nil => rfl
  | cons token rest ih =>
    cases token <;> simp [passages, List.filterMap_cons, Token.kind?, ih]

theorem length_passages (tokens : List Token) :
    (passages tokens).length = (tokens.filterMap Token.kind?).length := by
  rw [← map_kind_passages, List.length_map]

theorem passages_ne_nil_iff {tokens : List Token} :
    passages tokens ≠ [] ↔ ∃ kind, .element kind ∈ tokens := by
  induction tokens with
  | nil => simp [passages]
  | cons token rest ih => cases token <;> simp [passages, ← ih]

theorem settingsIn_append_of_bare {front : List Token} (bare : passages front = [])
    (back : List Token) : settingsIn (front ++ back) = settingsIn front ++ settingsIn back := by
  induction front with
  | nil => rfl
  | cons token rest ih =>
    cases token <;> simp_all [passages, settingsIn]

theorem settingsIn_append_of_filled {front : List Token} (filled : passages front ≠ [])
    (back : List Token) : settingsIn (front ++ back) = settingsIn front := by
  induction front with
  | nil => exact absurd rfl filled
  | cons token rest ih =>
    cases token <;> simp_all [passages, settingsIn]

theorem settingsIn_append {back : List Token} (none : settingsIn back = []) (front : List Token) :
    settingsIn (front ++ back) = settingsIn front := by
  by_cases bare : passages front = []
  · rw [settingsIn_append_of_bare bare, none, List.append_nil]
  · exact settingsIn_append_of_filled bare back

theorem passages_append {back : List Token} (none : settingsIn back = []) (front : List Token) :
    passages (front ++ back) = passages front ++ passages back := by
  induction front with
  | nil => rfl
  | cons token rest ih => cases token <;> simp [passages, settingsIn_append none, ih]

theorem passages_concat_link (front : List Token) :
    passages (front ++ [.link]) = passages front := by
  rw [passages_append rfl]
  simp [passages]

theorem passages_concat_reference (front : List Token) (name : String) :
    passages (front ++ [.reference name]) = passages front := by
  rw [passages_append rfl]
  simp [passages]

theorem passages_concat_element (front : List Token) (kind : String) :
    passages (front ++ [.element kind]) = passages front ++ [⟨kind, []⟩] := by
  rw [passages_append rfl]
  simp [passages, settingsIn]

theorem passages_concat_property (front : List Token) (key value : String) :
    passages (front ++ [.property key value]) =
      (passages front).modifyLast fun p => p.set key value := by
  induction front with
  | nil => rfl
  | cons token rest ih =>
    cases token with
    | element kind =>
      simp only [List.cons_append, passages, ih]
      by_cases bare : passages rest = []
      · rw [bare, settingsIn_append_of_bare bare]
        exact (List.modifyLast_concat (Passage.set · key value) ⟨kind, settingsIn rest⟩ []).symm
      · rw [settingsIn_append_of_filled bare]
        exact (List.modifyLast_append_of_right_ne_nil _ [⟨kind, settingsIn rest⟩] _ bare).symm
    | link | reference | property => simpa [passages] using ih

/-! Places -/

theorem nearest_concat {front : List Token} {token : Token} {e : End} :
    Nearest (front ++ [token]) e ↔
      token.end? front = some e ∨ token.stops = false ∧ Nearest front e := since_concat

theorem open_concat {front : List Token} {token : Token} :
    Open (front ++ [token]) ↔ token.kind?.isSome ∨ token.parts = false ∧ Open front := since_concat

end ShowControl.Pipeline
