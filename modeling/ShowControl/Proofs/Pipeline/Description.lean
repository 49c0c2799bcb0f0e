import ShowControl.CommandLine.Failure
import ShowControl.Proofs.Pipeline.Draft

/-! A description is read as it is written.

Names are given in order, links join the ends that stand around them, and a description is refused
exactly if its tokens describe nothing. -/

set_option autoImplicit false
namespace ShowControl.Pipeline

/-! Naming -/

def Passage.element (p : Passage) (name : String) : Element := ⟨p.kind, name, p.properties⟩

section Naming

variable {earlier rest : List Passage} {unnamed taken : List String} {elements : List Element}

/-- Only the number of unnamed elements of each kind matters to the names that follow. -/
theorem nameSketches_cons (taken : List String) (p : Passage)
    (counts : ∀ kind, unnamed.count kind = earlier.countP (Passage.unnamed kind)) :
    ∃ unnamed', (∀ kind, unnamed'.count kind = (earlier ++ [p]).countP (Passage.unnamed kind)) ∧
      ∀ sketches, nameSketches unnamed taken (p.sketch :: sketches) =
        if p.nameAfter earlier ∈ taken then .error (.duplicateElement (p.nameAfter earlier))
        else do
          let elements ← nameSketches unnamed' (p.nameAfter earlier :: taken) sketches
          return p.element (p.nameAfter earlier) :: elements := by
  cases given : p.value? "name" with
  | some name =>
    have called : p.nameAfter earlier = name := by simp [Passage.nameAfter, given]
    refine ⟨unnamed, fun kind => ?_, fun sketches => ?_⟩
    · simp [counts, Passage.unnamed, given]
    · rw [called]
      simp only [nameSketches, Passage.sketch, given]
      split <;> rfl
  | none =>
    have called : p.nameAfter earlier = p.kind ++ toString (unnamed.count p.kind) := by
      simp [Passage.nameAfter, given, counts]
    refine ⟨p.kind :: unnamed, fun kind => ?_, fun sketches => ?_⟩
    · simp [List.count_cons, counts, Passage.unnamed, given]
    · rw [called]
      simp only [nameSketches, Passage.sketch, given]
      split <;> rfl

theorem nameSketches_eq_ok_iff
    (counts : ∀ kind, unnamed.count kind = earlier.countP (Passage.unnamed kind)) :
    nameSketches unnamed taken (rest.map Passage.sketch) = .ok elements ↔
      (Passage.namesAfter earlier rest).Nodup ∧
      (∀ name ∈ Passage.namesAfter earlier rest, name ∉ taken) ∧
      elements = (rest.zip (Passage.namesAfter earlier rest)).map fun e => e.1.element e.2 := by
  induction rest generalizing earlier unnamed taken elements with
  | nil => simp [nameSketches, Passage.namesAfter, eq_comm]
  | cons p rest ih =>
    obtain ⟨unnamed', counts', named⟩ := nameSketches_cons taken p counts
    rw [List.map_cons, named]
    split
    · next used => simp [Passage.namesAfter, used]
    · next fresh =>
      simp only [ok_bind_iff, ih counts', Passage.namesAfter, List.nodup_cons,
        List.forall_mem_cons, List.zip_cons_cons, List.map_cons]
      constructor
      · rintro ⟨others, ⟨distinct, free, rfl⟩, made⟩
        cases made
        have apart : ∀ name ∈ Passage.namesAfter (earlier ++ [p]) rest,
            name ≠ p.nameAfter earlier ∧ name ∉ taken := by
          simpa using free
        exact ⟨⟨fun member => (apart _ member).1 rfl, distinct⟩,
          ⟨fresh, fun name member => (apart name member).2⟩, rfl⟩
      · rintro ⟨⟨new, distinct⟩, ⟨-, free⟩, rfl⟩
        refine ⟨_, ⟨distinct, fun name member used => ?_, rfl⟩, rfl⟩
        rcases List.mem_cons.1 used with rfl | used
        · exact new member
        · exact free name member used

end Naming

/-- The elements that tokens describe. -/
def elementsIn (tokens : List Token) : List Element :=
  ((passages tokens).zip (namesIn tokens)).map fun e => e.1.element e.2

theorem nameSketches_passages_iff {tokens : List Token} {elements : List Element} :
    nameSketches [] [] ((passages tokens).map Passage.sketch) = .ok elements ↔
      (namesIn tokens).Nodup ∧ elements = elementsIn tokens := by
  have none : ∀ kind, [].count kind = [].countP (Passage.unnamed kind) := fun _ => rfl
  rw [nameSketches_eq_ok_iff none]
  simp [namesIn, elementsIn]

@[simp] theorem length_namesIn (tokens : List Token) :
    (namesIn tokens).length = (passages tokens).length := by
  simp [namesIn]

theorem map_fst_passages_zip (tokens : List Token) :
    ((passages tokens).zip (namesIn tokens)).map Prod.fst = passages tokens := by
  apply List.map_fst_zip
  simp

theorem map_kind_elementsIn (tokens : List Token) :
    (elementsIn tokens).map Element.kind = tokens.filterMap Token.kind? := by
  rw [← map_kind_passages, ← map_fst_passages_zip]
  simp [elementsIn, Passage.element]

theorem map_name_elementsIn (tokens : List Token) :
    (elementsIn tokens).map Element.name = namesIn tokens := by
  have seconds : ((passages tokens).zip (namesIn tokens)).map Prod.snd = namesIn tokens := by
    apply List.map_snd_zip
    simp
  rw [← seconds]
  simp [elementsIn, Passage.element]

theorem properties_elementsIn (tokens : List Token) :
    List.Forall₂ (fun (e : Element) (p : Passage) => ∀ key,
      e.properties.get? key = if key = "name" then none else p.value? key)
      (elementsIn tokens) (passages tokens) := by
  conv => arg 3; rw [← map_fst_passages_zip]
  rw [elementsIn, List.forall₂_map_left_iff, List.forall₂_map_right_iff, List.forall₂_same]
  exact fun e _ => e.1.get?_properties

/-! Ends -/

/-- An element has to be there to be an end. -/
def End.Within (n : Nat) : End → Prop
  | position index => index < n
  | named _ => True

theorem End.resolve_eq_ok_iff {names : List String} {name : String} {e : End}
    (within : e.Within names.length) : e.resolve names = .ok name ↔ e.Is names name := by
  cases e with
  | position index =>
    obtain ⟨called, found⟩ : ∃ called, names[index]? = some called :=
      ⟨_, List.getElem?_eq_getElem within⟩
    simp [resolve, End.Is, found]
  | named called =>
    by_cases known : called ∈ names <;> simp [resolve, End.Is, known]

theorem End.Is.mem {names : List String} {name : String} {e : End} (is : e.Is names name) :
    name ∈ names := by
  cases e with
  | position index => exact List.mem_of_getElem? is
  | named called =>
    obtain ⟨rfl, member⟩ := is
    exact member

section Places

variable {front behind : List Token} {token : Token} {e e' : End}

theorem within_of_end? (ends : token.end? front = some e) (behind : List Token) :
    e.Within (passages (front ++ token :: behind)).length := by
  cases token with
  | element kind =>
    cases ends
    simp only [End.Within, length_passages, List.filterMap_append, List.length_append]
    simp [Token.kind?]
  | reference name =>
    cases ends
    trivial
  | link | property => cases ends

theorem Nearest.within (near : Nearest front e) (behind : List Token) :
    e.Within (passages (front ++ behind)).length := by
  obtain ⟨earlier, token, between, rfl, ends, -⟩ := near
  rw [List.append_assoc]
  exact within_of_end? ends _

theorem Next.within (next : Next front behind e) :
    e.Within (passages (front ++ .link :: behind)).length := by
  obtain ⟨token, later, rfl, ends⟩ := next
  rw [List.append_cons]
  exact within_of_end? ends later

theorem Nearest.unique (near : Nearest front e) (near' : Nearest front e') : e = e' := by
  induction front using List.reverseRecOn with
  | nil => exact absurd near not_since_nil
  | append_singleton front token ih =>
    rw [nearest_concat] at near near'
    cases token <;> simp_all [Token.end?, Token.stops]

theorem Next.unique (next : Next front behind e) (next' : Next front behind e') : e = e' := by
  obtain ⟨token, later, rfl, ends⟩ := next
  obtain ⟨_, _, same, ends'⟩ := next'
  cases same
  exact Option.some.inj (ends.symm.trans ends')

end Places

/-! Reading to the end -/

/-- A link that has come to its target stands among the links in order. -/
theorem Draft.Follows.stored {draft : Draft} {tokens front behind : List Token}
    (follows : draft.Follows tokens) (settled : draft.pending = none)
    (split : tokens = front ++ .link :: behind) :
    ∃ source target, Nearest front source ∧ Next front behind target ∧
      draft.links.reverse[front.count .link]? = some (source, target) := by
  obtain ⟨source, near, ⟨-, waits⟩ | ⟨target, next, stored⟩⟩ := follows.joins front behind split
  · cases settled.symm.trans waits
  · exact ⟨source, target, near, next, stored⟩

/-- Each link that has been stored has its place. -/
theorem Draft.Follows.place {draft : Draft} {tokens : List Token} {source target : End}
    (follows : draft.Follows tokens) (settled : draft.pending = none)
    (member : (source, target) ∈ draft.links.reverse) :
    ∃ front behind, tokens = front ++ .link :: behind ∧ Nearest front source ∧
      Next front behind target := by
  obtain ⟨n, found⟩ := List.mem_iff_getElem?.1 member
  have count : draft.links.length = tokens.count .link := by
    simpa [settled] using follows.count
  have fewer : n < tokens.count .link := by
    rw [← count]
    simpa using (List.getElem?_eq_some_iff.1 found).1
  obtain ⟨front, behind, split, rfl⟩ := exists_place_of_lt_count fewer
  obtain ⟨_, _, near, next, stored⟩ := follows.stored settled split
  cases stored.symm.trans found
  exact ⟨front, behind, split, near, next⟩

/-- The words are read to the end, and no link waits for its target, exactly if each link stands
between two ends, and each setting behind an element. -/
theorem settles_iff {words : List String} :
    (∃ draft, words.foldlM Draft.step .start = .ok draft ∧ draft.pending = none) ↔
      (∀ front behind, words.map Token.ofWord = front ++ .link :: behind →
        (∃ source, Nearest front source) ∧ ∃ target, Next front behind target) ∧
      ∀ front key value behind, words.map Token.ofWord = front ++ .property key value :: behind →
        key ≠ "" ∧ Open front := by
  constructor
  · rintro ⟨draft, read, settled⟩
    constructor
    · intro front behind split
      obtain ⟨source, target, near, next, -⟩ :=
        (Draft.follows_of_foldlM read).stored settled split
      exact ⟨⟨source, near⟩, target, next⟩
    · intro front key value behind split
      exact Draft.exists_foldlM_iff.1 ⟨draft, read⟩ front _ behind split
  · rintro ⟨linked, placed⟩
    have admits : ∀ front token behind, words.map Token.ofWord = front ++ token :: behind →
        Draft.Admits front token := by
      intro front token behind split
      cases token with
      | link =>
        refine ⟨(linked front behind split).1, fun last => ?_⟩
        -- The link in front of this one would have a link for its target.
        obtain ⟨earlier, rfl⟩ := List.getLast?_eq_some_iff.1 last
        rw [List.append_assoc] at split
        obtain ⟨target, _, later, same, ends⟩ := (linked earlier (.link :: behind) split).2
        cases same
        cases ends
      | property key value => exact placed front key value behind split
      | reference | element => trivial
    obtain ⟨draft, read⟩ := Draft.exists_foldlM_iff.2 admits
    refine ⟨draft, read, ?_⟩
    rw [← Option.not_isSome_iff_eq_none, (Draft.follows_of_foldlM read).waits]
    intro last
    obtain ⟨earlier, whole⟩ := List.getLast?_eq_some_iff.1 last
    obtain ⟨target, _, later, same, -⟩ := (linked earlier [] whole).2
    cases same

/-- The link between two ends. -/
def joined (names : List String) (wire : End × End) : Except Fault Link := do
  return ⟨← wire.1.resolve names, ← wire.2.resolve names⟩

theorem ofDescription_eq_ok_iff {description : String} {layout : Layout} :
    Layout.ofDescription description = .ok layout ↔
      ∃ draft, (Text.words description).foldlM Draft.step .start = .ok draft ∧
        draft.pending = none ∧ draft.sketches ≠ [] ∧
        ∃ elements, nameSketches [] [] draft.sketches.reverse = .ok elements ∧
        ∃ links, draft.links.reverse.mapM (joined (elements.map Element.name)) = .ok links ∧
          layout = ⟨description, elements, links⟩ := by
  unfold Layout.ofDescription
  rw [ok_bind_iff]
  apply exists_congr
  intro draft
  apply and_congr_right
  intro read
  cases pending : draft.pending with
  | some source =>
    constructor
    · intro described
      cases described
    · rintro ⟨none, -⟩
      cases none
  | none =>
    by_cases bare : draft.sketches = []
    · simp only [bare, List.isEmpty_nil, Option.isSome_none]
      constructor
      · intro described
        cases described
      · rintro ⟨-, some, -⟩
        exact absurd rfl some
    · have filled : draft.sketches.isEmpty = false := by simpa using bare
      simp only [filled, Option.isSome_none, Bool.false_eq_true, if_false, true_and]
      rw [ok_bind_iff]
      constructor
      · rintro ⟨elements, named, described⟩
        obtain ⟨links, linked, described⟩ := ok_bind_iff.1 described
        cases described
        exact ⟨bare, elements, named, links, linked, rfl⟩
      · rintro ⟨-, elements, named, links, linked, rfl⟩
        exact ⟨elements, named, ok_bind_iff.2 ⟨links, linked, rfl⟩⟩

theorem joined_eq_ok_iff {names : List String} {source target : End} {link : Link}
    (first : source.Within names.length) (second : target.Within names.length) :
    joined names (source, target) = .ok link ↔
      source.Is names link.source ∧ target.Is names link.target := by
  rw [← End.resolve_eq_ok_iff first, ← End.resolve_eq_ok_iff second]
  obtain ⟨first', second'⟩ := link
  simp only [joined, ok_bind_iff]
  constructor
  · rintro ⟨_, begins, _, ends, same⟩
    cases same
    exact ⟨begins, ends⟩
  · rintro ⟨begins, ends⟩
    exact ⟨first', begins, second', ends, rfl⟩

section Description

variable {description : String} {layout : Layout}

/-- The ends of a link are joined exactly if both are elements. -/
theorem joined_at_eq_ok_iff {tokens front behind : List Token} {source target : End} {link : Link}
    (split : tokens = front ++ .link :: behind) (near : Nearest front source)
    (next : Next front behind target) :
    joined (namesIn tokens) (source, target) = .ok link ↔
      source.Is (namesIn tokens) link.source ∧ target.Is (namesIn tokens) link.target := by
  subst split
  exact joined_eq_ok_iff (by simpa using near.within _) (by simpa using next.within)

theorem describes_of_ofDescription (described : Layout.ofDescription description = .ok layout) :
    layout.description = description ∧ Describes (tokensOf description) layout := by
  obtain ⟨draft, read, settled, -, elements, named, links, linked, rfl⟩ :=
    ofDescription_eq_ok_iff.1 described
  have follows : draft.Follows (tokensOf description) := Draft.follows_of_foldlM read
  rw [follows.sketches] at named
  obtain ⟨distinct, rfl⟩ := nameSketches_passages_iff.1 named
  rw [map_name_elementsIn] at linked
  have each := forall₂_of_mapM_ok linked
  have names : Layout.names ⟨description, elementsIn (tokensOf description), links⟩ =
      namesIn (tokensOf description) := map_name_elementsIn _
  refine ⟨rfl, {
    kinds := map_kind_elementsIn _
    names
    distinct := names ▸ distinct
    properties := properties_elementsIn _
    links := by simpa [settled, each.length_eq] using follows.count
    linked := fun front behind split => ?_
    inside := fun link member => ?_ }⟩
  · obtain ⟨source, target, near, next, stored⟩ := follows.stored settled split
    obtain ⟨link, found, made⟩ := exists_getElem?_of_forall₂ each stored
    obtain ⟨begins, ends⟩ := (joined_at_eq_ok_iff split near next).1 made
    rw [names]
    exact ⟨link, source, target, found, near, begins, next, ends⟩
  · obtain ⟨⟨source, target⟩, stored, made⟩ := mem_of_mapM_ok linked member
    obtain ⟨front, behind, split, near, next⟩ := follows.place settled stored
    obtain ⟨begins, ends⟩ := (joined_at_eq_ok_iff split near next).1 made
    rw [names]
    exact ⟨begins.mem, ends.mem⟩

theorem sound_of_ofDescription (described : Layout.ofDescription description = .ok layout) :
    Sound (tokensOf description) := by
  obtain ⟨-, describes⟩ := describes_of_ofDescription described
  obtain ⟨draft, read, settled, filled, -⟩ := ofDescription_eq_ok_iff.1 described
  have follows : draft.Follows (tokensOf description) := Draft.follows_of_foldlM read
  exact {
    inhabited := by
      apply passages_ne_nil_iff.1
      intro bare
      apply filled
      simpa [bare] using follows.sketches
    distinct := describes.names ▸ describes.distinct
    linked := by
      intro front behind split
      obtain ⟨link, source, target, -, near, begins, next, ends⟩ :=
        describes.linked front behind split
      rw [describes.names] at begins ends
      exact ⟨⟨source, _, near, begins⟩, target, _, next, ends⟩
    placed := (settles_iff.1 ⟨draft, read, settled⟩).2 }

/-- All links between elements can be joined. -/
theorem Sound.joins {tokens : List Token} {draft : Draft} (sound : Sound tokens)
    (follows : draft.Follows tokens) (settled : draft.pending = none) :
    ∃ links, draft.links.reverse.mapM (joined (namesIn tokens)) = .ok links := by
  apply mapM_ok_of_isOk
  rintro ⟨source, target⟩ stored
  obtain ⟨front, behind, split, near, next⟩ := follows.place settled stored
  obtain ⟨⟨_, first, near', begins⟩, _, second, next', ends⟩ := sound.linked front behind split
  obtain rfl := near.unique near'
  obtain rfl := next.unique next'
  have made : joined (namesIn tokens) (source, target) = .ok ⟨first, second⟩ :=
    (joined_at_eq_ok_iff split near next).2 ⟨begins, ends⟩
  rw [made]
  rfl

theorem ofDescription_of_sound (sound : Sound (tokensOf description)) :
    ∃ layout, Layout.ofDescription description = .ok layout := by
  have linked : ∀ front behind, tokensOf description = front ++ .link :: behind →
      (∃ source, Nearest front source) ∧ ∃ target, Next front behind target := by
    intro front behind split
    obtain ⟨⟨source, _, near, -⟩, target, _, next, -⟩ := sound.linked front behind split
    exact ⟨⟨source, near⟩, target, next⟩
  obtain ⟨draft, read, settled⟩ := settles_iff.2 ⟨linked, sound.placed⟩
  have follows : draft.Follows (tokensOf description) := Draft.follows_of_foldlM read
  have filled : draft.sketches ≠ [] := by
    intro bare
    have sketches := follows.sketches
    simp [bare, passages_ne_nil_iff.2 sound.inhabited] at sketches
  have named := nameSketches_passages_iff.2 ⟨sound.distinct, rfl⟩
  obtain ⟨links, joins⟩ := sound.joins follows settled
  rw [← follows.sketches] at named
  rw [← map_name_elementsIn] at joins
  exact ⟨_, ofDescription_eq_ok_iff.2 ⟨draft, read, settled, filled, _, named, links, joins, rfl⟩⟩

end Description

/-- Every word of a description is one token. If a sub-pipeline is read from the tokens, it is the one
that they describe, and one is read exactly if they describe one at all. A description is refused as a
malformed script. -/
theorem descriptions_read_as_written (description : String) :
    (∀ tokens, List.Forall₂ Token.Spells tokens (Text.words description) ↔
      tokens = tokensOf description) ∧
    (∀ layout, Layout.ofDescription description = .ok layout →
      layout.description = description ∧ Describes (tokensOf description) layout) ∧
    ((∃ layout, Layout.ofDescription description = .ok layout) ↔ Sound (tokensOf description)) ∧
    ∀ fault, Layout.ofDescription description = .error fault →
      (ShowControl.Fault.ofScript (.pipeline fault)).kind? = some "ScriptSyntaxError" :=
  ⟨fun _ => Token.forall₂_spells_iff, fun _ => describes_of_ofDescription,
    ⟨fun ⟨_, described⟩ => sound_of_ofDescription described, ofDescription_of_sound⟩,
    fun _ _ => rfl⟩

namespace Sample

/-- A reference before its element is named, a branch, and a link of an element to itself. -/
def branching : String :=
  "src ! t. tee k=1 name=u name=t k=2 ! queue t. ! queue t. ! t."

def dangling : String := "src ! sink !"

set_option maxRecDepth 20000 in
theorem reads_branching : ∃ layout, Layout.ofDescription branching = .ok layout ∧
    layout.names = ["src0", "t", "queue0", "queue1"] ∧
    layout.links = [⟨"src0", "t"⟩, ⟨"t", "queue0"⟩, ⟨"t", "queue1"⟩, ⟨"t", "t"⟩] := by
  have checks : (match Layout.ofDescription branching with
      | .ok layout => decide (layout.names = ["src0", "t", "queue0", "queue1"] ∧
          layout.links = [⟨"src0", "t"⟩, ⟨"t", "queue0"⟩, ⟨"t", "queue1"⟩, ⟨"t", "t"⟩])
      | .error _ => false) = true := by
    decide +kernel
  split at checks
  · next layout read => exact ⟨layout, read, of_decide_eq_true checks⟩
  · cases checks

set_option maxRecDepth 20000 in
theorem refuses_dangling : Layout.ofDescription dangling = .error .linkWithoutTarget := by
  have checks : (match Layout.ofDescription dangling with
      | .ok _ => false
      | .error fault => decide (fault = .linkWithoutTarget)) = true := by
    decide +kernel
  split at checks
  · cases checks
  · next fault read => rw [read, of_decide_eq_true checks]

end Sample

theorem descriptions_read_as_written_sample :
    (∃ layout, Layout.ofDescription Sample.branching = .ok layout ∧
      layout.names = ["src0", "t", "queue0", "queue1"] ∧
      layout.links = [⟨"src0", "t"⟩, ⟨"t", "queue0"⟩, ⟨"t", "queue1"⟩, ⟨"t", "t"⟩] ∧
      Describes (tokensOf Sample.branching) layout) ∧
    Sound (tokensOf Sample.branching) ∧
    Layout.ofDescription Sample.dangling = .error .linkWithoutTarget ∧
    ¬Sound (tokensOf Sample.dangling) ∧
    (ShowControl.Fault.ofScript (.pipeline .linkWithoutTarget)).kind? = some "ScriptSyntaxError" := by
  obtain ⟨layout, read, names, links⟩ := Sample.reads_branching
  obtain ⟨-, describes, sound, -⟩ := descriptions_read_as_written Sample.branching
  obtain ⟨-, -, unsound, kind⟩ := descriptions_read_as_written Sample.dangling
  refine ⟨⟨layout, read, names, links, (describes layout read).2⟩, sound.1 ⟨layout, read⟩,
    Sample.refuses_dangling, fun described => ?_, kind _ Sample.refuses_dangling⟩
  obtain ⟨layout, read⟩ := unsound.2 described
  cases Sample.refuses_dangling.symm.trans read

end ShowControl.Pipeline
