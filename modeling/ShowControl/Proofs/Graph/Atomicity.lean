import ShowControl.Proofs.Graph.Mirror

/-! What a plug that fails has done to the plugs.

A check that fails has changed nothing. Neither has the backend's first command, unless it is the
second one that fails: an input whose source was to be replaced has then lost the old one and not
got the new one, as in the backend. -/

set_option autoImplicit false
namespace ShowControl

theorem Reply.returned_iff {reply : Reply} :
    reply.returned = true ↔ ∃ accepted, reply.answer = .ok accepted := by
  cases reply <;> simp [returned, answer]

namespace Graph

variable {α : Type} {g g' : Graph α} {source target previous : PortRef} {fault : Fault}

def parted (g : Graph α) (previous target : PortRef) : Graph α :=
  (g.told (.disconnect (g.socket previous) (g.socket target))).replug (g.plugs.erase target)

/-- An input whose source is replaced loses the old one, and the backend does not give it the new
one. -/
structure CutShort (g : Graph α) (source target previous : PortRef) : Prop where
  joinable : Joinable (g.port? source) (g.port? target)
  plugged : g.plugs.get? target = some previous
  differs : previous ≠ source
  replaces : g.rewiring ≠ .refuse
  parts : (g.backend.reply g.journal
    (.disconnect (g.socket previous) (g.socket target))).returned = true
  refused : g.backend.reply (g.parted previous target).journal
    (.connect (g.socket source) (g.socket target)) ≠ .done

theorem sourceOf_parted (g : Graph α) (previous target r : PortRef) :
    (g.parted previous target).sourceOf r = if r = target then none else g.sourceOf r :=
  Table.get?_erase g.plugs target r

theorem edges_parted (g : Graph α) (previous target : PortRef) :
    (g.parted previous target).edges = g.edges.filter fun e => e.2 ≠ target := by
  rw [edges, edges, List.filter_map]
  rfl

variable [Number α]

theorem eval_connect_of_refused
    (refused : g.backend.reply g.journal (.connect (g.socket source) (g.socket target)) ≠ .done) :
    ∃ fault, (connect source target).eval g =
      (.error fault, g.told (.connect (g.socket source) (g.socket target))) := by
  simp only [connect, Act.eval_bind, Act.eval_get, eval_issue_eq]
  cases reply : g.backend.reply g.journal (.connect (g.socket source) (g.socket target)) with
  | done => exact absurd reply refused
  | refused | failed => exact ⟨_, rfl⟩

theorem refused_of_connect (failed : (connect source target).eval g = (.error fault, g')) :
    g.backend.reply g.journal (.connect (g.socket source) (g.socket target)) ≠ .done ∧
      g'.plugs = g.plugs := by
  by_cases done : g.backend.reply g.journal (.connect (g.socket source) (g.socket target)) = .done
  · simp only [connect, Act.eval_bind, Act.eval_get, eval_issue_eq, done, Reply.answer] at failed
    cases failed
  · obtain ⟨fault', refused⟩ := eval_connect_of_refused done
    cases refused.symm.trans failed
    exact ⟨done, rfl⟩

theorem error_connect_iff {text : String} :
    (do connect source target; Act.info text; return true : Act (Graph α) Bool).eval g =
        (.error fault, g') ↔
      (connect source target).eval g = (.error fault, g') :=
  Act.error_bind_iff fun _ t => ⟨true, t, rfl⟩

theorem eval_plug_of_differs (joinable : Joinable (g.port? source) (g.port? target))
    (plugged : g.plugs.get? target = some previous) (differs : previous ≠ source)
    (replaces : g.rewiring ≠ .refuse) :
    (plug source target).eval g =
      match (g.backend.reply g.journal
          (.disconnect (g.socket previous) (g.socket target))).answer with
      | .error fault => (.error fault, g.told (.disconnect (g.socket previous) (g.socket target)))
      | .ok _ => (do
          connect source target
          Act.info s!"Rewired {target}: {previous} -> {source}"
          return true : Act (Graph α) Bool).eval (g.parted previous target) := by
  obtain ⟨found, looked⟩ := (ends_eq_ok_iff g source target).2 joinable
  simp only [plug, Act.eval_bind, Act.eval_get, Act.eval_ofExcept, looked, plugged, if_neg differs,
    if_neg replaces, eval_issue_eq]
  cases g.backend.reply g.journal (.disconnect (g.socket previous) (g.socket target)) <;> rfl

theorem eval_plug_of_cutShort (cut : g.CutShort source target previous) :
    ∃ fault, (plug source target).eval g = (.error fault,
      (g.parted previous target).told (.connect (g.socket source) (g.socket target))) := by
  obtain ⟨fault, refused⟩ := eval_connect_of_refused (g := g.parted previous target) cut.refused
  refine ⟨fault, ?_⟩
  rw [eval_plug_of_differs cut.joinable cut.plugged cut.differs cut.replaces]
  obtain ⟨accepted, answer⟩ := Reply.returned_iff.1 cut.parts
  rw [answer]
  exact error_connect_iff.2 refused

theorem failsInto_plug (g : Graph α) (source target : PortRef) :
    (plug source target).FailsInto
      (fun g' => g'.plugs = g.plugs ∨ ∃ previous, g.CutShort source target previous) g := by
  refine Act.failsInto_look rfl (.inl rfl) ?_
  rintro _ ⟨⟩
  refine Act.failsInto_look rfl (.inl rfl) fun found looked => ?_
  obtain ⟨looked, -⟩ := (Act.returns_ofExcept ..).1 looked
  have joinable := (ends_eq_ok_iff g source target).1 ⟨found, looked⟩
  split
  · refine Act.failsInto_end ?_ ?_
    · intro fault g' failed
      exact .inl (refused_of_connect failed).2
    · exact fun _ t => ⟨true, t, rfl⟩
  · next previous plugged =>
    split
    · exact Act.Returns.failsInto (b := false) rfl
    next differs =>
    split
    · exact Act.failsInto_throw (.inl rfl)
    next replaces =>
    -- The old source goes before the new one is known to come.
    refine Act.failsInto_bind ?_ ?_
    · intro fault g' failed
      rw [eval_issue_eq] at failed
      obtain ⟨-, rfl⟩ := Prod.mk.inj failed
      exact .inl rfl
    intro accepted g₁ parts
    rw [Act.Returns, eval_issue_eq] at parts
    obtain ⟨answer, rfl⟩ := Prod.mk.inj parts
    refine Act.failsInto_bind (fun _ _ failed => by cases failed) ?_
    rintro ⟨⟩ _ ⟨⟩
    refine Act.failsInto_end ?_ ?_
    · intro fault g' failed
      have failed : (connect source target).eval (g.parted previous target) = (.error fault, g') :=
        failed
      exact .inr ⟨previous, joinable, plugged, differs, replaces,
        Reply.returned_iff.2 ⟨accepted, answer⟩, (refused_of_connect failed).1⟩
    · exact fun _ t => ⟨true, t, rfl⟩

theorem failsInto_unplug (g : Graph α) (target : PortRef) :
    (unplug target).FailsInto (fun g' => g' = g ∨ ∃ previous, g' = g.parted previous target) g := by
  refine Act.failsInto_look rfl (.inl rfl) ?_
  rintro _ ⟨⟩
  refine Act.failsInto_look rfl (.inl rfl) fun t _ => ?_
  refine Act.failsInto_look rfl (.inl rfl) fun p _ => ?_
  split
  · exact Act.Returns.failsInto (b := none) rfl
  · next previous plugged =>
    -- The input has lost its source before the backend is told.
    refine Act.failsInto_bind (fun _ _ failed => by cases failed) ?_
    rintro ⟨⟩ _ ⟨⟩
    refine Act.failsInto_end ?_ ?_
    · intro fault g' failed
      rw [eval_issue_eq] at failed
      obtain ⟨-, rfl⟩ := Prod.mk.inj failed
      exact .inr ⟨previous, rfl⟩
    · exact fun _ t => ⟨some previous, t, rfl⟩

end Graph

variable {α : Type} [Number α]

/-- A plug that fails leaves each input the source that it had, unless it is cut short when it
replaces one; then that input, and no other, has lost its source. An unplug that fails before the
backend is told anything leaves all as it was, and any other leaves the other inputs their
sources. -/
theorem wiring_survives_failure (g : Graph α) (source target : PortRef) :
    (∀ fault g', (Graph.plug source target).eval g = (.error fault, g') →
        (g'.edges = g.edges ∧ ∀ r, g'.sourceOf r = g.sourceOf r) ∨
          ∃ previous, g.CutShort source target previous) ∧
      (∀ previous, g.CutShort source target previous →
        ∃ fault g', (Graph.plug source target).eval g = (.error fault, g') ∧
          g'.edges = g.edges.filter (fun e => e.2 ≠ target) ∧
          ∀ r, g'.sourceOf r = if r = target then none else g.sourceOf r) ∧
      ∀ fault g', (Graph.unplug target).eval g = (.error fault, g') →
        (g'.journal = g.journal → g'.edges = g.edges ∧ ∀ r, g'.sourceOf r = g.sourceOf r) ∧
          ∀ r, r ≠ target → g'.sourceOf r = g.sourceOf r := by
  constructor
  · intro fault g' failed
    obtain kept | cut := Graph.failsInto_plug g source target fault g' failed
    · exact .inl ⟨by rw [Graph.edges, kept, Graph.edges],
        fun r => by rw [Graph.sourceOf, kept, Graph.sourceOf]⟩
    · exact .inr cut
  constructor
  · intro previous cut
    obtain ⟨fault, failed⟩ := Graph.eval_plug_of_cutShort cut
    exact ⟨fault, _, failed, g.edges_parted previous target, g.sourceOf_parted previous target⟩
  · intro fault g' failed
    obtain rfl | ⟨previous, rfl⟩ := Graph.failsInto_unplug g target fault g' failed
    · exact ⟨fun _ => ⟨rfl, fun _ => rfl⟩, fun _ _ => rfl⟩
    · refine ⟨fun silent => ?_, fun r other => ?_⟩
      · cases List.append_right_eq_self.1 silent
      · rw [Graph.sourceOf_parted, if_neg other]

namespace Sample

def patched : Graph Scalar :=
  (Graph.start jacks .replace choosy).after
    [.instantiate "p" "a" [], .instantiate "p" "b" [], .instantiate "q" "c" [],
      .plug ⟨"a", "out"⟩ ⟨"c", "in"⟩]

end Sample

theorem wiring_survives_failure_sample :
    (∃ fault g',
      (Graph.plug ⟨"a", "out"⟩ ⟨"d", "in"⟩).eval Sample.patched = (.error fault, g') ∧
        g'.edges = Sample.patched.edges ∧ ∀ r, g'.sourceOf r = Sample.patched.sourceOf r) ∧
      (Sample.patched.CutShort ⟨"b", "out"⟩ ⟨"c", "in"⟩ ⟨"a", "out"⟩ ∧ ∃ fault g',
        (Graph.plug ⟨"b", "out"⟩ ⟨"c", "in"⟩).eval Sample.patched = (.error fault, g') ∧
          g'.edges = Sample.patched.edges.filter (fun e => e.2 ≠ ⟨"c", "in"⟩) ∧
          ∀ r, g'.sourceOf r = if r = ⟨"c", "in"⟩ then none else Sample.patched.sourceOf r) ∧
      ∃ fault g', (Graph.unplug ⟨"d", "in"⟩).eval Sample.patched = (.error fault, g') ∧
        g'.journal = Sample.patched.journal ∧ g'.edges = Sample.patched.edges ∧
        ∀ r, g'.sourceOf r = Sample.patched.sourceOf r := by
  have missing : ((Graph.plug ⟨"a", "out"⟩ ⟨"d", "in"⟩).eval Sample.patched).1.isOk = false := by
    decide +kernel
  have idle : ((Graph.unplug ⟨"d", "in"⟩).eval Sample.patched).1.isOk = false := by
    decide +kernel
  have joinable : (Sample.patched.ends ⟨"b", "out"⟩ ⟨"c", "in"⟩).isOk = true := by decide +kernel
  have cut : Sample.patched.CutShort ⟨"b", "out"⟩ ⟨"c", "in"⟩ ⟨"a", "out"⟩ := by
    refine ⟨?_, by decide +kernel, by decide, by decide +kernel, by decide +kernel,
      by decide +kernel⟩
    cases looked : Sample.patched.ends ⟨"b", "out"⟩ ⟨"c", "in"⟩ with
    | error fault =>
      rw [looked] at joinable
      cases joinable
    | ok found => exact (Graph.ends_eq_ok_iff ..).1 ⟨found, looked⟩
  obtain ⟨fault, g', failed⟩ := Act.exists_error_of_not_isOk missing
  obtain ⟨fault', g'', failed'⟩ := Act.exists_error_of_not_isOk idle
  constructor
  · refine ⟨fault, g', failed, ?_⟩
    obtain kept | ⟨previous, cut⟩ :=
      (wiring_survives_failure Sample.patched _ _).1 fault g' failed
    · exact kept
    · have free : Sample.patched.plugs.get? ⟨"d", "in"⟩ = none := by decide +kernel
      cases free.symm.trans cut.plugged
  constructor
  · exact ⟨cut, (wiring_survives_failure Sample.patched _ _).2.1 _ cut⟩
  · have silent : g''.journal = Sample.patched.journal := by
      rw [show g'' = _ from (congrArg Prod.snd failed').symm]
      rfl
    exact ⟨fault', g'', failed', silent,
      ((wiring_survives_failure Sample.patched ⟨"a", "out"⟩ _).2.2 fault' g'' failed').1 silent⟩

/-- The input of the sample graph is left without a source by an output that the backend refuses. -/
theorem not_wiring_survives_refusal :
    ∃ fault g', (Graph.plug ⟨"b", "out"⟩ ⟨"c", "in"⟩).eval Sample.patched = (.error fault, g') ∧
      Sample.patched.edges = [(⟨"a", "out"⟩, ⟨"c", "in"⟩)] ∧
      Sample.patched.sourceOf ⟨"c", "in"⟩ = some ⟨"a", "out"⟩ ∧
      g'.edges = [] ∧ g'.sourceOf ⟨"c", "in"⟩ = none := by
  have failed : ((Graph.plug ⟨"b", "out"⟩ ⟨"c", "in"⟩).eval Sample.patched).1.isOk = false := by
    decide +kernel
  obtain ⟨fault, g', evaluated⟩ := Act.exists_error_of_not_isOk failed
  refine ⟨fault, g', evaluated, by decide +kernel, by decide +kernel, ?_⟩
  rw [show g' = _ from (congrArg Prod.snd evaluated).symm]
  decide +kernel

namespace Sample

def clinging : Backend Scalar where
  reply _ call := match call with
    | .disconnect .. => .failed "busy"
    | _ => .done
  handleFor _ := .name

def tied : Graph Scalar :=
  (Graph.start jacks .replace clinging).after
    [.instantiate "p" "a" [], .instantiate "q" "c" [], .plug ⟨"a", "out"⟩ ⟨"c", "in"⟩]

end Sample

/-- The input loses its source, though the backend has not taken the plug out. -/
theorem not_wiring_survives_unplug :
    ∃ fault g', (Graph.unplug ⟨"c", "in"⟩).eval Sample.tied = (.error fault, g') ∧
      Sample.tied.edges = [(⟨"a", "out"⟩, ⟨"c", "in"⟩)] ∧
      Sample.tied.sourceOf ⟨"c", "in"⟩ = some ⟨"a", "out"⟩ ∧
      g'.edges = [] ∧ g'.sourceOf ⟨"c", "in"⟩ = none := by
  have failed : ((Graph.unplug ⟨"c", "in"⟩).eval Sample.tied).1.isOk = false := by
    decide +kernel
  obtain ⟨fault, g', evaluated⟩ := Act.exists_error_of_not_isOk failed
  refine ⟨fault, g', evaluated, by decide +kernel, by decide +kernel, ?_⟩
  rw [show g' = _ from (congrArg Prod.snd evaluated).symm]
  decide +kernel

end ShowControl
