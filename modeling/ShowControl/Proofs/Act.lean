import Mathlib.Data.List.Forall2
import Mathlib.Order.Defs.Unbundled
import ShowControl.Act

/-! What a step returns, and what it keeps.

No step reads the log, so that statements about answers and states leave it out. `Returns` is for a
step that comes to its end, `Keeps` for what a step does whether or not a fault cuts it short. -/

set_option autoImplicit false
namespace ShowControl

section Except

variable {ε ε' β γ : Type}

theorem ok_bind_iff {x : Except ε β} {f : β → Except ε γ} {c : γ} :
    x >>= f = .ok c ↔ ∃ b, x = .ok b ∧ f b = .ok c := by
  cases x <;> simp [bind, Except.bind]

@[simp] theorem mapError_ok (f : ε → ε') (b : β) : (Except.ok b).mapError f = .ok b := rfl

@[simp] theorem mapError_error (f : ε → ε') (e : ε) :
    (Except.error e : Except ε β).mapError f = .error (f e) := rfl

@[simp] theorem ok_mapError_iff {x : Except ε β} {f : ε → ε'} {b : β} :
    x.mapError f = .ok b ↔ x = .ok b := by
  cases x <;> simp

theorem forall₂_of_mapM_ok {f : β → Except ε γ} {l : List β} {found : List γ}
    (mapped : l.mapM f = .ok found) : List.Forall₂ (fun c b => f b = .ok c) found l := by
  induction l generalizing found with
  | nil =>
    cases mapped
    exact .nil
  | cons b rest ih =>
    rw [List.mapM_cons] at mapped
    obtain ⟨first, here, mapped⟩ := ok_bind_iff.1 mapped
    obtain ⟨others, there, mapped⟩ := ok_bind_iff.1 mapped
    cases mapped
    exact .cons here (ih there)

theorem mem_of_mapM_ok {f : β → Except ε γ} {l : List β} {found : List γ}
    (mapped : l.mapM f = .ok found) {c : γ} (member : c ∈ found) : ∃ b ∈ l, f b = .ok c := by
  induction l generalizing found with
  | nil =>
    cases mapped
    cases member
  | cons b rest ih =>
    rw [List.mapM_cons] at mapped
    obtain ⟨first, here, mapped⟩ := ok_bind_iff.1 mapped
    obtain ⟨others, there, mapped⟩ := ok_bind_iff.1 mapped
    cases mapped
    rcases List.mem_cons.1 member with rfl | later
    · exact ⟨b, List.mem_cons_self, here⟩
    · obtain ⟨other, within, read⟩ := ih there later
      exact ⟨other, List.mem_cons_of_mem b within, read⟩

theorem isOk_of_mapM_ok {f : β → Except ε γ} {l : List β} {found : List γ}
    (mapped : l.mapM f = .ok found) : ∀ b ∈ l, (f b).isOk = true := by
  induction l generalizing found with
  | nil => exact List.forall_mem_nil _
  | cons b rest ih =>
    rw [List.mapM_cons] at mapped
    obtain ⟨first, here, mapped⟩ := ok_bind_iff.1 mapped
    obtain ⟨others, there, -⟩ := ok_bind_iff.1 mapped
    refine List.forall_mem_cons.2 ⟨?_, ih there⟩
    rw [here]
    rfl

theorem mapM_ok_of_isOk {f : β → Except ε γ} {l : List β} (read : ∀ b ∈ l, (f b).isOk = true) :
    ∃ found, l.mapM f = .ok found := by
  induction l with
  | nil => exact ⟨[], rfl⟩
  | cons b rest ih =>
    obtain ⟨first, others⟩ := List.forall_mem_cons.1 read
    obtain ⟨found, there⟩ := ih others
    cases here : f b with
    | error e =>
      rw [here] at first
      cases first
    | ok c =>
      refine ⟨c :: found, ?_⟩
      rw [List.mapM_cons, here, there]
      rfl

theorem mapM_append_error {f : β → Except ε γ} {front : List β} {c : β} {e : ε}
    (read : ∀ b ∈ front, (f b).isOk = true) (failed : f c = .error e) (back : List β) :
    (front ++ c :: back).mapM f = .error e := by
  obtain ⟨found, mapped⟩ := mapM_ok_of_isOk read
  rw [List.mapM_append, mapped, List.mapM_cons, failed]
  rfl

/-- A traversal fails where the first element does that fails. -/
theorem split_of_mapM_error {f : β → Except ε γ} {l : List β} {e : ε}
    (failed : l.mapM f = .error e) :
    ∃ front c back, l = front ++ c :: back ∧ (∀ b ∈ front, (f b).isOk = true) ∧
      f c = .error e := by
  induction l with
  | nil => cases failed
  | cons b rest ih =>
    rw [List.mapM_cons] at failed
    cases here : f b with
    | error e' =>
      rw [here] at failed
      cases failed
      exact ⟨[], b, rest, rfl, List.forall_mem_nil _, here⟩
    | ok c =>
      cases there : rest.mapM f with
      | ok found =>
        rw [here, there] at failed
        cases failed
      | error e' =>
        rw [here, there] at failed
        cases failed
        obtain ⟨front, c', back, split, read, fails⟩ := ih there
        refine ⟨b :: front, c', back, congrArg (b :: ·) split, ?_, fails⟩
        exact List.forall_mem_cons.2 ⟨by rw [here]; rfl, read⟩

/-- The answer is no fault but one of this kind. -/
def FailsOnly (P : ε → Prop) (x : Except ε β) : Prop := ∀ e, x = .error e → P e

section FailsOnly

variable {P Q : ε → Prop}

theorem failsOnly_ok (b : β) : FailsOnly P (.ok b) := fun _ failed => nomatch failed

theorem failsOnly_error {e : ε} (kind : P e) : FailsOnly P (.error e : Except ε β) := by
  rintro _ ⟨⟩
  exact kind

theorem FailsOnly.mono {x : Except ε β} (fails : FailsOnly P x) (weaker : ∀ e, P e → Q e) :
    FailsOnly Q x := fun e failed => weaker e (fails e failed)

theorem failsOnly_bind {x : Except ε β} {f : β → Except ε γ} (first : FailsOnly P x)
    (second : ∀ b, x = .ok b → FailsOnly P (f b)) : FailsOnly P (x >>= f) := by
  cases x with
  | error e => exact fun other failed => first other (by cases failed; rfl)
  | ok b => exact second b rfl

theorem failsOnly_mapError {x : Except ε β} {f : ε → ε'} {P : ε' → Prop}
    (fails : FailsOnly (fun e => P (f e)) x) : FailsOnly P (x.mapError f) := by
  cases x with
  | error e => exact failsOnly_error (fails e rfl)
  | ok b => exact failsOnly_ok b

theorem failsOnly_mapM {f : β → Except ε γ} {l : List β} (each : ∀ b ∈ l, FailsOnly P (f b)) :
    FailsOnly P (l.mapM f) := by
  induction l with
  | nil => exact failsOnly_ok []
  | cons b rest ih =>
    obtain ⟨first, others⟩ := List.forall_mem_cons.1 each
    rw [List.mapM_cons]
    refine failsOnly_bind first fun _ _ => failsOnly_bind (ih others) fun _ _ => failsOnly_ok _

theorem failsOnly_foldlM {f : β → γ → Except ε β} (step : ∀ b c, FailsOnly P (f b c)) (l : List γ)
    (b : β) : FailsOnly P (l.foldlM f b) := by
  induction l generalizing b with
  | nil => exact failsOnly_ok b
  | cons c rest ih =>
    rw [List.foldlM_cons]
    exact failsOnly_bind (step b c) fun b _ => ih b

end FailsOnly

end Except

namespace Act

variable {σ τ β γ : Type}

/-- The answer and the state that a step leaves. -/
def eval (x : Act σ β) (s : σ) : Except Fault β × σ := ((x.run s).result, (x.run s).state)

/-- The step comes to its end with this answer and this state. -/
def Returns (x : Act σ β) (s : σ) (b : β) (s' : σ) : Prop := x.eval s = (.ok b, s')

/-- The state before a step and the one that it leaves are related. -/
def Keeps (R : σ → σ → Prop) (x : Act σ β) : Prop := ∀ s, R s (x.eval s).2

section Eval

@[simp] theorem eval_pure (b : β) (s : σ) : (Pure.pure b : Act σ β).eval s = (.ok b, s) := rfl

theorem eval_bind (x : Act σ β) (f : β → Act σ γ) (s : σ) :
    (x >>= f).eval s = match x.eval s with
      | (.ok b, t) => (f b).eval t
      | (.error e, t) => (.error e, t) := by
  show eval (bind x f) s = _
  simp only [eval, run, bind]
  rcases x s with ⟨_ | b, t, lines⟩ <;> rfl

/-- The state is settled where the rest of a step only answers. -/
theorem state_bind (x : Act σ β) {f : β → Act σ γ} (still : ∀ b t, ((f b).eval t).2 = t) (s : σ) :
    ((x >>= f).eval s).2 = (x.eval s).2 := by
  rw [eval_bind]
  rcases x.eval s with ⟨_ | b, t⟩
  · rfl
  · exact still b t

@[simp] theorem eval_get (s : σ) : (MonadState.get : Act σ σ).eval s = (.ok s, s) := rfl

@[simp] theorem eval_modify (f : σ → σ) (s : σ) :
    (modify f : Act σ PUnit).eval s = (.ok ⟨⟩, f s) := rfl

@[simp] theorem eval_throw (e : Fault) (s : σ) : (throw e : Act σ β).eval s = (.error e, s) := rfl

@[simp] theorem eval_ofExcept (r : Except Fault β) (s : σ) : (ofExcept r).eval s = (r, s) := rfl

@[simp] theorem eval_log (level : Level) (text : String) (s : σ) :
    (log level text).eval s = (.ok (), s) := rfl

@[simp] theorem eval_debug (text : String) (s : σ) : (debug text).eval s = (.ok (), s) := rfl

@[simp] theorem eval_info (text : String) (s : σ) : (info text).eval s = (.ok (), s) := rfl

@[simp] theorem eval_warn (text : String) (s : σ) : (warn text).eval s = (.ok (), s) := rfl

@[simp] theorem eval_attempt (x : Act σ β) (s : σ) :
    x.attempt.eval s = (.ok (x.eval s).1, (x.eval s).2) := rfl

@[simp] theorem eval_zoom (get : τ → σ) (set : τ → σ → τ) (x : Act σ β) (t : τ) :
    (x.zoom get set).eval t = ((x.eval (get t)).1, set t (x.eval (get t)).2) := rfl

end Eval

section Returns

@[simp] theorem returns_pure (b c : β) (s s' : σ) :
    (Pure.pure b : Act σ β).Returns s c s' ↔ b = c ∧ s = s' := by
  simp [Returns]

theorem returns_bind (x : Act σ β) (f : β → Act σ γ) (s : σ) (c : γ) (s' : σ) :
    (x >>= f).Returns s c s' ↔ ∃ b t, x.Returns s b t ∧ (f b).Returns t c s' := by
  simp only [Returns, eval_bind]
  rcases x.eval s with ⟨_ | b, t⟩
  · simp
  · simp [and_assoc]

@[simp] theorem returns_get (s b s' : σ) :
    (MonadState.get : Act σ σ).Returns s b s' ↔ s = b ∧ s = s' := by
  simp [Returns]

@[simp] theorem returns_modify (f : σ → σ) (s s' : σ) (u : PUnit) :
    (modify f : Act σ PUnit).Returns s u s' ↔ f s = s' := by
  simp [Returns]

@[simp] theorem returns_throw (e : Fault) (s : σ) (b : β) (s' : σ) :
    ¬(throw e : Act σ β).Returns s b s' := by
  simp [Returns]

@[simp] theorem returns_ofExcept (r : Except Fault β) (s : σ) (b : β) (s' : σ) :
    (ofExcept r).Returns s b s' ↔ r = .ok b ∧ s = s' := by
  simp [Returns]

@[simp] theorem returns_debug (text : String) (s s' : σ) (u : Unit) :
    (debug text).Returns s u s' ↔ s = s' := by
  simp [Returns]

@[simp] theorem returns_info (text : String) (s s' : σ) (u : Unit) :
    (info text).Returns s u s' ↔ s = s' := by
  simp [Returns]

@[simp] theorem returns_warn (text : String) (s s' : σ) (u : Unit) :
    (warn text).Returns s u s' ↔ s = s' := by
  simp [Returns]

@[simp] theorem returns_zoom (get : τ → σ) (set : τ → σ → τ) (x : Act σ β) (t : τ) (b : β)
    (t' : τ) :
    (x.zoom get set).Returns t b t' ↔ ∃ s', x.Returns (get t) b s' ∧ set t s' = t' := by
  simp only [Returns, eval_zoom]
  rcases x.eval (get t) with ⟨_ | c, s'⟩
  · simp
  · simp [and_assoc]

/-- A step has one outcome. -/
theorem Returns.determined {x : Act σ β} {s s₁ s₂ : σ} {b₁ b₂ : β} (first : x.Returns s b₁ s₁)
    (second : x.Returns s b₂ s₂) : b₁ = b₂ ∧ s₁ = s₂ := by
  have same := first.symm.trans second
  simpa using same

theorem exists_returns_of_isOk {x : Act σ β} {s : σ} (ok : (x.eval s).1.isOk = true) :
    ∃ b, x.Returns s b (x.eval s).2 := by
  simp only [Returns]
  generalize x.eval s = outcome at ok
  rcases outcome with ⟨_ | b, t⟩
  · cases ok
  · exact ⟨b, rfl⟩

theorem exists_error_of_not_isOk {x : Act σ β} {s : σ} (failed : (x.eval s).1.isOk = false) :
    ∃ fault t, x.eval s = (.error fault, t) := by
  generalize x.eval s = outcome at failed
  rcases outcome with ⟨fault | _, t⟩
  · exact ⟨fault, t, rfl⟩
  · cases failed

/-- Where what follows a step comes to its end, it is the step that fails. -/
theorem error_bind_iff {x : Act σ β} {f : β → Act σ γ} {s t : σ} {fault : Fault}
    (ends : ∀ b u, ∃ c v, (f b).Returns u c v) :
    (x >>= f).eval s = (.error fault, t) ↔ x.eval s = (.error fault, t) := by
  rw [eval_bind]
  rcases x.eval s with ⟨_ | b, u⟩
  · simp
  · obtain ⟨c, v, returned⟩ := ends b u
    simp only [Returns] at returned
    simp [returned]

end Returns

/-- A step of two parts fails where one of the parts does. -/
theorem failsOnly_bind {P : Fault → Prop} {x : Act σ β} {f : β → Act σ γ} {s : σ}
    (first : FailsOnly P (x.eval s).1)
    (second : ∀ b t, x.Returns s b t → FailsOnly P ((f b).eval t).1) :
    FailsOnly P ((x >>= f).eval s).1 := by
  rw [eval_bind]
  simp only [Returns] at second
  generalize x.eval s = outcome at first second
  obtain ⟨_ | b, t⟩ := outcome
  · exact failsOnly_error (first _ rfl)
  · exact second b t rfl

/-- From every state of a kind the step comes to its end, in a state of that kind and with such an
answer. -/
def Secures (P : σ → Prop) (x : Act σ β) (Q : β → Prop) : Prop :=
  ∀ s, P s → ∃ b t, x.Returns s b t ∧ P t ∧ Q b

section Secures

variable {P : σ → Prop} {Q : β → Prop} {R : γ → Prop}

theorem secures_pure {b : β} (holds : Q b) : Secures P (Pure.pure b) Q :=
  fun s kept => ⟨b, s, rfl, kept, holds⟩

theorem secures_bind {x : Act σ β} {f : β → Act σ γ} (first : Secures P x Q)
    (second : ∀ b, Q b → Secures P (f b) R) : Secures P (x >>= f) R := by
  intro s kept
  obtain ⟨b, t, returned, kept, holds⟩ := first s kept
  obtain ⟨c, u, returned', kept, holds⟩ := second b holds t kept
  exact ⟨c, u, (returns_bind ..).2 ⟨b, t, returned, returned'⟩, kept, holds⟩

/-- What is known of a state is known of the one that a step looks at. -/
theorem secures_get {f : σ → Act σ γ} (second : ∀ s, P s → Secures P (f s) R) :
    Secures P (MonadState.get >>= f) R :=
  fun s kept => second s kept s kept

theorem secures_of_eval {x : Act σ β} {b : β} {f : σ → σ} (comes : ∀ s, x.eval s = (.ok b, f s))
    (kept : ∀ s, P s → P (f s)) (holds : Q b) : Secures P x Q :=
  fun s before => ⟨b, f s, comes s, kept s before, holds⟩

theorem secures_modify {f : σ → σ} (kept : ∀ s, P s → P (f s)) :
    Secures P (modify f : Act σ PUnit) fun _ => True :=
  secures_of_eval (fun _ => rfl) kept trivial

theorem secures_ofExcept {r : Except Fault β} {b : β} (ok : r = .ok b) :
    Secures P (ofExcept r : Act σ β) (· = b) :=
  fun s kept => ⟨b, s, congrArg (·, s) ok, kept, rfl⟩

theorem secures_log (level : Level) (text : String) :
    Secures P (log level text : Act σ Unit) fun _ => True :=
  fun s kept => ⟨(), s, rfl, kept, trivial⟩

theorem secures_zoom {S : τ → Prop} {get : τ → σ} {set : τ → σ → τ} {x : Act σ β}
    (secured : Secures P x Q) (part : ∀ t, S t → P (get t))
    (whole : ∀ t s, S t → P s → S (set t s)) : Secures S (x.zoom get set) Q := by
  intro t kept
  obtain ⟨b, s, returned, kept', holds⟩ := secured (get t) (part t kept)
  exact ⟨b, set t s, (returns_zoom ..).2 ⟨s, returned, rfl⟩, whole t s kept kept', holds⟩

end Secures

/-- From this state the step comes to its end, or its fault leaves such a state. -/
def FailsInto (P : σ → Prop) (x : Act σ β) (s : σ) : Prop :=
  ∀ fault t, x.eval s = (.error fault, t) → P t

section FailsInto

variable {P : σ → Prop} {s : σ}

theorem failsInto_throw {e : Fault} (holds : P s) : (throw e : Act σ β).FailsInto P s := by
  intro fault t failed
  cases failed
  exact holds

theorem Returns.failsInto {x : Act σ β} {b : β} {t : σ} (returned : x.Returns s b t) :
    x.FailsInto P s := by
  intro fault u failed
  cases returned.symm.trans failed

theorem failsInto_bind {x : Act σ β} {f : β → Act σ γ} (first : x.FailsInto P s)
    (second : ∀ b t, x.Returns s b t → (f b).FailsInto P t) : (x >>= f).FailsInto P s := by
  intro fault t failed
  rw [eval_bind] at failed
  simp only [Returns] at second
  unfold FailsInto at first
  generalize x.eval s = outcome at first failed second
  obtain ⟨_ | b, u⟩ := outcome
  · cases failed
    exact first _ _ rfl
  · exact second b u rfl fault t failed

/-- A part that changes nothing may fail. -/
theorem failsInto_look {x : Act σ β} {f : β → Act σ γ} (still : (x.eval s).2 = s) (holds : P s)
    (second : ∀ b, x.Returns s b s → (f b).FailsInto P s) : (x >>= f).FailsInto P s := by
  refine failsInto_bind (fun fault t failed => ?_) fun b t returned => ?_
  · rw [failed] at still
    cases still
    exact holds
  · obtain rfl : t = s := (congrArg Prod.snd returned).symm.trans still
    exact second b returned

/-- What follows the last part that may fail does not matter. -/
theorem failsInto_end {x : Act σ β} {f : β → Act σ γ} (first : x.FailsInto P s)
    (second : ∀ b t, ∃ c u, (f b).Returns t c u) : (x >>= f).FailsInto P s :=
  fun fault t failed => first fault t ((error_bind_iff second).1 failed)

end FailsInto

/-- From this state the step comes to its end, or its fault leaves the state as it was. -/
def AllOrNothing (x : Act σ β) (s : σ) : Prop := ∀ fault t, x.eval s = (.error fault, t) → t = s

section AllOrNothing

variable {s : σ}

theorem Returns.allOrNothing {x : Act σ β} {b : β} {t : σ} (returned : x.Returns s b t) :
    x.AllOrNothing s := returned.failsInto

/-- What comes before the first change may fail. -/
theorem allOrNothing_look {x : Act σ β} {f : β → Act σ γ} (still : (x.eval s).2 = s)
    (second : ∀ b, (f b).AllOrNothing s) : (x >>= f).AllOrNothing s :=
  failsInto_look still rfl fun b _ => second b

/-- What comes after it may not. -/
theorem allOrNothing_change {x : Act σ β} {f : β → Act σ γ} (first : x.AllOrNothing s)
    (second : ∀ b t, ∃ c u, (f b).Returns t c u) : (x >>= f).AllOrNothing s :=
  failsInto_end first second

theorem allOrNothing_zoom {get : τ → σ} {set : τ → σ → τ} {x : Act σ β} {t : τ}
    (part : x.AllOrNothing (get t)) (back : set t (get t) = t) :
    (x.zoom get set).AllOrNothing t := by
  intro fault u failed
  rw [eval_zoom] at failed
  obtain ⟨result, rfl⟩ := Prod.mk.inj failed
  have kept : (x.eval (get t)).2 = get t := part fault _ (Prod.ext result rfl)
  rw [kept, back]

end AllOrNothing

section Keeps

variable {R : σ → σ → Prop}

theorem Keeps.of_returns {x : Act σ β} (keeps : x.Keeps R) {s s' : σ} {b : β}
    (returned : x.Returns s b s') : R s s' := by
  have kept := keeps s
  rw [returned] at kept
  exact kept

variable [IsPreorder σ R]

theorem keeps_pure (b : β) : (Pure.pure b : Act σ β).Keeps R := fun s => refl_of R s

theorem keeps_get : (MonadState.get : Act σ σ).Keeps R := fun s => refl_of R s

theorem keeps_throw (e : Fault) : (throw e : Act σ β).Keeps R := fun s => refl_of R s

theorem keeps_ofExcept (r : Except Fault β) : (ofExcept r : Act σ β).Keeps R :=
  fun s => refl_of R s

theorem keeps_log (level : Level) (text : String) : (log level text : Act σ Unit).Keeps R :=
  fun s => refl_of R s

omit [IsPreorder σ R] in
theorem keeps_modify {f : σ → σ} (related : ∀ s, R s (f s)) : (modify f : Act σ PUnit).Keeps R :=
  related

/-- From one state, the rest of a step is only looked at where the first part leads. -/
theorem kept_bind {x : Act σ β} {f : β → Act σ γ} {s : σ} (first : R s (x.eval s).2)
    (second : ∀ b, x.Returns s b (x.eval s).2 → R (x.eval s).2 ((f b).eval (x.eval s).2).2) :
    R s ((x >>= f).eval s).2 := by
  rw [eval_bind]
  simp only [Returns] at second
  generalize x.eval s = outcome at first second
  obtain ⟨_ | b, t⟩ := outcome
  · exact first
  · exact trans_of R first (second b rfl)

theorem keeps_bind {x : Act σ β} {f : β → Act σ γ} (first : x.Keeps R)
    (second : ∀ b, (f b).Keeps R) : (x >>= f).Keeps R :=
  fun s => kept_bind (first s) fun b _ => second b _

omit [IsPreorder σ R] in
/-- A step on a part keeps what follows from what it keeps of the part. -/
theorem keeps_zoom {S : τ → τ → Prop} {get : τ → σ} {set : τ → σ → τ} {x : Act σ β}
    (kept : x.Keeps R) (whole : ∀ t s, R (get t) s → S t (set t s)) : (x.zoom get set).Keeps S :=
  fun t => whole t _ (kept (get t))

omit [IsPreorder σ R] in
theorem keeps_attempt {x : Act σ β} (kept : x.Keeps R) : x.attempt.Keeps R := kept

end Keeps

end Act

end ShowControl
