import ShowControl.Fault

/-! Steps of a show.

A step runs on a state. It may be cut short by a fault, and then what it has changed up to there
stays; and it writes log lines. The log is written only: no step reads it. -/

set_option autoImplicit false
namespace ShowControl

inductive Level where
  | debug
  | info
  | warning
  | error
  deriving DecidableEq, Repr

def Level.name : Level → String
  | debug => "DEBUG"
  | info => "INFO"
  | warning => "WARNING"
  | error => "ERROR"

structure LogLine where
  level : Level
  text : String
  deriving DecidableEq, Repr

/-- What a step leaves: an answer or the fault that cut it short, the state, and its log lines. -/
structure Outcome (σ β : Type) where
  result : Except Fault β
  state : σ
  log : List LogLine

def Act (σ β : Type) : Type := σ → Outcome σ β

namespace Act

variable {σ τ β γ : Type}

def run (x : Act σ β) (s : σ) : Outcome σ β := x s

def pure (b : β) : Act σ β := fun s => ⟨.ok b, s, []⟩

def bind (x : Act σ β) (f : β → Act σ γ) : Act σ γ := fun s =>
  match x s with
  | ⟨.ok b, s', log⟩ =>
    let o := f b s'
    ⟨o.result, o.state, log ++ o.log⟩
  | ⟨.error e, s', log⟩ => ⟨.error e, s', log⟩

instance : Monad (Act σ) where
  pure := pure
  bind := bind

instance : LawfulMonad (Act σ) :=
  LawfulMonad.mk' (Act σ)
    (fun x => by
      funext s
      show bind x pure s = x s
      simp only [bind, pure]
      rcases x s with ⟨_ | _, _, _⟩ <;> simp)
    (fun b f => by
      funext s
      show bind (pure b) f s = f b s
      simp [bind, pure])
    (fun x f g => by
      funext s
      show bind (bind x f) g s = bind x (fun b => bind (f b) g) s
      simp only [bind]
      rcases x s with ⟨_ | b, s', log⟩
      · rfl
      · simp only
        rcases f b s' with ⟨_ | c, s'', log'⟩ <;> simp)

def fail (e : Fault) : Act σ β := fun s => ⟨.error e, s, []⟩

def recover (x : Act σ β) (handler : Fault → Act σ β) : Act σ β := fun s =>
  match x s with
  | ⟨.ok b, s', log⟩ => ⟨.ok b, s', log⟩
  | ⟨.error e, s', log⟩ =>
    let o := handler e s'
    ⟨o.result, o.state, log ++ o.log⟩

instance : MonadExceptOf Fault (Act σ) where
  throw := fail
  tryCatch := recover

instance : MonadStateOf σ (Act σ) where
  get := fun s => ⟨.ok s, s, []⟩
  set s := fun _ => ⟨.ok (), s, []⟩
  modifyGet f := fun s => ⟨.ok (f s).1, (f s).2, []⟩

def ofExcept (x : Except Fault β) : Act σ β := fun s => ⟨x, s, []⟩

def log (level : Level) (text : String) : Act σ Unit := fun s => ⟨.ok (), s, [⟨level, text⟩]⟩

def debug (text : String) : Act σ Unit := log .debug text

def info (text : String) : Act σ Unit := log .info text

def warn (text : String) : Act σ Unit := log .warning text

/-- The outcome of a step as an answer, in which a fault cuts nothing short. -/
def attempt (x : Act σ β) : Act σ (Except Fault β) := fun s =>
  let o := x s
  ⟨.ok o.result, o.state, o.log⟩

def zoom (get : τ → σ) (set : τ → σ → τ) (x : Act σ β) : Act τ β := fun t =>
  let o := x (get t)
  ⟨o.result, set t o.state, o.log⟩

/-- Runs a step on a state of its own. The answer has that state with it. -/
def apart (x : Act σ β) (s : σ) : Act τ (β × σ) := fun t =>
  let o := x s
  ⟨o.result.map fun b => (b, o.state), t, o.log⟩

end Act

end ShowControl
