import Mathlib.Data.List.Induction
import Mathlib.Data.List.Nodup
import ShowControl.Graph.Node
import ShowControl.Proofs.Graph.Command
import ShowControl.Proofs.List

/-! What the journal of a backend says: the commands that it took, the connections that they leave,
and the handles that it gave. -/

set_option autoImplicit false
namespace ShowControl

variable {α β : Type}

def Reply.returned : Reply → Bool
  | .done | .refused => true
  | .failed _ => false

theorem Backend.Steady.returned {b : Backend α} (steady : b.Steady) (journal : List (Exchange α))
    (call : Call α) : (b.reply journal call).returned = true := by
  cases reply : b.reply journal call with
  | done => rfl
  | refused => rfl
  | failed text => exact absurd reply (steady journal call text)

/-! The commands that were taken -/

def taken (journal : List (Exchange α)) : List (Call α) :=
  (journal.filter fun e => e.reply.returned).map Exchange.call

theorem taken_append (journal : List (Exchange α)) (e : Exchange α) :
    taken (journal ++ [e]) =
      if e.reply.returned then taken journal ++ [e.call] else taken journal := by
  simp only [taken, List.filter_append, List.map_append, List.filter_singleton]
  cases e.reply.returned <;> simp

/-- What the last of the commands says that says anything of this kind. -/
def lastTaken (read : Call α → Option β) (journal : List (Exchange α)) : Option β :=
  ((taken journal).filterMap read).getLast?

theorem lastTaken_append (read : Call α → Option β) (journal : List (Exchange α))
    (e : Exchange α) : lastTaken read (journal ++ [e]) =
      if e.reply.returned then (read e.call).or (lastTaken read journal)
      else lastTaken read journal := by
  rw [lastTaken, taken_append]
  split
  · cases said : read e.call <;> simp [lastTaken, said]
  · rfl

theorem lastTaken_of_returned (read : Call α → Option β) (journal : List (Exchange α))
    {e : Exchange α} (returned : e.reply.returned = true) :
    lastTaken read (journal ++ [e]) = (read e.call).or (lastTaken read journal) := by
  rw [lastTaken_append, if_pos returned]

theorem lastTaken_pass {read : Call α → Option β} (journal : List (Exchange α)) {e : Exchange α}
    (silent : e.reply.returned = true → read e.call = none) :
    lastTaken read (journal ++ [e]) = lastTaken read journal := by
  rw [lastTaken_append]
  split
  · next returned => rw [silent returned, Option.none_or]
  · rfl

theorem lastTaken_of_silent {read : Call α → Option β} {journal : List (Exchange α)}
    (silent : ∀ call ∈ taken journal, read call = none) : lastTaken read journal = none := by
  rw [lastTaken, List.filterMap_eq_nil_iff.2 silent]
  rfl

/-! What a command says of a node -/

/-- The state that a command leads to whatever the state was. -/
def Verb.state? : Verb → Option Transport
  | start => some .playing
  | pause => some .paused
  | stop => some .stopped
  | seek => none

namespace Call

def addressee? : Call α → Option Handle
  | setProperty h _ _ _ | transport h _ _ | showWindow h | moveWindow h _ _ => some h
  | create .. | connect .. | disconnect .. => none

def state? (h : Handle) : Call α → Option Transport
  | transport handle verb _ => if handle = h then verb.state? else none
  | _ => none

def seek? (h : Handle) : Call α → Option (List α)
  | transport handle .seek operands => if handle = h then some operands else none
  | _ => none

def value? (h : Handle) (element property : String) : Call α → Option PropertyValue
  | setProperty handle e p v => if handle = h ∧ e = element ∧ p = property then some v else none
  | _ => none

def place? (h : Handle) : Call α → Option (Int × Int)
  | moveWindow handle x y => if handle = h then some (x, y) else none
  | _ => none

/-- A reading of the commands to one node. -/
def About (h : Handle) (read : Call α → Option β) : Prop :=
  ∀ call, call.addressee? ≠ some h → read call = none

theorem about_state? (h : Handle) : About h (state? h : Call α → Option Transport) := by
  intro call other
  cases call with
  | transport handle verb operands => exact if_neg fun same => other (congrArg some same)
  | create | connect | disconnect | setProperty | showWindow | moveWindow => rfl

theorem about_seek? (h : Handle) : About h (seek? h : Call α → Option (List α)) := by
  intro call other
  cases call with
  | transport handle verb operands =>
    cases verb with
    | seek => exact if_neg fun same => other (congrArg some same)
    | start | pause | stop => rfl
  | create | connect | disconnect | setProperty | showWindow | moveWindow => rfl

theorem about_value? (h : Handle) (element property : String) :
    About h (value? h element property : Call α → Option PropertyValue) := by
  intro call other
  cases call with
  | setProperty handle e p v => exact if_neg fun same => other (congrArg some same.1)
  | create | connect | disconnect | transport | showWindow | moveWindow => rfl

theorem about_place? (h : Handle) : About h (place? h : Call α → Option (Int × Int)) := by
  intro call other
  cases call with
  | moveWindow handle x y => exact if_neg fun same => other (congrArg some same)
  | create | connect | disconnect | setProperty | transport | showWindow => rfl

end Call

/-! The connections -/

def Exchange.rewire (live : List (Socket × Socket)) (e : Exchange α) : List (Socket × Socket) :=
  match e.call with
  | .connect source target => if e.reply = .done then live ++ [(source, target)] else live
  | .disconnect source target =>
    if e.reply.returned then live.filter fun c => c ≠ (source, target) else live
  | _ => live

def connections (journal : List (Exchange α)) : List (Socket × Socket) :=
  journal.foldl Exchange.rewire []

theorem connections_append (journal : List (Exchange α)) (e : Exchange α) :
    connections (journal ++ [e]) = e.rewire (connections journal) := by
  rw [connections, List.foldl_append]
  rfl

/-- A command that fits the connections: no input is given a second source, no connection is made
again, and only what is connected is taken apart. -/
def Exchange.Fits (live : List (Socket × Socket)) (e : Exchange α) : Prop :=
  match e.call with
  | .connect source target =>
    e.reply = .done → (source, target) ∉ live ∧ target ∉ live.map Prod.snd
  | .disconnect source target => (source, target) ∈ live
  | _ => True

def Lawful (journal : List (Exchange α)) : Prop :=
  ∀ before e after, journal = before ++ e :: after → e.Fits (connections before)

theorem lawful_nil : Lawful ([] : List (Exchange α)) := by
  intro before e after split
  simp at split

theorem Lawful.append {journal : List (Exchange α)} {e : Exchange α} (lawful : Lawful journal)
    (fits : e.Fits (connections journal)) : Lawful (journal ++ [e]) := by
  intro before e' after split
  -- The command at the split is the new one, or the split is one of the journal.
  obtain ⟨rfl, rfl, -⟩ | ⟨between, whole, -⟩ := place_concat split
  · exact fits
  · exact lawful before e' between whole

theorem Lawful.of_append {before after : List (Exchange α)} (lawful : Lawful (before ++ after)) :
    Lawful before := by
  intro earlier e later split
  exact lawful earlier e (later ++ after) (by rw [split, List.append_assoc, List.cons_append])

theorem Lawful.nodup {journal : List (Exchange α)} (lawful : Lawful journal) :
    ((connections journal).map Prod.snd).Nodup := by
  induction journal using List.reverseRecOn with
  | nil => exact List.nodup_nil
  | append_singleton journal e ih =>
    have before := ih lawful.of_append
    have fits : e.Fits (connections journal) := lawful journal e [] rfl
    rw [connections_append]
    obtain ⟨call, reply⟩ := e
    cases call with
    | connect source target =>
      simp only [Exchange.rewire]
      split
      -- Only a connection that is made adds a source, and it fits.
      · next made =>
        have free : target ∉ (connections journal).map Prod.snd := (fits made).2
        rw [List.map_append, List.nodup_append_comm]
        exact List.nodup_cons.2 ⟨free, before⟩
      · exact before
    | disconnect source target =>
      simp only [Exchange.rewire]
      split
      · exact (List.filter_sublist.map Prod.snd).nodup before
      · exact before
    | create | setProperty | transport | showWindow | moveWindow => exact before

/-! Handles -/

def Backend.Gave (b : Backend α) (journal : List (Exchange α)) (h : Handle) (name : String) :
    Prop :=
  ∃ before template description reply after,
    journal = before ++ ⟨.create name template description, reply⟩ :: after ∧
      reply.returned = true ∧ b.handleFor before name = h

/-- A backend that gives no handle to nodes of two names. -/
def Backend.Distinct (b : Backend α) : Prop :=
  ∀ journal h name name', b.Gave journal h name → b.handleFor journal name' = h → name' = name

theorem Backend.Gave.append {b : Backend α} {journal : List (Exchange α)} {h : Handle}
    {name : String} (gave : b.Gave journal h name) (e : Exchange α) :
    b.Gave (journal ++ [e]) h name := by
  obtain ⟨before, template, description, reply, after, rfl, returned, given⟩ := gave
  exact ⟨before, template, description, reply, after ++ [e],
    by rw [List.append_assoc, List.cons_append], returned, given⟩

theorem Backend.distinct_of_name {b : Backend α}
    (named : ∀ journal name, b.handleFor journal name = .name name) : b.Distinct := by
  rintro journal h name name' ⟨before, _, _, _, _, -, -, given⟩ given'
  rw [named] at given given'
  exact Handle.name.inj (given'.trans given.symm)

end ShowControl
