import Mathlib.Algebra.GroupWithZero.Nat
import Mathlib.Data.List.Induction
import ShowControl.Proofs.List
import ShowControl.Proofs.Number.Order
import ShowControl.Proofs.Show.Operation

/-! What goes into a channel comes out of it.

A record holds the operations on a channel with their answers. The signals that the record says were
accepted are those that it says were taken out, those that a closing discarded, and those that still
wait, in this order; and the signals turned away are counted. -/

set_option autoImplicit false
namespace ShowControl

/-- An operation on a channel. A reader that waits in vain is answered like one that does not wait. -/
inductive Channel.Operation (α : Type) where
  | progress (source : Handle) (value : α)
  | callback (source : Handle) (event : Option String)
  | stop (reason : Option String)
  | take
  | close

inductive Channel.Answer (α : Type) where
  | put (accepted : Bool)
  | took (signal : Option (Signal α))
  | closed (discarded : Nat)

structure Channel.Entry (α : Type) where
  operation : Channel.Operation α
  answer : Channel.Answer α

namespace Channel

variable {α : Type} [Number α]

namespace Operation

def act : Operation α → Act (Channel α) (Answer α)
  | progress source value => return .put (← putProgress source value)
  | callback source event => return .put (← putCallback source event)
  | stop reason => return .put (← putStop reason)
  | take => return .took (← Channel.take)
  | close => return .closed (← Channel.close)

def signal? : Operation α → Option (Signal α)
  | progress source value => some (.progress source (some (Number.atLeast 0 value)))
  | callback source event => some (.callback source event)
  | stop reason => some (.stop reason)
  | take | close => none

def void : Operation α → Bool
  | progress _ value => Number.isUndefined value
  | callback .. | stop _ | take | close => false

end Operation

namespace Entry

def accepted? (e : Entry α) : Option (Signal α) :=
  match e.answer with
  | .put true => e.operation.signal?
  | _ => none

omit [Number α] in
def returned? (e : Entry α) : Option (Signal α) :=
  match e.answer with
  | .took signal => signal
  | _ => none

omit [Number α] in
def discarded (e : Entry α) : Nat :=
  match e.answer with
  | .closed discarded => discarded
  | _ => 0

def dropped (e : Entry α) : Bool :=
  match e.answer with
  | .put false => !e.operation.void
  | _ => false

end Entry

def perform (operations : List (Operation α)) : Act (Channel α) (List (Entry α)) :=
  operations.mapM fun operation => return ⟨operation, ← operation.act⟩

/-! What one operation does -/

inductive Does (c : Channel α) : Entry α → Channel α → Prop where
  | accepts {operation : Operation α} {signal : Signal α} : operation.signal? = some signal →
      operation.void = false → c.closed = false → c.full = false →
      Does c ⟨operation, .put true⟩ { c with queue := c.queue ++ [signal] }
  | drops {operation : Operation α} {signal : Signal α} : operation.signal? = some signal →
      operation.void = false → ¬(c.closed = false ∧ c.full = false) →
      Does c ⟨operation, .put false⟩ { c with dropped := c.dropped + 1 }
  | ignores {operation : Operation α} : operation.void = true → Does c ⟨operation, .put false⟩ c
  | finds {signal : Signal α} {rest : List (Signal α)} : c.queue = signal :: rest →
      Does c ⟨.take, .took (some signal)⟩ { c with queue := rest }
  | misses : c.queue = [] → Does c ⟨.take, .took none⟩ c
  | closes : Does c ⟨.close, .closed c.queue.length⟩ { c with queue := [], closed := true }

omit [Number α] in
theorem eval_put (signal : Signal α) (c : Channel α) :
    (put signal).eval c =
      if c.closed = false ∧ c.full = false then
        (.ok true, { c with queue := c.queue ++ [signal] })
      else (.ok false, { c with dropped := c.dropped + 1 }) := by
  simp only [put, Act.eval_bind, Act.eval_get]
  cases closed : c.closed with
  | true => simp only [if_true, Act.eval_bind, Act.eval_modify, Act.eval_debug, Act.eval_pure,
      Bool.true_eq_false, false_and, if_false, closed]
  | false =>
    cases full : c.full <;>
      simp [Act.eval_bind, closed, -bind_pure_comp]

theorem does_put {operation : Operation α} {signal : Signal α} (c : Channel α)
    (puts : operation.act = (do return .put (← put signal)))
    (hands : operation.signal? = some signal) (defined : operation.void = false) :
    ∃ answer d, operation.act.Returns c answer d ∧ Does c ⟨operation, answer⟩ d := by
  rw [puts]
  simp only [Act.Returns, Act.eval_bind, eval_put]
  by_cases room : c.closed = false ∧ c.full = false
  · rw [if_pos room]
    exact ⟨_, _, rfl, .accepts hands defined room.1 room.2⟩
  · rw [if_neg room]
    exact ⟨_, _, rfl, .drops hands defined room⟩

theorem does_act (operation : Operation α) (c : Channel α) :
    ∃ answer d, operation.act.Returns c answer d ∧ Does c ⟨operation, answer⟩ d := by
  cases operation with
  | progress source value =>
    cases defined : Number.isUndefined value with
    | true =>
      refine ⟨.put false, c, ?_, .ignores defined⟩
      simp only [Operation.act, putProgress, defined, if_true, Act.Returns, Act.eval_bind,
        Act.eval_warn, Act.eval_pure]
    | false =>
      refine does_put c ?_ rfl defined
      rw [Operation.act, putProgress, defined]
      rfl
  | callback source event => exact does_put c rfl rfl rfl
  | stop reason => exact does_put c rfl rfl rfl
  | take =>
    simp only [Operation.act, Channel.take, Act.Returns, Act.eval_bind, Act.eval_get]
    cases waiting : c.queue with
    | nil => exact ⟨_, _, rfl, .misses waiting⟩
    | cons signal rest => exact ⟨_, _, rfl, .finds waiting⟩
  | close =>
    refine ⟨.closed c.queue.length, _, ?_, .closes⟩
    simp only [Operation.act, Act.Returns, Act.eval_bind, Show.eval_close, Act.eval_pure]

section Does

variable {c d : Channel α} {e : Entry α}

theorem Does.capacity (does : Does c e d) : d.capacity = c.capacity := by
  cases does <;> rfl

theorem Does.dropped (does : Does c e d) :
    d.dropped = c.dropped + if e.dropped then 1 else 0 := by
  cases does with
  | drops _ valid => simp [Entry.dropped, valid]
  | ignores void => simp [Entry.dropped, void]
  | accepts | finds | misses | closes => rfl

theorem Does.bounded (does : Does c e d)
    (bounded : 0 < c.capacity → c.queue.length ≤ c.capacity) (positive : 0 < d.capacity) :
    d.queue.length ≤ d.capacity := by
  rw [does.capacity] at positive ⊢
  have bounded := bounded positive
  cases does with
  | accepts _ _ _ room =>
    have room : ¬c.capacity ≤ c.queue.length := by simpa [full, positive] using room
    rw [List.length_append, List.length_singleton]
    omega
  | @finds _ rest waiting =>
    rw [waiting, List.length_cons] at bounded
    show (rest.length : Int) ≤ c.capacity
    omega
  | closes => exact Int.le_of_lt positive
  | drops | ignores | misses => exact bounded

theorem Does.closed (does : Does c e d) (closed : c.closed = true) : d.closed = true := by
  cases does with
  | closes => rfl
  | accepts | drops | ignores | finds | misses => exact closed

theorem Does.closed_of_close (does : Does c e d) (closing : e.operation = .close) :
    d.closed = true := by
  cases does with
  | closes => rfl
  | accepts hands | drops hands =>
    cases closing
    cases hands
  | ignores void =>
    cases closing
    cases void
  | finds | misses => cases closing

theorem Does.opened (does : Does c e d) (opened : d.closed = false) : c.closed = false ∧
    c.queue ++ e.accepted?.toList = e.returned?.toList ++ d.queue ∧ e.discarded = 0 := by
  cases does with
  | accepts hands => exact ⟨opened, by simp [Entry.accepted?, Entry.returned?, hands], rfl⟩
  | finds waiting => exact ⟨opened, by simp [Entry.accepted?, Entry.returned?, waiting], rfl⟩
  | drops | ignores | misses => exact ⟨opened, List.append_nil _, rfl⟩
  | closes => cases opened

/-- A closed channel is empty, takes nothing and gives nothing. Only by being closed does a channel
lose the signals that waited. -/
theorem Does.shut (does : Does c e d) (closed : d.closed = true)
    (empty : c.closed = true → c.queue = []) : d.queue = [] ∧ e.accepted? = none ∧
    e.returned? = none ∧ e.discarded = c.queue.length := by
  cases does with
  | accepts _ _ opened => cases opened.symm.trans closed
  | finds waiting => cases waiting.symm.trans (empty closed)
  | drops | ignores =>
    have empty := empty closed
    exact ⟨empty, rfl, rfl, by rw [empty]; rfl⟩
  | misses waiting => exact ⟨waiting, rfl, rfl, by rw [waiting]; rfl⟩
  | closes => exact ⟨rfl, rfl, rfl, rfl⟩

end Does

/-! What a record says -/

def accepted (record : List (Entry α)) : List (Signal α) := record.filterMap Entry.accepted?

omit [Number α] in
def returned (record : List (Entry α)) : List (Signal α) := record.filterMap Entry.returned?

omit [Number α] in
def discarded (record : List (Entry α)) : Nat := (record.map Entry.discarded).sum

def turnedAway (record : List (Entry α)) : Nat := record.countP Entry.dropped

@[simp] theorem accepted_concat (record : List (Entry α)) (e : Entry α) :
    accepted (record ++ [e]) = accepted record ++ e.accepted?.toList := by
  rw [accepted, List.filterMap_append]
  cases handed : e.accepted? <;> simp [accepted, handed]

omit [Number α] in
@[simp] theorem returned_concat (record : List (Entry α)) (e : Entry α) :
    returned (record ++ [e]) = returned record ++ e.returned?.toList := by
  rw [returned, List.filterMap_append]
  cases given : e.returned? <;> simp [returned, given]

omit [Number α] in
@[simp] theorem discarded_concat (record : List (Entry α)) (e : Entry α) :
    discarded (record ++ [e]) = discarded record + e.discarded := by
  simp [discarded]

@[simp] theorem turnedAway_concat (record : List (Entry α)) (e : Entry α) :
    turnedAway (record ++ [e]) = turnedAway record + if e.dropped then 1 else 0 := by
  simp [turnedAway, List.countP_append, List.countP_singleton]

/-! What holds of every record -/

/-- The record accounts for every signal. -/
structure Accounts (record : List (Entry α)) (c : Channel α) : Prop where
  bounded : 0 < c.capacity → c.queue.length ≤ c.capacity
  opened : c.closed = false → accepted record = returned record ++ c.queue ∧ discarded record = 0
  shut : c.closed = true → c.queue = [] ∧
    ∃ lost, accepted record = returned record ++ lost ∧ lost.length = discarded record
  counted : c.dropped = turnedAway record
  defined : ∀ source value, .progress source value ∈ accepted record →
    ∃ x, Number.isUndefined x = false ∧ value = some (Number.atLeast 0 x)
  final : ∀ before closing after, record = before ++ closing :: after →
    closing.operation = .close →
    c.closed = true ∧ ∀ e ∈ after, e.accepted? = none ∧ e.returned? = none

theorem accounts_nil (capacity : Int) : Accounts [] (ofCapacity capacity : Channel α) where
  bounded := Int.le_of_lt
  opened _ := ⟨rfl, rfl⟩
  shut closed := nomatch closed
  counted := rfl
  defined := nofun
  final _ _ _ split := by simp at split

/-- Progress is put in only if it is a number, and then it is not below zero. -/
theorem Operation.defined_of_signal? {operation : Operation α} {source : Handle} {value : Option α}
    (hands : operation.signal? = some (.progress source value)) (defined : operation.void = false) :
    ∃ x, Number.isUndefined x = false ∧ value = some (Number.atLeast 0 x) := by
  cases operation with
  | progress _ x =>
    cases hands
    exact ⟨x, defined, rfl⟩
  | callback | stop | take | close => cases hands

theorem Does.defined {c d : Channel α} {e : Entry α} (does : Does c e d) {source : Handle}
    {value : Option α} (taken : e.accepted? = some (.progress source value)) :
    ∃ x, Number.isUndefined x = false ∧ value = some (Number.atLeast 0 x) := by
  cases does with
  | accepts _ valid => exact Operation.defined_of_signal? taken valid
  | drops | ignores | finds | misses | closes => cases taken

theorem Accounts.step {record : List (Entry α)} {c d : Channel α} {e : Entry α}
    (accounts : Accounts record c) (does : Does c e d) : Accounts (record ++ [e]) d where
  bounded := does.bounded accounts.bounded
  opened opened := by
    obtain ⟨before, moved, kept⟩ := does.opened opened
    obtain ⟨conserved, none⟩ := accounts.opened before
    rw [accepted_concat, returned_concat, discarded_concat, conserved, List.append_assoc, moved,
      List.append_assoc, none, kept]
    exact ⟨rfl, rfl⟩
  shut closed := by
    obtain ⟨empty, taken, given, lost⟩ := does.shut closed fun before => (accounts.shut before).1
    rw [accepted_concat, returned_concat, discarded_concat, taken, given, lost]
    simp only [Option.toList_none, List.append_nil]
    refine ⟨empty, ?_⟩
    cases before : c.closed with
    | true =>
      obtain ⟨nothing, earlier, conserved, counts⟩ := accounts.shut before
      exact ⟨earlier, conserved, by rw [counts, nothing]; rfl⟩
    | false =>
      obtain ⟨conserved, none⟩ := accounts.opened before
      exact ⟨c.queue, conserved, by rw [none, Nat.zero_add]⟩
  counted := by rw [does.dropped, turnedAway_concat, accounts.counted]
  defined source value member := by
    rw [accepted_concat, List.mem_append, Option.mem_toList] at member
    exact member.elim (accounts.defined source value) does.defined
  final before closing after split closes := by
    obtain ⟨rfl, rfl, rfl⟩ | ⟨between, place, rfl⟩ := place_concat split
    · exact ⟨does.closed_of_close closes, List.forall_mem_nil _⟩
    · obtain ⟨closed, silent⟩ := accounts.final before closing between place closes
      have closed' := does.closed closed
      obtain ⟨-, taken, given, -⟩ := does.shut closed' fun before => (accounts.shut before).1
      exact ⟨closed', List.forall_mem_append.2
        ⟨silent, List.forall_mem_singleton.2 ⟨taken, given⟩⟩⟩

theorem perform_concat (operations : List (Operation α)) (operation : Operation α) :
    perform (operations ++ [operation]) = (do
      let record ← perform operations
      let answer ← operation.act
      return record ++ [⟨operation, answer⟩]) := by
  simp [perform, List.mapM_append]

theorem accounts_perform (capacity : Int) (operations : List (Operation α)) :
    ∃ record c, (perform operations).Returns (ofCapacity capacity) record c ∧
      record.map Entry.operation = operations ∧ c.capacity = capacity ∧ Accounts record c := by
  induction operations using List.reverseRecOn with
  | nil => exact ⟨[], _, rfl, rfl, rfl, accounts_nil capacity⟩
  | append_singleton operations operation ih =>
    obtain ⟨record, c, returned, operated, same, accounts⟩ := ih
    obtain ⟨answer, d, answered, does⟩ := does_act operation c
    refine ⟨record ++ [⟨operation, answer⟩], d, ?_, ?_, does.capacity.trans same,
      accounts.step does⟩
    · rw [perform_concat]
      simp only [Act.returns_bind, Act.returns_pure]
      exact ⟨record, c, returned, answer, d, answered, rfl, rfl⟩
    · rw [List.map_append, operated]
      rfl

end Channel

/-! Double precision -/

namespace Scalar

theorem zero_le_atLeast (x : Scalar) : 0 ≤ Number.atLeast 0 x := by
  rw [Number.atLeast]
  split
  · next above =>
    obtain ⟨a, b, first, second, below⟩ := (lt_iff_rank? 0 x).1 above
    exact (le_iff_rank? 0 x).2 ⟨a, b, first, second, le_of_lt below⟩
  · decide

theorem comparable_of_le {x y : Scalar} (below : x ≤ y) : Number.Comparable y := by
  obtain ⟨_, rank, _, found, _⟩ := (le_iff_rank? x y).1 below
  exact (le_iff_rank? y y).2 ⟨rank, rank, found, found, le_refl rank⟩

theorem isUndefined_atLeast {x : Scalar} (defined : Number.isUndefined x = false) :
    Number.isUndefined (Number.atLeast 0 x) = false := by
  rw [Number.atLeast]
  split
  · exact defined
  · rfl

end Scalar

open Channel in
/-- Whatever is done to a channel, the signals that it accepts are those that are taken out, in their
order, then those that a closing discards, and then those that still wait. No more wait than the
capacity lets, no signal passes once the channel has been closed, all progress is a number and not
below zero, and every signal turned away is counted. -/
theorem signals_pass_in_order (capacity : Int) (operations : List (Channel.Operation Scalar)) :
    ∃ record c, (perform operations).Returns (ofCapacity capacity) record c ∧
      record.map Entry.operation = operations ∧
      returned record <+: accepted record ∧
      (∃ lost, accepted record = returned record ++ lost ++ c.queue ∧
        lost.length = discarded record) ∧
      (0 < capacity → c.queue.length ≤ capacity) ∧
      (∀ before closing after, record = before ++ closing :: after → closing.operation = .close →
        accepted after = [] ∧ returned after = []) ∧
      (∀ source value, .progress source value ∈ accepted record →
        ∃ x, value = some x ∧ Number.isUndefined x = false ∧ Number.Comparable x ∧ 0 ≤ x) ∧
      c.dropped = turnedAway record := by
  obtain ⟨record, c, ran, operated, rfl, accounts⟩ := accounts_perform capacity operations
  have conserved : ∃ lost, accepted record = returned record ++ lost ++ c.queue ∧
      lost.length = discarded record := by
    cases closed : c.closed with
    | true =>
      obtain ⟨empty, lost, conserved, counts⟩ := accounts.shut closed
      exact ⟨lost, by rw [empty, List.append_nil, conserved], counts⟩
    | false =>
      obtain ⟨conserved, none⟩ := accounts.opened closed
      exact ⟨[], by rw [List.append_nil, conserved], none.symm⟩
  refine ⟨record, c, ran, operated, ?_, conserved, accounts.bounded, ?_, ?_, accounts.counted⟩
  · obtain ⟨lost, whole, -⟩ := conserved
    exact ⟨lost ++ c.queue, by rw [whole, List.append_assoc]⟩
  · intro before closing after split closes
    obtain ⟨-, silent⟩ := accounts.final before closing after split closes
    exact ⟨List.filterMap_eq_nil_iff.2 fun e member => (silent e member).1,
      List.filterMap_eq_nil_iff.2 fun e member => (silent e member).2⟩
  · intro source value member
    obtain ⟨x, defined, rfl⟩ := accounts.defined source value member
    have positive := Scalar.zero_le_atLeast x
    exact ⟨_, rfl, Scalar.isUndefined_atLeast defined, Scalar.comparable_of_le positive, positive⟩

end ShowControl
