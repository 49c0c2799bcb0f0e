import Mathlib.Data.List.Basic
import Mathlib.Data.List.Forall2
import Mathlib.Data.List.Induction

/-! Places in a list, given by what stands before and behind them. -/

set_option autoImplicit false
namespace ShowControl

variable {β : Type}

/-- A place in a list that has been made longer is its end, or one that the list had before. -/
theorem place_concat {front before after : List β} {last b : β}
    (split : front ++ [last] = before ++ b :: after) :
    (before = front ∧ b = last ∧ after = []) ∨
      ∃ between, front = before ++ b :: between ∧ after = between ++ [last] := by
  obtain rfl | ⟨between, other, rfl⟩ := List.eq_nil_or_concat' after
  · obtain ⟨rfl, same⟩ := List.append_inj' split rfl
    exact .inl ⟨rfl, (List.singleton_inj.1 same).symm, rfl⟩
  · rw [← List.cons_append, ← List.append_assoc] at split
    obtain ⟨whole, same⟩ := List.append_inj' split rfl
    exact .inr ⟨between, whole, by rw [same]⟩

theorem exists_place_of_lt_count [DecidableEq β] {b : β} {l : List β} {n : Nat}
    (fewer : n < l.count b) : ∃ before after, l = before ++ b :: after ∧ before.count b = n := by
  induction l using List.reverseRecOn with
  | nil => simp at fewer
  | append_singleton front last ih =>
    by_cases there : n < front.count b
    · obtain ⟨before, after, rfl, count⟩ := ih there
      exact ⟨before, after ++ [last], by simp, count⟩
    · rw [List.count_append, List.count_singleton] at fewer
      split at fewer
      · next same =>
        exact ⟨front, [], by rw [beq_iff_eq.1 same], by omega⟩
      · omega

theorem exists_getElem?_of_forall₂ {γ : Type} {R : β → γ → Prop} {l : List β} {l' : List γ}
    (each : List.Forall₂ R l l') {n : Nat} {c : γ} (found : l'[n]? = some c) :
    ∃ b, l[n]? = some b ∧ R b c := by
  induction each generalizing n with
  | nil => simp at found
  | @cons b c' _ _ first _ ih =>
    cases n with
    | zero =>
      cases found
      exact ⟨b, rfl, first⟩
    | succ n => exact ih found

/-- There is a place in the list with `P`, and behind it nothing with `Q`. -/
def Since (P : List β → β → Prop) (Q : β → Bool) (l : List β) : Prop :=
  ∃ before b after, l = before ++ b :: after ∧ P before b ∧ ∀ c ∈ after, Q c = false

section Since

variable {P : List β → β → Prop} {Q : β → Bool}

@[simp] theorem not_since_nil : ¬Since P Q [] := by
  simp [Since]

@[simp] theorem since_concat {front : List β} {last : β} :
    Since P Q (front ++ [last]) ↔ P front last ∨ Q last = false ∧ Since P Q front := by
  constructor
  · rintro ⟨before, b, after, split, holds, none⟩
    obtain ⟨rfl, rfl, rfl⟩ | ⟨between, rfl, rfl⟩ := place_concat split
    · exact .inl holds
    · rw [List.forall_mem_append, List.forall_mem_singleton] at none
      exact .inr ⟨none.2, before, b, between, rfl, holds, none.1⟩
  · rintro (holds | ⟨no, before, b, after, rfl, holds, none⟩)
    · exact ⟨front, last, [], rfl, holds, List.forall_mem_nil _⟩
    · refine ⟨before, b, after ++ [last], by simp, holds, ?_⟩
      exact List.forall_mem_append.2 ⟨none, List.forall_mem_singleton.2 no⟩

end Since

end ShowControl
