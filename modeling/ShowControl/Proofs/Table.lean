import Mathlib.Data.List.Nodup
import ShowControl.Table

/-! Finite maps: entries and lookups say the same. -/

set_option autoImplicit false
namespace ShowControl.Table

variable {κ ν : Type} [DecidableEq κ]

theorem lookup_eq_some_iff {l : List (κ × ν)} (distinct : (l.map Prod.fst).Nodup) {k : κ} {v : ν} :
    l.lookup k = some v ↔ (k, v) ∈ l := by
  induction l with
  | nil => simp
  | cons e rest ih =>
    obtain ⟨key, value⟩ := e
    obtain ⟨fresh, distinct⟩ := List.nodup_cons.1 distinct
    rw [lookup_cons_eq, List.mem_cons, Prod.mk.injEq]
    by_cases same : k = key
    · subst same
      have absent : (k, v) ∉ rest := fun member => fresh (List.mem_map.2 ⟨(k, v), member, rfl⟩)
      simp [absent, eq_comm]
    · simp [same, ih distinct]

theorem mem_toList_iff {t : Table κ ν} {k : κ} {v : ν} : (k, v) ∈ t.toList ↔ t.get? k = some v :=
  (lookup_eq_some_iff t.distinct).symm

theorem mem_keys_iff {t : Table κ ν} {k : κ} : k ∈ t.keys ↔ ∃ v, t.get? k = some v := by
  simp only [keys, List.mem_map, Prod.exists, exists_and_right, exists_eq_right, mem_toList_iff]

theorem contains_iff {t : Table κ ν} {k : κ} : t.contains k = true ↔ k ∈ t.keys := by
  rw [contains, Option.isSome_iff_exists, mem_keys_iff]

theorem mem_values_iff {t : Table κ ν} {v : ν} : v ∈ t.values ↔ ∃ k, t.get? k = some v := by
  simp only [values, List.mem_map, Prod.exists, exists_eq_right, mem_toList_iff]

@[simp] theorem get?_modify (t : Table κ ν) (k k' : κ) (f : ν → ν) :
    (t.modify k f).get? k' = if k' = k then (t.get? k').map f else t.get? k' := by
  simp only [modify]
  split
  · next absent =>
    split
    · next same => simp [same, absent]
    · rfl
  · next v present =>
    rw [get?_insert]
    split
    · next same => simp [same, present]
    · rfl

@[simp] theorem keys_modify (t : Table κ ν) (k : κ) (f : ν → ν) : (t.modify k f).keys = t.keys := by
  simp only [modify]
  split
  · rfl
  · next v present => rw [keys_insert, if_pos (mem_keys_iff.2 ⟨v, present⟩)]

theorem assign_of_free {l : List (κ × ν)} {k : κ} (free : k ∉ l.map Prod.fst) (v : ν) :
    assign k v l = l ++ [(k, v)] := by
  induction l with
  | nil => rfl
  | cons e rest ih =>
    rw [List.map_cons, List.mem_cons, not_or] at free
    rw [assign, if_neg fun same => free.1 same.symm, ih free.2]
    rfl

theorem toList_insert_of_free {t : Table κ ν} {k : κ} (free : t.get? k = none) (v : ν) :
    (t.insert k v).toList = t.toList ++ [(k, v)] := by
  refine assign_of_free (fun member => ?_) v
  obtain ⟨v, present⟩ := mem_keys_iff.1 member
  rw [free] at present
  cases present

theorem get?_of_size {t : Table κ ν} (bare : t.size = 0) (k : κ) : t.get? k = none := by
  have empty : t.toList = [] := List.eq_nil_of_length_eq_zero bare
  rw [get?, empty]
  rfl

/-- Tables with the same lookups have the same entries, if not in the same order. -/
theorem toList_perm {t u : Table κ ν} (same : ∀ k, t.get? k = u.get? k) :
    t.toList.Perm u.toList := by
  have entries : t.toList.Nodup := List.Nodup.of_map _ t.distinct
  have entries' : u.toList.Nodup := List.Nodup.of_map _ u.distinct
  refine (List.perm_ext_iff_of_nodup entries entries').2 fun ⟨k, v⟩ => ?_
  rw [mem_toList_iff, mem_toList_iff, same]

end ShowControl.Table
