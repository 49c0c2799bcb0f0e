/-! Finite maps that keep their keys in the order in which they were first entered. -/

set_option autoImplicit false
namespace ShowControl

section
variable {κ ν : Type} [DecidableEq κ]

def assign (k : κ) (v : ν) : List (κ × ν) → List (κ × ν)
  | [] => [(k, v)]
  | e :: rest => if e.1 = k then (k, v) :: rest else e :: assign k v rest

theorem keys_assign (k : κ) (v : ν) (l : List (κ × ν)) :
    (assign k v l).map Prod.fst =
      if k ∈ l.map Prod.fst then l.map Prod.fst else l.map Prod.fst ++ [k] := by
  induction l with
  | nil => simp [assign]
  | cons e rest ih =>
    by_cases h : e.1 = k
    · simp [assign, h]
    · have h' : ¬k = e.1 := fun same => h same.symm
      simp only [assign, h, if_false, List.map_cons, ih, List.mem_cons, h', false_or]
      split <;> simp

theorem lookup_cons_eq (k k' : κ) (v : ν) (l : List (κ × ν)) :
    List.lookup k' ((k, v) :: l) = if k' = k then some v else l.lookup k' := by
  by_cases h : k' = k
  · simp [h]
  · have : (k' == k) = false := beq_eq_false_iff_ne.2 h
    simp [List.lookup_cons, this, h]

theorem lookup_assign (k k' : κ) (v : ν) (l : List (κ × ν)) :
    (assign k v l).lookup k' = if k' = k then some v else l.lookup k' := by
  induction l with
  | nil => simp [assign, lookup_cons_eq]
  | cons e rest ih =>
    obtain ⟨key, value⟩ := e
    by_cases h : key = k
    · subst h
      simp only [assign, if_true, lookup_cons_eq]
      split <;> rfl
    · simp only [assign, h, if_false, lookup_cons_eq, ih]
      split
      · next same => subst same; simp [h]
      · rfl

end

/-- A map with its keys in the order of their first entry. -/
structure Table (κ ν : Type) where
  toList : List (κ × ν)
  distinct : (toList.map Prod.fst).Nodup

namespace Table

variable {κ ν μ : Type} [DecidableEq κ]

def empty : Table κ ν := ⟨[], by simp⟩

instance : Inhabited (Table κ ν) := ⟨empty⟩

def get? (t : Table κ ν) (k : κ) : Option ν := t.toList.lookup k

def contains (t : Table κ ν) (k : κ) : Bool := (t.get? k).isSome

omit [DecidableEq κ] in
@[ext] theorem ext {t u : Table κ ν} (h : t.toList = u.toList) : t = u := by
  cases t; cases u; cases h; rfl

def keys (t : Table κ ν) : List κ := t.toList.map Prod.fst

def values (t : Table κ ν) : List ν := t.toList.map Prod.snd

def size (t : Table κ ν) : Nat := t.toList.length

/-- Enters a value. A key that the table has keeps its place. -/
def insert (t : Table κ ν) (k : κ) (v : ν) : Table κ ν where
  toList := assign k v t.toList
  distinct := by
    rw [keys_assign]
    split
    · exact t.distinct
    · next h =>
      rw [List.nodup_append]
      exact ⟨t.distinct, by simp, fun a ha b hb same => h (by simp_all)⟩

def erase (t : Table κ ν) (k : κ) : Table κ ν where
  toList := t.toList.filter fun e => e.1 ≠ k
  distinct := (List.filter_sublist.map Prod.fst).nodup t.distinct

def modify (t : Table κ ν) (k : κ) (f : ν → ν) : Table κ ν :=
  match t.get? k with
  | none => t
  | some v => t.insert k (f v)

def ofList (entries : List (κ × ν)) : Table κ ν :=
  entries.foldl (fun t e => t.insert e.1 e.2) empty

@[simp] theorem get?_empty (k : κ) : (empty : Table κ ν).get? k = none := rfl

theorem get?_insert (t : Table κ ν) (k k' : κ) (v : ν) :
    (t.insert k v).get? k' = if k' = k then some v else t.get? k' :=
  lookup_assign k k' v t.toList

@[simp] theorem get?_insert_self (t : Table κ ν) (k : κ) (v : ν) :
    (t.insert k v).get? k = some v := by simp [get?_insert]

theorem keys_insert (t : Table κ ν) (k : κ) (v : ν) :
    (t.insert k v).keys = if k ∈ t.keys then t.keys else t.keys ++ [k] :=
  keys_assign k v t.toList

theorem get?_erase (t : Table κ ν) (k k' : κ) :
    (t.erase k).get? k' = if k' = k then none else t.get? k' := by
  simp only [get?, erase]
  induction t.toList with
  | nil => simp
  | cons e rest ih =>
    obtain ⟨key, value⟩ := e
    by_cases h : key = k
    · subst h
      simp only [List.filter_cons, ne_eq, not_true_eq_false, decide_false, Bool.false_eq_true,
        if_false, ih, lookup_cons_eq]
      split <;> rfl
    · simp only [List.filter_cons, h, ne_eq, not_false_eq_true, decide_true, if_true,
        lookup_cons_eq, ih]
      split
      · next same => subst same; simp [h]
      · rfl

end Table

end ShowControl
