import ShowControl.Proofs.Act
import ShowControl.Property

/-! Values that are read have the type and the range that they are read for. -/

set_option autoImplicit false
namespace ShowControl

theorem Scalar.isFinite_of_ofNumeral? {n : Decimal.Numeral} {x : Scalar}
    (read : Number.ofNumeral? n = some x) : x.isFinite = true := by
  change (if (ofNumeral n).isFinite then some (ofNumeral n) else none) = some x at read
  split at read
  · next finite =>
    cases read
    exact finite
  · cases read

theorem PropertyType.ofName?_name (type : PropertyType) : ofName? type.name = some type := by
  cases type <;> rfl

theorem PropertyType.name_injective : Function.Injective name := by
  intro a b same
  have found := ofName?_name a
  rw [same, ofName?_name b] at found
  exact (Option.some.inj found).symm

theorem PropertyType.name_of_ofName? {word : String} {type : PropertyType}
    (found : ofName? word = some type) : type.name = word := by
  rw [ofName?] at found
  simpa using List.find?_some found

/-- The value is in the range of its type. -/
def PropertyValue.Valid : PropertyValue → Prop
  | int n => -2147483648 ≤ n ∧ n ≤ 2147483647
  | float x => x.isFinite = true
  | string _ => True
  | orientation _ => True

theorem PropertyType.valid_of_read {type : PropertyType} {raw : String} {v : PropertyValue}
    (read : type.read raw = .ok v) : v.type = type ∧ v.Valid := by
  cases type with
  | string =>
    cases read
    exact ⟨rfl, trivial⟩
  | int =>
    rw [PropertyType.read] at read
    split at read
    · cases read
    · split at read
      · next within =>
        cases read
        rw [PropertyValue.inRange, Bool.and_eq_true, decide_eq_true_eq, decide_eq_true_eq] at within
        exact ⟨rfl, within⟩
      · cases read
  | float =>
    rw [PropertyType.read] at read
    split at read
    · cases read
    · split at read
      · cases read
      · next finite =>
        cases read
        exact ⟨rfl, Scalar.isFinite_of_ofNumeral? finite⟩
  | orientation =>
    rw [PropertyType.read] at read
    cases found : Orientation.read raw with
    | error fault =>
      rw [found] at read
      cases read
    | ok o =>
      rw [found] at read
      cases read
      exact ⟨rfl, trivial⟩

end ShowControl
