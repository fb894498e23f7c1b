/-!
# Orders read off a key

A type is ordered by comparing the keys of its values, or by two keys of which
the second decides ties of the first. If the keys determine the value, values
that compare as equal are equal.
-/

set_option autoImplicit false

namespace DocAccess

variable {α β γ : Type}

/-- Values whose keys compare as equal are equal, if the key is injective. -/
theorem lawfulEqCmp_compareOn [Ord β] [Std.LawfulEqOrd β] (key : α → β)
    (injective : ∀ a b, key a = key b → a = b) : Std.LawfulEqCmp (compareOn key) where
  compare_self {a} := by
    show compare (key a) (key a) = .eq
    exact Std.ReflCmp.compare_self
  eq_of_compare {a b} equal := injective a b (Std.LawfulEqCmp.eq_of_compare equal)

/-- The same for two keys that are injective together. -/
theorem lawfulEqCmp_compareLex [Ord β] [Std.LawfulEqOrd β] [Ord γ] [Std.LawfulEqOrd γ]
    (first : α → β) (second : α → γ)
    (injective : ∀ a b, first a = first b → second a = second b → a = b) :
    Std.LawfulEqCmp (compareLex (compareOn first) (compareOn second)) where
  compare_self {a} := by
    have parts : compare (first a) (first a) = .eq ∧ compare (second a) (second a) = .eq :=
      ⟨Std.ReflCmp.compare_self, Std.ReflCmp.compare_self⟩
    exact Ordering.then_eq_eq.2 parts
  eq_of_compare {a b} equal := by
    have parts : compare (first a) (first b) = .eq ∧ compare (second a) (second b) = .eq :=
      Ordering.then_eq_eq.1 equal
    exact injective a b (Std.LawfulEqCmp.eq_of_compare parts.1)
      (Std.LawfulEqCmp.eq_of_compare parts.2)

end DocAccess
