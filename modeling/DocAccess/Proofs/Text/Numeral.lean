import DocAccess.Text.Blank
import DocAccess.Text.Numeral
import Mathlib.Algebra.GroupWithZero.Nat

/-!
# Numerals read back

However a number is written, its digits spell it: they are digits, at least one, and the number
is their value. Digits that spell a number are read back in front of a text that goes on with
something else, or where the limit is reached.
-/

set_option autoImplicit false

namespace DocAccess.Numeral

/-! ## Digits -/

theorem isDigit_digit {d : Nat} (small : d < 10) : isDigit (digit d) = true := by
  have all : ∀ d, d < 10 → isDigit (digit d) = true := by decide
  exact all d small

theorem digitValue_digit {d : Nat} (small : d < 10) : digitValue (digit d) = d := by
  have all : ∀ d, d < 10 → digitValue (digit d) = d := by decide
  exact all d small

theorem isDigit_iff {c : Char} : isDigit c = true ↔ 48 ≤ c.toNat ∧ c.toNat ≤ 57 := by
  simp only [isDigit, Bool.and_eq_true, decide_eq_true_eq]
  exact Iff.rfl

private theorem isBlank_of_isDigit {c : Char} (digit : isDigit c = true) : isBlank c = false := by
  obtain ⟨lower, upper⟩ := isDigit_iff.mp digit
  simp only [isBlank, Bool.or_eq_false_iff, Bool.and_eq_false_iff, decide_eq_false_iff_not,
    beq_eq_false_iff_ne]
  omega

/-! ## Values -/

theorem value_concat (digits : List Char) (c : Char) :
    value (digits ++ [c]) = 10 * value digits + digitValue c := by
  simp [value]

/-- Zeros on the right multiply by powers of ten. -/
theorem value_append_zeros (digits : List Char) (count : Nat) :
    value (digits ++ List.replicate count '0') = value digits * 10 ^ count := by
  induction count with
  | zero => simp
  | succ count ih =>
      rw [List.replicate_succ', ← List.append_assoc, value_concat, ih, Nat.pow_succ]
      have zero : digitValue '0' = 0 := by decide
      rw [zero, Nat.add_zero, Nat.mul_comm, Nat.mul_assoc]

/-! ## Spellings -/

/-- A run of digits, at least one, with the number as its value. -/
structure Spells (n : Nat) (digits : List Char) : Prop where
  allDigits : ∀ c ∈ digits, isDigit c = true
  value_eq : value digits = n
  nonempty : digits ≠ []

theorem Spells.concat {n d : Nat} {digits : List Char} (spelled : Spells n digits)
    (small : d < 10) : Spells (10 * n + d) (digits ++ [digit d]) where
  allDigits c mem := by
    rcases List.mem_append.mp mem with early | last
    · exact spelled.allDigits c early
    · rw [List.mem_singleton.mp last]
      exact isDigit_digit small
  value_eq := by rw [value_concat, spelled.value_eq, digitValue_digit small]
  nonempty := by simp

theorem spells_digit {d : Nat} (small : d < 10) : Spells d [digit d] where
  allDigits c mem := by
    rw [List.mem_singleton.mp mem]
    exact isDigit_digit small
  value_eq := by simp [value, digitValue_digit small]
  nonempty := by simp

private theorem spells_ofNat (n : Nat) : Spells n (ofNat n) := by
  induction n using ofNat.induct with
  | case1 n small =>
      rw [ofNat, if_pos small]
      exact spells_digit small
  | case2 n large ih =>
      have whole : 10 * (n / 10) + n % 10 = n := Nat.div_add_mod n 10
      rw [ofNat, if_neg large]
      have spelled := ih.concat (Nat.mod_lt n (by decide))
      rwa [whole] at spelled

@[simp]
theorem length_fixed (width n : Nat) : (fixed width n).length = width := by
  induction width generalizing n with
  | zero => rfl
  | succ width ih => simp [fixed, ih]

theorem spells_fixed {width n : Nat} (small : n < 10 ^ (width + 1)) :
    Spells n (fixed (width + 1) n) := by
  induction width generalizing n with
  | zero =>
      have digit : n < 10 := by simpa using small
      have last : n % 10 = n := Nat.mod_eq_of_lt digit
      rw [fixed, last]
      exact spells_digit digit
  | succ width ih =>
      have front : n / 10 < 10 ^ (width + 1) := by
        rw [Nat.pow_succ] at small
        omega
      have whole : 10 * (n / 10) + n % 10 = n := Nat.div_add_mod n 10
      have spelled := (ih front).concat (Nat.mod_lt n (by decide))
      rwa [whole] at spelled

private theorem lt_pow_length_ofNat (n : Nat) : n < 10 ^ (ofNat n).length := by
  induction n using ofNat.induct with
  | case1 n small => simp [ofNat, small]
  | case2 n large ih =>
      rw [ofNat, if_neg large, List.length_append, List.length_singleton, Nat.pow_succ]
      omega

theorem spells_padded (width n : Nat) : Spells n (padded (width + 1) n) := by
  unfold padded
  split
  · rename_i fits
    have small : n < 10 ^ (width + 1) :=
      Nat.lt_of_lt_of_le (lt_pow_length_ofNat n) (Nat.pow_le_pow_right (by decide) fits)
    exact spells_fixed small
  · exact spells_ofNat n

/-! ## Reading -/

/-- A text that does not go on with a digit. -/
def NoDigit (rest : List Char) : Prop :=
  ∀ c ∈ rest.head?, isDigit c = false

theorem noDigit_cons {c : Char} {rest : List Char} (other : isDigit c = false) :
    NoDigit (c :: rest) := by
  intro head mem
  cases mem
  exact other

theorem takeDigits_append {digits rest : List Char} {limit : Nat}
    (all : ∀ c ∈ digits, isDigit c = true) (within : digits.length ≤ limit)
    (ends : digits.length = limit ∨ NoDigit rest) :
    takeDigits limit (digits ++ rest) = (digits, rest) := by
  induction digits generalizing limit with
  | nil =>
      cases limit with
      | zero => rfl
      | succ limit =>
          cases rest with
          | nil => rfl
          | cons c rest =>
              have other : isDigit c = false := by
                rcases ends with full | other
                · cases full
                · exact other c rfl
              simp [takeDigits, other]
  | cons c digits ih =>
      cases limit with
      | zero => cases within
      | succ limit =>
          have tail := ih (fun c mem => all c (List.mem_cons_of_mem _ mem))
            (Nat.le_of_succ_le_succ within) (ends.imp_left Nat.succ.inj)
          simp [takeDigits, all c List.mem_cons_self, tail]

theorem Spells.read? {n limit : Nat} {digits rest : List Char} (spelled : Spells n digits)
    (within : digits.length ≤ limit) (ends : digits.length = limit ∨ NoDigit rest) :
    read? limit (digits ++ rest) = some (n, rest) := by
  rw [Numeral.read?, takeDigits_append spelled.allDigits within ends]
  cases digits with
  | nil => exact absurd rfl spelled.nonempty
  | cons c digits => simp only [spelled.value_eq]

/-- A text that starts with a spelled number does not start with anything but a digit. -/
theorem Spells.ne_cons {n : Nat} {digits rest tail : List Char} {c : Char}
    (spelled : Spells n digits) (other : isDigit c = false) : digits ++ rest ≠ c :: tail := by
  cases digits with
  | nil => exact absurd rfl spelled.nonempty
  | cons first digits =>
      intro same
      have digit := spelled.allDigits first List.mem_cons_self
      rw [List.cons_append, List.cons.injEq] at same
      rw [same.1, other] at digit
      cases digit

/-- A text that starts with a spelled number has no blanks to skip. -/
theorem Spells.trimStart {n : Nat} {digits rest : List Char} (spelled : Spells n digits) :
    trimStart (digits ++ rest) = digits ++ rest := by
  cases digits with
  | nil => exact absurd rfl spelled.nonempty
  | cons c digits =>
      have visible : isBlank c = false :=
        isBlank_of_isDigit (spelled.allDigits c List.mem_cons_self)
      simp [DocAccess.trimStart, visible]

end DocAccess.Numeral
