import DocAccess.Cursor
import Mathlib.Algebra.Order.Floor.Div

/-!
# Rows on pages

Rows that are cut into pages from the front fill as few pages as can be, and only the last
of them may have room left.
-/

set_option autoImplicit false

namespace DocAccess

variable {α : Type} {size : Nat} {rows : List α} {pages : List (List α)}

/-- Rows cut into pages from the front, until none is left. -/
inductive Paged (size : Nat) : List α → List (List α) → Prop where
  | nil : Paged size [] []
  | cons {rows : List α} {pages : List (List α)} (nonempty : rows ≠ [])
      (rest : Paged size (rows.drop size) pages) : Paged size rows (rows.take size :: pages)

/-- How rows stand on pages. -/
structure OnPages (size : Nat) (rows : List α) (pages : List (List α)) : Prop where
  flatten_eq : pages.flatten = rows
  count_eq : pages.length = rows.length ⌈/⌉ size
  nonempty : ∀ page ∈ pages, page ≠ []
  fits : ∀ page ∈ pages, page.length ≤ size
  full : ∀ page ∈ pages.dropLast, page.length = size

namespace Paged

theorem exists_pages (positive : 0 < size) (rows : List α) : ∃ pages, Paged size rows pages := by
  induction bound : rows.length using Nat.strong_induction_on generalizing rows with
  | h count ih =>
      cases rows with
      | nil => exact ⟨[], .nil⟩
      | cons row rows =>
          have less : ((row :: rows).drop size).length < count := by
            rw [← bound, List.length_drop, List.length_cons]
            omega
          obtain ⟨pages, paged⟩ := ih _ less _ rfl
          exact ⟨_, .cons (List.cons_ne_nil row rows) paged⟩

private theorem rows_ne_nil {page : List α} (paged : Paged size rows (page :: pages)) :
    rows ≠ [] := by
  cases paged with
  | cons nonempty rest => exact nonempty

private theorem flatten_eq (paged : Paged size rows pages) : pages.flatten = rows := by
  induction paged with
  | nil => rfl
  | cons nonempty rest ih => rw [List.flatten_cons, ih, List.take_append_drop]

theorem count_eq (paged : Paged size rows pages) (positive : 0 < size) :
    pages.length = rows.length ⌈/⌉ size := by
  induction paged with
  | nil => exact (zero_ceilDiv size).symm
  | @cons rows pages nonempty rest ih =>
      have some : 0 < rows.length := List.length_pos_iff.2 nonempty
      have before : (rows.length - size + size - 1) / size = (rows.length - 1) / size := by
        by_cases fits : rows.length ≤ size
        · rw [Nat.div_eq_of_lt (by omega), Nat.div_eq_of_lt (by omega)]
        · rw [Nat.sub_add_cancel (by omega)]
      have split : rows.length + size - 1 = rows.length - 1 + size := by omega
      rw [List.length_cons, ih, List.length_drop, Nat.ceilDiv_eq_add_pred_div, before,
        Nat.ceilDiv_eq_add_pred_div, split, Nat.add_div_right _ positive]

theorem page_ne_nil (paged : Paged size rows pages) (positive : 0 < size) :
    ∀ page ∈ pages, page ≠ [] := by
  induction paged with
  | nil => exact fun page member => absurd member List.not_mem_nil
  | cons nonempty rest ih =>
      intro page member
      rcases List.mem_cons.1 member with rfl | later
      · intro empty
        rcases List.take_eq_nil_iff.1 empty with zero | none
        · omega
        · exact nonempty none
      · exact ih page later

private theorem length_le (paged : Paged size rows pages) : ∀ page ∈ pages, page.length ≤ size := by
  induction paged with
  | nil => exact fun page member => absurd member List.not_mem_nil
  | cons nonempty rest ih =>
      intro page member
      rcases List.mem_cons.1 member with rfl | later
      · exact List.length_take_le size _
      · exact ih page later

private theorem length_eq (paged : Paged size rows pages) :
    ∀ page ∈ pages.dropLast, page.length = size := by
  induction paged with
  | nil => exact fun page member => absurd member List.not_mem_nil
  | @cons rows pages nonempty rest ih =>
      intro page member
      cases pages with
      | nil => exact absurd member List.not_mem_nil
      | cons next pages =>
          have beyond : 0 < (rows.drop size).length := List.length_pos_iff.2 rest.rows_ne_nil
          rw [List.length_drop] at beyond
          rw [List.dropLast_cons_cons] at member
          rcases List.mem_cons.1 member with rfl | later
          · exact List.length_take_of_le (by omega)
          · exact ih page later

theorem onPages (paged : Paged size rows pages) (positive : 0 < size) :
    OnPages size rows pages :=
  ⟨paged.flatten_eq, paged.count_eq positive, paged.page_ne_nil positive, paged.length_le,
    paged.length_eq⟩

end Paged
end DocAccess
