import DocAccess.Order
import DocAccess.Relational.Decimal

/-!
# Cells

The values a table holds. Cells are ordered by what they are: null, then numbers,
then texts, then byte strings. Numbers are compared by value, texts by code point
and byte strings bytewise, a proper beginning first.

A column may prefer a class; a cell put into it is converted if nothing is lost
by that, and kept as it is otherwise.
-/

set_option autoImplicit false

namespace DocAccess.Relational

inductive CellClass where
  | null
  | integer
  | real
  | text
  | blob
  deriving DecidableEq, Repr

namespace CellClass

/-- The position in the order of classes; the two classes of numbers share one. -/
def rank : CellClass → Nat
  | .null => 0
  | .integer => 1
  | .real => 1
  | .text => 2
  | .blob => 3

/-- The name that errors use. -/
def name : CellClass → String
  | .null => "Null"
  | .integer => "Integer"
  | .real => "Real"
  | .text => "Text"
  | .blob => "Blob"

end CellClass

/-- The value in one column of a row. -/
inductive Cell where
  | null
  | integer (value : Int)
  /-- A real number that is no integer of a cell, by its units. -/
  | real (units : Int)
  | text (content : String)
  | blob (bytes : List UInt8)
  deriving DecidableEq, Repr, Inhabited

namespace Cell

def cellClass : Cell → CellClass
  | .null => .null
  | .integer _ => .integer
  | .real _ => .real
  | .text _ => .text
  | .blob _ => .blob

def isNull (cell : Cell) : Bool :=
  cell.cellClass = .null

/-- The integer of a cell, or the greatest one below its real number; zero for other
classes. -/
def integerPart : Cell → Int
  | .integer value => value
  | .real units => units / Number.unitsPerOne
  | _ => 0

/-- By how many units a real number exceeds the integer below it, zero for other
classes. -/
def fractionPart : Cell → Int
  | .real units => units % Number.unitsPerOne
  | _ => 0

def textPart : Cell → String
  | .text content => content
  | _ => ""

def blobPart : Cell → List UInt8
  | .blob bytes => bytes
  | _ => []

/-- The order of cells by value, in which an integer and a real number may be even. -/
def order : Cell → Cell → Ordering :=
  compareLex (compareOn fun cell : Cell => cell.cellClass.rank)
    (compareLex (compareOn integerPart)
      (compareLex (compareOn fractionPart)
        (compareLex (compareOn textPart) (compareOn blobPart))))

def isReal (cell : Cell) : Bool :=
  cell.cellClass = .real

/-- The order of keys: by value, an integer before a real number that is even with it. -/
instance : Ord Cell := ⟨compareLex order (compareOn isReal)⟩

instance : Std.TransOrd Cell :=
  inferInstanceAs (Std.TransCmp
    (compareLex
      (compareLex (compareOn fun cell : Cell => cell.cellClass.rank)
        (compareLex (compareOn integerPart)
          (compareLex (compareOn fractionPart)
            (compareLex (compareOn textPart) (compareOn blobPart)))))
      (compareOn isReal)))

/-- Two counts of units with the same whole part and the same rest are equal. -/
private theorem eq_of_div_of_mod {a b : Int}
    (wholes : a / Number.unitsPerOne = b / Number.unitsPerOne)
    (rests : a % Number.unitsPerOne = b % Number.unitsPerOne) : a = b := by
  rw [← Int.mul_ediv_add_emod a Number.unitsPerOne, wholes, rests, Int.mul_ediv_add_emod]

/-- The rank of a cell and whether it is real determine its class. -/
private theorem cellClass_eq {a b : Cell} (ranks : a.cellClass.rank = b.cellClass.rank)
    (classes : a.isReal = b.isReal) : a.cellClass = b.cellClass := by
  cases a <;> cases b <;> simp_all [cellClass, CellClass.rank, isReal]

/-- The parts of a cell and whether it is real determine it. -/
private theorem eq_of_parts {a b : Cell} (ranks : a.cellClass.rank = b.cellClass.rank)
    (integers : a.integerPart = b.integerPart) (fractions : a.fractionPart = b.fractionPart)
    (texts : a.textPart = b.textPart) (blobs : a.blobPart = b.blobPart)
    (classes : a.isReal = b.isReal) : a = b :=
  match a, b, cellClass_eq ranks classes with
  | .null, .null, _ => rfl
  | .integer _, .integer _, _ => congrArg integer integers
  | .real _, .real _, _ => congrArg real (eq_of_div_of_mod integers fractions)
  | .text _, .text _, _ => congrArg text texts
  | .blob _, .blob _, _ => congrArg blob blobs

/-- Cells that are even by value and both real or both not are equal. -/
private theorem eq_of_order_eq {a b : Cell} (even : order a b = .eq)
    (classes : a.isReal = b.isReal) : a = b := by
  obtain ⟨ranks, rest⟩ := Ordering.then_eq_eq.1 even
  obtain ⟨integers, rest⟩ := Ordering.then_eq_eq.1 rest
  obtain ⟨fractions, rest⟩ := Ordering.then_eq_eq.1 rest
  obtain ⟨texts, blobs⟩ := Ordering.then_eq_eq.1 rest
  exact eq_of_parts (Std.LawfulEqCmp.eq_of_compare ranks)
    (Std.LawfulEqCmp.eq_of_compare integers) (Std.LawfulEqCmp.eq_of_compare fractions)
    (Std.LawfulEqCmp.eq_of_compare texts) (Std.LawfulEqCmp.eq_of_compare blobs) classes

instance : Std.LawfulEqOrd Cell where
  compare_self {a} := by
    refine Ordering.then_eq_eq.2 ⟨Ordering.then_eq_eq.2 ⟨?_, Ordering.then_eq_eq.2 ⟨?_,
      Ordering.then_eq_eq.2 ⟨?_, Ordering.then_eq_eq.2 ⟨?_, ?_⟩⟩⟩⟩, ?_⟩ <;>
      exact Std.ReflCmp.compare_self
  eq_of_compare {a b} equal := by
    obtain ⟨even, classes⟩ := Ordering.then_eq_eq.1 equal
    exact eq_of_order_eq even (Std.LawfulEqCmp.eq_of_compare classes)

def before (a b : Cell) : Bool :=
  order a b == .lt

/-- The greatest of some cells, the first of those that are even. -/
def greatest? : List Cell → Option Cell
  | [] => none
  | cell :: later =>
      match greatest? later with
      | some found => some (if cell.before found then found else cell)
      | none => some cell

def ofNumber : Number → Cell
  | .integer value => .integer value
  | .real units => .real units

def ofText? : Option String → Cell
  | some content => .text content
  | none => .null

end Cell

/-- The class of cells that a column prefers; a column may take cells as they are
given. -/
inductive Affinity where
  | integer
  | text
  | asGiven
  deriving DecidableEq, Repr

/-- The cell that a column keeps of a given cell. -/
def Affinity.apply : Affinity → Cell → Cell
  | .integer, .text content =>
      match Number.ofText? content with
      | some number => .ofNumber number
      | none => .text content
  | .text, .integer value => .text (Numeral.intText value)
  | _, cell => cell

end DocAccess.Relational
