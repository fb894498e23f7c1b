import DocAccess.ValueError

/-!
# Permission levels

What a holder of a permission may do, from least to most, and the sets of
levels that filter listings. Such a set is never empty.
-/

set_option autoImplicit false

namespace DocAccess

/-- The access that a permission gives. -/
inductive PermissionLevel where
  | viewer
  | editor
  | owner
  deriving DecidableEq, Repr, Inhabited

namespace PermissionLevel

/-- Every level, least privileged first. -/
def all : List PermissionLevel := [.viewer, .editor, .owner]

/-- The position in the order from least to most privileged. -/
def rank : PermissionLevel → Nat
  | .viewer => 0
  | .editor => 1
  | .owner => 2

instance : Ord PermissionLevel := ⟨fun a b => compare a.rank b.rank⟩

def max (a b : PermissionLevel) : PermissionLevel :=
  if b.rank < a.rank then a else b

def text : PermissionLevel → String
  | .viewer => "viewer"
  | .editor => "editor"
  | .owner => "owner"

/-- The name of the case, which records and diagnostics use. -/
def name : PermissionLevel → String
  | .viewer => "Viewer"
  | .editor => "Editor"
  | .owner => "Owner"

/-- The level that a stored text names, case included. -/
def ofText (given : String) : Except ValueError PermissionLevel :=
  match all.find? (·.text = given) with
  | some level => .ok level
  | none => .error (.unknownPermissionLevel given)

/-- The level that a number stands for. -/
def ofInt (given : Int) : Except ValueError PermissionLevel :=
  match all.find? (fun level => (level.rank : Int) = given) with
  | some level => .ok level
  | none => .error (.unknownPermissionLevel (Numeral.intText given))

theorem ofText_text (level : PermissionLevel) : ofText level.text = .ok level := by
  cases level <;> rfl

theorem text_of_ofText {given : String} {level : PermissionLevel}
    (read : ofText given = .ok level) : level.text = given := by
  unfold ofText at read
  split at read
  · rename_i found
    have agrees := List.find?_some found
    cases read
    simpa using agrees
  · cases read

end PermissionLevel

/-- A set of levels with at least one member. -/
structure LevelFilter where
  admitsViewer : Bool
  admitsEditor : Bool
  admitsOwner : Bool
  nonempty : (admitsViewer || admitsEditor || admitsOwner) = true
  deriving DecidableEq

namespace LevelFilter

def contains (filter : LevelFilter) : PermissionLevel → Bool
  | .viewer => filter.admitsViewer
  | .editor => filter.admitsEditor
  | .owner => filter.admitsOwner

def all : LevelFilter := ⟨true, true, true, rfl⟩

/-- The set of the levels in a list, in which order and repeats do not
matter. -/
def ofList (levels : List PermissionLevel) : Except ValueError LevelFilter :=
  if nonempty : (levels.contains .viewer || levels.contains .editor ||
      levels.contains .owner) = true then
    .ok ⟨levels.contains .viewer, levels.contains .editor, levels.contains .owner, nonempty⟩
  else .error .emptyLevelFilter

def levels (filter : LevelFilter) : List PermissionLevel :=
  PermissionLevel.all.filter filter.contains

/-- The diagnostic form, which names the members in order. -/
def debugText (filter : LevelFilter) : String :=
  "\x7b" ++ String.intercalate ", " (filter.levels.map PermissionLevel.name) ++ "\x7d"

theorem ofList_eq_error_iff {levels : List PermissionLevel} {error : ValueError} :
    ofList levels = .error error ↔ levels = [] ∧ error = .emptyLevelFilter := by
  unfold ofList
  split
  · rename_i nonempty
    constructor
    · intro read; cases read
    · rintro ⟨rfl, -⟩; simp at nonempty
  · rename_i empty
    constructor
    · intro read
      refine ⟨?_, by cases read; rfl⟩
      cases levels with
      | nil => rfl
      | cons level rest => cases level <;> simp at empty
    · rintro ⟨rfl, rfl⟩; rfl

theorem contains_of_ofList {levels : List PermissionLevel} {filter : LevelFilter}
    (read : ofList levels = .ok filter) (level : PermissionLevel) :
    filter.contains level = levels.contains level := by
  unfold ofList at read
  split at read
  · cases read; cases level <;> rfl
  · cases read

end LevelFilter
end DocAccess
