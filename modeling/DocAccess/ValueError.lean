import DocAccess.Text.Numeral

/-!
# Errors of plain values

What can be wrong with a value that a caller hands in. None of these depends
on what is stored.
-/

set_option autoImplicit false

namespace DocAccess

/-- A fault in a value given by a caller. -/
inductive ValueError where
  | emptyLevelFilter
  | unknownPermissionLevel (given : String)
  | unknownRecipientType (given : String)
  | unknownSortField (given : Nat)
  | zeroPageSize
  /-- A token or byte string that is no cursor, with the reason. -/
  | malformedCursor (reason : String)
  | timestampOutOfRange (micros : Int)
  deriving DecidableEq, Repr

def ValueError.name : ValueError → String
  | .emptyLevelFilter => "EmptyLevelFilter"
  | .unknownPermissionLevel _ => "UnknownPermissionLevel"
  | .unknownRecipientType _ => "UnknownRecipientType"
  | .unknownSortField _ => "UnknownSortField"
  | .zeroPageSize => "ZeroPageSize"
  | .malformedCursor _ => "MalformedCursor"
  | .timestampOutOfRange _ => "TimestampOutOfRange"

def ValueError.message : ValueError → String
  | .emptyLevelFilter => "permission level filter must contain at least one level"
  | .unknownPermissionLevel given => "unknown permission level: " ++ given
  | .unknownRecipientType given => "unknown recipient type: " ++ given
  | .unknownSortField given => "unknown sort field: " ++ Numeral.text given
  | .zeroPageSize => "page size must be at least 1"
  | .malformedCursor reason => "malformed cursor: " ++ reason
  | .timestampOutOfRange micros => "timestamp out of range: " ++ Numeral.intText micros

end DocAccess
