import DocAccess.Text.Blank
import DocAccess.Text.Numeral

/-!
# Configuration of a store

Where a store keeps its data and how long it waits. A configuration may be read
from the environment; a variable that is unset or cannot be read leaves the
default.
-/

set_option autoImplicit false

namespace DocAccess

/-- Where the tables of a store are. -/
inductive DatabasePlace where
  /-- In memory, lost with the store. -/
  | memory
  /-- In a file, which is made if there is none. -/
  | file (path : String)
  deriving DecidableEq, Repr

structure StoreConfig where
  place : DatabasePlace := .memory
  /-- The most connections at a time, of which a store in memory has only one. -/
  maxConnections : Nat := 8
  /-- How long a statement waits for a lock, in milliseconds. -/
  busyTimeout : Nat := 5000
  /-- How long an operation may take, in milliseconds. -/
  operationTimeout : Nat := 30000
  deriving DecidableEq, Repr

/-- The variables that a configuration is read from. Their values are byte
strings; an unset one has none. -/
structure Environment where
  path : Option (List UInt8) := none
  maxConnections : Option (List UInt8) := none
  busyTimeout : Option (List UInt8) := none
  operationTimeout : Option (List UInt8) := none
  deriving DecidableEq, Repr

namespace StoreConfig

def memory : StoreConfig := {}

def file (path : String) : StoreConfig := { place := .file path }

/-- The text of a variable; a value that is not UTF-8 counts as unset. -/
def textOf? (value : Option (List UInt8)) : Option String :=
  value.bind fun bytes => String.fromUTF8? ⟨bytes.toArray⟩

/-- The greatest number that a variable can have. -/
def maxNumber : Nat := 18446744073709551615

/-- The 64-bit number of a variable; blanks around it are skipped. -/
def numberOf? (value : Option (List UInt8)) : Option Nat :=
  (textOf? value).bind fun text =>
    (Numeral.unsigned? (trim text.toList)).filter fun number => number ≤ maxNumber

/-- The configuration that an environment asks for. A path of nothing but blanks
counts as unset, and so does a number of connections of zero. -/
def ofEnvironment (environment : Environment) : StoreConfig where
  place :=
    match textOf? environment.path with
    | some path => if (trim path.toList).isEmpty then .memory else .file path
    | none => .memory
  maxConnections :=
    ((numberOf? environment.maxConnections).filter fun number => 0 < number).getD
      memory.maxConnections
  busyTimeout := (numberOf? environment.busyTimeout).getD memory.busyTimeout
  operationTimeout := (numberOf? environment.operationTimeout).getD memory.operationTimeout

end StoreConfig
end DocAccess
