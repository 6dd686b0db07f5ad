import Kayan.Lib.Triple

/-!
# Database errors and exceptions

What Postgres raises and what the services throw.
-/
namespace Kayan

/-- Errors that Postgres or the connection raises. -/
inductive PgError where
  | checkViolation
  | uniqueViolation
  | foreignKeyViolation
  | outOfRange
  /-- A text with U+0000. -/
  | characterNotInRepertoire
  /-- A text that is no timestamp. -/
  | invalidDatetime
  /-- A text that is no integer. -/
  | invalidText
  /-- A column name that two tables of a query share. -/
  | ambiguousColumn
  | undefinedColumn
  /-- More parameters than a message counts. -/
  | protocolViolation
  | deadlockDetected
  | connection
  deriving DecidableEq

/-- What a service method throws. -/
inductive Failure where
  | badRequest (message : String)
  | unauthorized (message : String)
  | forbidden (message : String)
  | notFound (message : String)
  | conflict (message : String)
  | serviceUnavailable (message : String)
  /-- An `Error` of the service, with no status of its own. -/
  | error (message : String)
  /-- A `TypeError` of the service, answered as an internal error. -/
  | typeError
  | database (e : PgError)
  deriving DecidableEq

end Kayan
