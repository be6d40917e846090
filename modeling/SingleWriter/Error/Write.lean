import SingleWriter.Error.Connection

/-! Errors of a write: its own ends, the errors of the layers below, and those that the operation
raises. -/

namespace SingleWriter

mutual

inductive WriteError where
  | sql (e : SqlError)
  | connection (e : ConnectionError)
  | exhausted (operation : String) (attempts : Nat) (last : WriteError)
  | cancelled (operation : String) (attempts : Nat)
  | operation (cause : Cause)
  | io (e : IoError)
  | other (message : String)

/-- What an operation wraps as an error of its own. -/
inductive Cause where
  | app (message : String)
  | io (e : IoError)
  | sql (e : SqlError)
  | connection (e : ConnectionError)
  | write (e : WriteError)

end

mutual

def WriteError.message : WriteError → String
  | .sql e => e.message
  | .connection e => e.message
  | .exhausted operation attempts last =>
    operation ++ ": retries exhausted after " ++ toString attempts ++ " attempts: " ++ last.message
  | .cancelled operation attempts =>
    operation ++ ": cancelled after " ++ toString attempts ++ " attempts"
  | .operation cause => cause.message
  | .io e => "io error: " ++ e.message
  | .other m => m

def Cause.message : Cause → String
  | .app m => m
  | .io e => e.message
  | .sql e => e.message
  | .connection e => e.message
  | .write e => e.message

end

namespace WriteError

/-- The code for programs.  An error of a connection has the code of the database error underneath,
if there is one. -/
def code : WriteError → String
  | sql e => e.code
  | connection e =>
    match e.sql? with
    | some inner => if inner.isDatabase then inner.code else e.code
    | none => e.code
  | exhausted .. => "RETRIES_EXHAUSTED"
  | cancelled .. => "CANCELLED"
  | operation _ => "OPERATION_ERROR"
  | io _ => "IO_ERROR"
  | other _ => "ERROR"

def lastTransient? : WriteError → Option WriteError
  | exhausted _ _ last => some last
  | _ => none

end WriteError

end SingleWriter
