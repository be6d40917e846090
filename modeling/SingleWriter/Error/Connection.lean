import SingleWriter.Error.Sql

/-! Errors of a database handle and its connections. -/

namespace SingleWriter

inductive ConnectionError where
  | io (e : IoError)
  | sql (e : SqlError)
  | opening (path : String) (e : SqlError)
  | pragma (statement : String) (e : SqlError)
  | notInitialized
  | closed
  | checkpoint (mode : String) (e : SqlError)
deriving DecidableEq

namespace ConnectionError

/-- What comes of an error in opening the pool: a pragma that has failed is taken out again.  The
pool does not tell of one by itself, since it tries a connection whose pragmas fail again until its
time is over. -/
def ofOpening (path : String) : SqlError → ConnectionError
  | .pragma statement e => .pragma statement e
  | e => .opening path e

def message : ConnectionError → String
  | io e => "IO error: " ++ e.message
  | sql e => "Sqlx error: " ++ e.message
  | opening path e => "failed to open database at " ++ path ++ ": " ++ e.message
  | pragma statement e => "failed to apply `" ++ statement ++ "`: " ++ e.message
  | notInitialized => "Database connection has not been initialized"
  | closed => "Database has been closed"
  | checkpoint mode e => "wal_checkpoint(" ++ mode ++ ") failed: " ++ e.message

/-- The code for programs. -/
def code : ConnectionError → String
  | io _ => "IO_ERROR"
  | sql _ => "SQLX_ERROR"
  | opening .. => "OPEN_ERROR"
  | pragma .. => "PRAGMA_ERROR"
  | notInitialized => "NOT_INITIALIZED"
  | closed => "DATABASE_CLOSED"
  | checkpoint .. => "CHECKPOINT_ERROR"

def sql? : ConnectionError → Option SqlError
  | sql e => some e
  | opening _ e => some e
  | pragma _ e => some e
  | checkpoint _ e => some e
  | _ => none

end ConnectionError

end SingleWriter
