import SingleWriter.Error.Io

/-! Errors of statements and of the connection pool. -/

namespace SingleWriter

/-- What can go wrong between a statement and the database.  Only `database` carries a result code,
as text. -/
inductive SqlError where
  | rowNotFound
  | poolTimedOut
  | poolClosed
  | workerCrashed
  | beginFailed
  | invalidSavepoint
  | protocol (message : String)
  | invalidArgument (message : String)
  | configuration (message : String)
  | tls (message : String)
  | encode (message : String)
  | decode (message : String)
  | anyDriver (message : String)
  | columnDecode (index message : String)
  | columnNotFound (name : String)
  | typeNotFound (name : String)
  | columnIndex (index len : Nat)
  | io (e : IoError)
  /-- A pragma of a new connection has failed, which is told as an error of the configuration. -/
  | pragma (statement : String) (e : SqlError)
  | database (code : Option String) (message : String)
deriving DecidableEq

namespace SqlError

def message : SqlError → String
  | rowNotFound => "no rows returned by a query that expected to return at least one row"
  | poolTimedOut => "pool timed out while waiting for an open connection"
  | poolClosed => "attempted to acquire a connection on a closed pool"
  | workerCrashed => "attempted to communicate with a crashed background worker"
  | beginFailed => "got unexpected connection status after attempting to begin transaction"
  | invalidSavepoint => "attempted to call begin_with at non-zero transaction depth"
  | protocol m => "encountered unexpected or invalid data: " ++ m
  | invalidArgument m => m
  | configuration m => "error with configuration: " ++ m
  | tls m => "error occurred while attempting to establish a TLS connection: " ++ m
  | encode m => "error occurred while encoding a value: " ++ m
  | decode m => "error occurred while decoding: " ++ m
  | anyDriver m => "error in Any driver mapping: " ++ m
  | columnDecode index m => "error occurred while decoding column " ++ index ++ ": " ++ m
  | columnNotFound name => "no column found for name: " ++ name
  | typeNotFound name => "type named " ++ name ++ " not found"
  | columnIndex index len =>
    "column index out of bounds: the len is " ++ toString len ++ ", but the index is "
      ++ toString index
  | io e => "error communicating with database: " ++ e.message
  | pragma statement e => "error with configuration: " ++ statement ++ ": " ++ e.message
  | database _ m => "error returned from database: " ++ m

def isDatabase : SqlError → Bool
  | database .. => true
  | _ => false

/-- The code for programs: the database's result code if there is one. -/
def code : SqlError → String
  | database (some c) _ => "SQLITE_" ++ c
  | _ => "SQLX_ERROR"

/-- The error with which the engine reports a result code. -/
def ofResult (code : Nat) (text : String) : SqlError :=
  database (some (toString code)) ("(code: " ++ toString code ++ ") " ++ text)

def locked : SqlError := ofResult 5 "database is locked"

/-- The snapshot is no longer the newest one, so nothing may be written from it. -/
def staleSnapshot : SqlError := ofResult 517 "database is locked"

/-- The connection itself is inside a transaction. -/
def tableLocked : SqlError := ofResult 6 "database table is locked"

def cannotOpen : SqlError := ofResult 14 "unable to open database file"

def notADatabase : SqlError := ofResult 26 "file is not a database"

def deleteFailed : SqlError := ofResult 2570 "disk I/O error"

def foreignKeyFailed : SqlError := ofResult 787 "FOREIGN KEY constraint failed"

def notNullFailed (column : String) : SqlError :=
  ofResult 1299 ("NOT NULL constraint failed: " ++ column)

def uniqueFailed (column : String) : SqlError :=
  ofResult 2067 ("UNIQUE constraint failed: " ++ column)

def primaryKeyFailed (column : String) : SqlError :=
  ofResult 1555 ("UNIQUE constraint failed: " ++ column)

def noSuchTable (table : String) : SqlError := ofResult 1 ("no such table: " ++ table)

def nestedBegin : SqlError := ofResult 1 "cannot start a transaction within a transaction"

def commitWithoutBegin : SqlError := ofResult 1 "cannot commit - no transaction is active"

def rollbackWithoutBegin : SqlError := ofResult 1 "cannot rollback - no transaction is active"

end SqlError

end SingleWriter
