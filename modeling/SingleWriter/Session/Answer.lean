import SingleWriter.DatabaseConfig
import SingleWriter.Engine.Statement
import SingleWriter.Error.Store
import SingleWriter.Observer
import SingleWriter.RetryPolicy

/-! What a session is asked and what it answers.  A session drives one database by steps; writes are
lists of actions, and every step has one answer. -/

namespace SingleWriter.Session

/-- What another connection holds: a write lock, a lock against everyone, or a snapshot. -/
inductive Hold where
  | write
  | exclusive
  | read
deriving DecidableEq

/-- One thing that a write, or whoever holds a connection, does. -/
inductive Action where
  | statement (s : Engine.Statement)
  /-- Inserts a row that is named for the attempt. -/
  | insertAttempt
  | attempt
  | value (v : Json.Value)
  | fail (e : WriteError)
  | cancel
  | block (name : String) (how : Hold)
  | unblock (name : String)
  | outsideInsert (key value : String)
  | wait (gate : String)

/-- What a write is asked to do: its name, its token, and what it does at each invocation.  The last
list of actions serves all later invocations. -/
structure Order where
  name : String
  cancellable : Bool
  /-- Whether the token is cancelled before the write begins. -/
  cancelled : Bool
  attempts : List (List Action)

structure Status where
  connected : Bool
  closed : Bool
  begins : DatabaseConfig.BeginMode
  strategy : Strategy
  maxAttempts : Nat

structure Noted where
  event : Event
  floor : Duration
  inBounds : Bool
  /-- Whether a recovered write took at least as long as the waits listed before it. -/
  sleptLongEnough : Bool

mutual

inductive Answer where
  | ok
  | notOpen
  | notAStore
  | noGuard
  | noBlocker
  | noTask
  | noSubscriber
  | noFile
  | running
  /-- Nothing is left that could end the step. -/
  | stuck
  | flag (b : Bool)
  | number (n : Nat)
  | value (v : Json.Value)
  | reply (r : Engine.Reply)
  | refused (e : SqlError)
  | connectionError (e : ConnectionError)
  | writeError (e : WriteError)
  | storeError (e : StoreError)
  | checkpoint (r : CheckpointReport)
  | pool (limit minimum : Nat) (closed : Bool)
  | status (s : Status)
  | files (main wal shm : Engine.Disk.Look)
  | opened (connected : Bool)
  | progress (finished : Bool) (calls : List Nat)
  | settings (same : Bool) (mode : CheckpointMode)
  | received (r : Received Noted)
  | list (answers : List Answer)
  | written (r : WriteReport)

/-- The answer of a write; one that was dropped has no result. -/
inductive WriteReport where
  | report (result : Option (Except WriteError (List Answer))) (calls : List Nat)
      (trace : List (List (Except WriteError Answer))) (events : List Noted)
      (logs : Option (List LogEntry))

end

end SingleWriter.Session
