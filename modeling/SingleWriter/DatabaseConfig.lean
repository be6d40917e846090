import SingleWriter.Duration
import SingleWriter.Pragma

/-! The configuration of one database: how many connections it keeps, how long it waits, and the
pragmas of every connection. -/

namespace SingleWriter

structure DatabaseConfig where
  maxOpenConnections : Nat := 1
  maxIdleConnections : Nat := 1
  maxLifetime : Duration := .ofSeconds 600
  idleTimeout : Duration := .ofSeconds 30
  acquireTimeout : Duration := .ofSeconds 30
  busyTimeout : Duration := .ofMillis 5000
  enableWal : Bool := true
  synchronous : Synchronous := .normal
  tempStore : TempStore := .memory
  foreignKeys : Bool := true
  txImmediate : Bool := true
deriving DecidableEq

namespace DatabaseConfig

/-- Whether a write takes the write lock when it begins or at its first change. -/
inductive BeginMode where
  | deferred
  | immediate
deriving DecidableEq

def beginMode (c : DatabaseConfig) : BeginMode := if c.txImmediate then .immediate else .deferred

def BeginMode.statement : BeginMode → String
  | deferred => "BEGIN"
  | immediate => "BEGIN IMMEDIATE"

/-- The connections that the pool may open: at least one. -/
def poolMax (c : DatabaseConfig) : Nat := max 1 c.maxOpenConnections

/-- The connections that the pool keeps: no more than it may open. -/
def poolMin (c : DatabaseConfig) : Nat := min c.maxIdleConnections c.poolMax

/-- The pragmas of every connection, in the order in which they run.  The busy timeout comes first,
so that those after it already wait for a locked file. -/
def plan (c : DatabaseConfig) : List Pragma :=
  [⟨"busy_timeout", toString c.busyTimeout.millis⟩,
    ⟨"synchronous", c.synchronous.name⟩,
    ⟨"temp_store", c.tempStore.name⟩]
  ++ (if c.enableWal then [⟨"journal_mode", "WAL"⟩] else [])
  ++ [⟨"foreign_keys", if c.foreignKeys then "ON" else "OFF"⟩]

theorem poolMin_le_poolMax (c : DatabaseConfig) : c.poolMin ≤ c.poolMax := Nat.min_le_right ..

theorem one_le_poolMax (c : DatabaseConfig) : 1 ≤ c.poolMax := Nat.le_max_left ..

end DatabaseConfig

end SingleWriter
