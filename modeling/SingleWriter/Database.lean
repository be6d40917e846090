import SingleWriter.Checkpoint
import SingleWriter.DatabaseConfig
import SingleWriter.Error.Connection
import SingleWriter.Pool

/-! A handle of one database.  The pool is built on first use and at most once; closing the handle
is final.  Each request on a handle is a call that goes from phase to phase; `Call.resume` says
where an answer takes the call and the handle. -/

namespace SingleWriter

structure Database where
  path : String
  config : DatabaseConfig
  closed : Bool := false
  building : Bool := false
  pool : Option Pool := none
deriving DecidableEq

namespace Database

def connected (db : Database) : Bool := db.pool.isSome && !db.closed

/-- The pool, if the handle is open and connected. -/
def openPool (db : Database) : Except ConnectionError Pool :=
  if db.closed then .error .closed
  else
    match db.pool with
    | some p => .ok p
    | none => .error .notInitialized

inductive Request where
  | connect
  | acquire
  | checkpoint (mode : CheckpointMode)
  | close
  | remove
deriving DecidableEq

inductive Product where
  | done
  | connection (id : Nat)
  | report (r : CheckpointReport)
deriving DecidableEq

/-- What a call waits for. -/
inductive Phase where
  | entering
  /-- The end of another call's building. -/
  | waiting
  | building
  | acquiring
  | checkpointing (on : Nat)
  /-- The return of all connections to the closed pool. -/
  | draining
  | unlinking
  | finished (result : Except ConnectionError Product)

structure Call where
  request : Request
  phase : Phase := .entering

/-- The answer to what a call waits for. -/
inductive Answer where
  /-- It is the call's turn, the building or the draining is over. -/
  | proceed
  | built (pool : Pool)
  | acquired (on : Nat)
  | report (r : CheckpointReport)
  | unlinked (result : Except IoError Unit)
  /-- The building, the wait for a connection or the checkpoint failed. -/
  | failed (e : SqlError)

/-- What a call has others do. -/
inductive Effect where
  | release (c : Nat)
  | closePool
deriving DecidableEq

namespace Call

/-- The mode of the checkpoint that a call runs; closing runs one that empties the log. -/
def checkpointMode (c : Call) : CheckpointMode :=
  match c.request with
  | .checkpoint mode => mode
  | _ => .truncate

def result? (c : Call) : Option (Except ConnectionError Product) :=
  match c.phase with
  | .finished r => some r
  | _ => none

def finish (c : Call) (r : Except ConnectionError Product) : Call := { c with phase := .finished r }

/-- Goes on with the pool, which is built first if there is none. -/
def usePool (c : Call) (db : Database) : Call × Database :=
  match db.pool with
  | some _ =>
    match c.request with
    | .acquire => ({ c with phase := .acquiring }, db)
    | _ => (c.finish (.ok .done), db)
  | none =>
    if db.building then ({ c with phase := .waiting }, db)
    else ({ c with phase := .building }, { db with building := true })

/-- Goes on when the handle is closed. -/
def afterClose (c : Call) : Call :=
  match c.request with
  | .remove => { c with phase := .unlinking }
  | _ => c.finish (.ok .done)

def drain (c : Call) : Call × List Effect := ({ c with phase := .draining }, [.closePool])

def enter (c : Call) (db : Database) : Call × Database × List Effect :=
  match c.request with
  | .checkpoint _ =>
    match db.openPool with
    | .ok _ => ({ c with phase := .acquiring }, db, [])
    | .error e => (c.finish (.error e), db, [])
  | .close | .remove =>
    if db.closed then (c.afterClose, db, [])
    else
      let db := { db with closed := true }
      match db.pool with
      | none => (c.afterClose, db, [])
      | some _ =>
        if db.config.enableWal then ({ c with phase := .acquiring }, db, [])
        else
          let (c, effects) := c.drain
          (c, db, effects)
  | _ =>
    if db.closed then (c.finish (.error .closed), db, [])
    else
      let (c, db) := c.usePool db
      (c, db, [])

/-- What follows the wait for a connection: closing goes on without one. -/
def refuse (c : Call) (e : SqlError) : Call × List Effect :=
  match c.request with
  | .close | .remove => c.drain
  | _ => (c.finish (.error (.sql e)), [])

def hold (c : Call) (on : Nat) : Call :=
  match c.request with
  | .acquire => c.finish (.ok (.connection on))
  | _ => { c with phase := .checkpointing on }

/-- What follows a checkpoint: the connection goes back, and closing goes on whatever came of it. -/
def afterCheckpoint (c : Call) (on : Nat) (r : Except SqlError CheckpointReport) :
    Call × List Effect :=
  match c.request with
  | .close | .remove =>
    let (c, effects) := c.drain
    (c, .release on :: effects)
  | _ =>
    match r with
    | .ok report => (c.finish (.ok (.report report)), [.release on])
    | .error e => (c.finish (.error (.checkpoint c.checkpointMode.name e)), [.release on])

/-- Where an answer takes a call and its handle.  An answer that does not fit the phase changes
nothing. -/
def resume (c : Call) (db : Database) (a : Answer) : Call × Database × List Effect :=
  match c.phase, a with
  | .entering, .proceed => c.enter db
  | .waiting, .proceed =>
    let (c, db) := c.usePool db
    (c, db, [])
  | .building, .built pool =>
    let (c, db) := c.usePool { db with pool := some pool, building := false }
    (c, db, [])
  | .building, .failed e =>
    (c.finish (.error (.ofOpening db.path e)), { db with building := false }, [])
  | .acquiring, .acquired on => (c.hold on, db, [])
  | .acquiring, .failed e =>
    let (c, effects) := c.refuse e
    (c, db, effects)
  | .checkpointing on, .report r =>
    let (c, effects) := c.afterCheckpoint on (.ok r)
    (c, db, effects)
  | .checkpointing on, .failed e =>
    let (c, effects) := c.afterCheckpoint on (.error e)
    (c, db, effects)
  | .draining, .proceed => (c.afterClose, db, [])
  | .unlinking, .unlinked (.ok _) => (c.finish (.ok .done), db, [])
  | .unlinking, .unlinked (.error e) => (c.finish (.error (.io e)), db, [])
  | _, _ => (c, db, [])

end Call

end Database

end SingleWriter
