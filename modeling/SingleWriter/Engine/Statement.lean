import SingleWriter.Checkpoint
import SingleWriter.Engine.Disk

/-! Statements on a connection.  A statement that meets a lock is `busy`: the connection tries again
until its patience is over, and then the statement fails.

With a log, readers and one writer never meet; a transaction that has read may write only while
nothing newer was committed.  Without a log, a commit needs the readers gone. -/

namespace SingleWriter.Engine

inductive BeginKind where
  | deferred
  | immediate
  | exclusive
deriving DecidableEq

inductive Statement where
  | begin (kind : BeginKind)
  | commit
  | rollback
  | change (c : Change)
  | missingTable
  | get (key : String)
  | count
  | survey
  | glance
  | mark
  | marked
  | settings
  | createTables
  | checkpoint (mode : CheckpointMode)
deriving DecidableEq

/-- Whether a statement can only run once it is known whether there are tables. -/
def Statement.needsTables : Statement → Bool
  | .begin _ => false
  | .commit => false
  | .rollback => false
  | _ => true

inductive Reply where
  | done
  | number (n : Nat)
  | text (s : String)
  | flag (b : Bool)
  | contents (t : Tables)
  | settings (s : Settings) (journal : Journal)
  | report (r : CheckpointReport)
deriving DecidableEq

inductive Outcome where
  | reply (r : Reply)
  | failed (e : SqlError)
  | busy
deriving DecidableEq

/-- A connection on its disk, with its file and the other connections to it. -/
structure View where
  disk : Disk
  id : Nat
  connection : Connection

namespace View

def file (v : View) : File := v.disk.file v.connection.file

def others (v : View) : List Connection := v.disk.others v.id v.connection

def put (v : View) (c : Connection) : Disk := v.disk.setConnection v.id c

def setTransaction (v : View) (t : Transaction) : Disk :=
  v.put { v.connection with transaction := t }

def onto (v : View) (d : Disk) : View :=
  { v with disk := d, connection := (d.connection? v.id).getD v.connection }

def mayRead (v : View) : Bool := v.file.journal == .wal || !v.others.any (·.shutsOut)

def mayWrite (v : View) : Bool := v.mayRead && !v.others.any (·.writes)

def mayCommit (v : View) : Bool := v.file.journal == .wal || !v.others.any (·.reads)

def contents (v : View) : Option Tables :=
  match v.connection.transaction with
  | .reading s => s.contents
  | .writing _ d => d.contents
  | _ => v.file.contents

/-- Whether the connection's file is empty and still at the path. -/
def emptyAtPath (v : View) : Bool :=
  !v.file.formatted && !v.file.alien && v.disk.main == .file v.connection.file

/-- Lets a connection read before anything else: the log is opened if there is one.  A log that
someone has left beside an empty file is deleted unless it is empty too. -/
def startReading (v : View) : Except Outcome View :=
  if v.file.alien then
    .error (.failed (if v.disk.wal = .directory then .cannotOpen else .notADatabase))
  else if v.mayRead then
    if v.emptyAtPath then
      match v.disk.wal with
      | .directory => .error (.failed .deleteFailed)
      | .stray false => .ok (v.onto { v.disk with wal := .absent })
      | _ => .ok v
    else .ok (v.onto (v.disk.openLog v.id v.connection))
  else .error .busy

def takeNote (v : View) : View :=
  v.onto (v.put { v.connection with tables? := some v.contents.isSome })

/-- Lets a connection find out whether there are tables, unless it knows.  Inside a transaction that
reads it needs no lock for that. -/
def learn (v : View) : Except Outcome View :=
  if v.connection.tables?.isSome then .ok v
  else if v.connection.reads then .ok v.takeNote
  else v.startReading.map takeNote

/-- Looks at the file once more, if that is possible. -/
def refresh (v : View) : View :=
  if v.connection.reads then v.takeNote
  else
    match v.startReading with
    | .ok v => v.takeNote
    | .error _ => v

/-- The tables that a statement finds.  A connection that knows of none and cannot look at the file
again finds none. -/
def found (v : View) : Option Tables :=
  if v.connection.tables? = some true then v.contents else none

/-- Answers a question about the tables; a transaction keeps to the snapshot of its first one. -/
def query (v : View) (answer : Tables → Except SqlError Reply) : Outcome × Disk :=
  let v := v.refresh
  let reply (t : Tables) : Outcome :=
    match answer t with
    | .ok r => .reply r
    | .error e => .failed e
  match v.found with
  | none => (.failed (.noSuchTable "kv"), v.disk)
  | some t =>
    match v.connection.transaction with
    | .idle =>
      match v.startReading with
      | .error o => (o, v.disk)
      | .ok v => (reply t, v.disk)
    | .begun =>
      match v.startReading with
      | .error o => (o, v.disk)
      | .ok v => (reply t, v.setTransaction (.reading v.file.snapshot))
    | _ => (reply t, v.disk)

def glance (v : View) : Outcome × Disk :=
  match v.connection.transaction with
  | .idle =>
    match v.startReading with
    | .error o => (o, v.disk)
    | .ok v => (.reply .done, v.disk)
  | .begun =>
    match v.startReading with
    | .error o => (o, v.disk)
    | .ok v => (.reply .done, v.setTransaction (.reading v.file.snapshot))
  | _ => (.reply .done, v.disk)

/-- Takes the lock for writing, or gives what comes instead.  A transaction that has read already
must still see the newest commit, and does not wait.  The first to write to an empty file gives it a
head. -/
def startWriting (v : View) (grip : Grip) : Except (Outcome × Disk) View :=
  match v.connection.transaction with
  | .writing .. => .ok v
  | .reading s =>
    if v.others.any (·.writes) then .error (.failed .locked, v.disk)
    else if s.stamp ≠ v.file.stamp then .error (.failed .staleSnapshot, v.disk)
    else .ok (v.onto (v.setTransaction (.writing s ⟨s.contents, !v.file.formatted, grip⟩)))
  | _ =>
    match v.startReading with
    | .error o => .error (o, v.disk)
    | .ok v =>
      if v.mayWrite then
        let s := v.file.snapshot
        .ok (v.onto (v.setTransaction (.writing s ⟨s.contents, !v.file.formatted, grip⟩)))
      else .error (.busy, v.disk)

def publish (v : View) (contents : Option Tables) (changed : Bool) : Disk :=
  let d := if changed then v.disk.setFile v.connection.file (v.file.commit contents) else v.disk
  d.setConnection v.id { v.connection with transaction := .idle, debt := 0 }

/-- Begins a transaction.  One that writes from the start takes its lock before anything else, also
when it turns out that a transaction is under way. -/
def begin (v : View) (kind : BeginKind) : Outcome × Disk :=
  let nested := v.connection.inTransaction
  let v := if nested then v
    else v.onto (v.put { v.connection with markedBefore := v.connection.marked })
  let answer : Outcome := if nested then .failed .nestedBegin else .reply .done
  match kind with
  | .deferred => (answer, if nested then v.disk else v.setTransaction .begun)
  | .immediate =>
    match v.startWriting .reserved with
    | .error answer => answer
    | .ok v => (answer, v.disk)
  | .exclusive =>
    match v.startWriting .exclusive with
    | .error answer => answer
    | .ok w => if v.mayCommit then (answer, w.disk) else (.busy, v.disk)

/-- Ends a transaction for good.  Missing parents are found before any lock is asked for; a commit
that waits for readers lets no new ones in. -/
def commit (v : View) : Outcome × Disk :=
  match v.connection.transaction with
  | .idle => (.failed .commitWithoutBegin, v.disk)
  | .writing s d =>
    if 0 < v.connection.debt then (.failed .foreignKeyFailed, v.disk)
    else if v.mayCommit then (.reply .done, v.publish d.contents d.changed)
    else (.busy, v.setTransaction (.writing s { d with grip := .pending }))
  | _ => (.reply .done, v.setTransaction .idle)

def created (v : View) : Bool :=
  v.connection.marked != v.connection.markedBefore ||
    match v.connection.transaction with
    | .writing s d => s.contents.isSome != d.contents.isSome
    | _ => false

/-- Undoes a transaction.  If it has created tables, the connection has to find out again whether
there are any. -/
def rollback (v : View) : Outcome × Disk :=
  if v.connection.inTransaction then
    let marked := v.connection.markedBefore
    let tables? := if v.created then none else v.connection.tables?
    (.reply .done, v.put { v.connection with transaction := .idle, debt := 0, marked, tables? })
  else (.failed .rollbackWithoutBegin, v.disk)

/-- Carries out a change of one's own: it commits by itself. -/
def changeAlone (v : View) (t : Tables) (c : Change) : Outcome × Disk :=
  match v.startWriting .reserved with
  | .error answer => answer
  | .ok w =>
    let untouched := (w.onto (w.setTransaction .idle)).disk
    match t.apply v.connection.settings.foreignKeys 0 c with
    | .error e => (.failed e, untouched)
    | .ok a =>
      if 0 < a.debt then (.failed .foreignKeyFailed, untouched)
      else if w.mayCommit then (.reply (.number a.result), w.publish (some a.tables) a.touched)
      else (.busy, untouched)

def changeWithin (v : View) (t : Tables) (c : Change) : Outcome × Disk :=
  match v.startWriting .reserved with
  | .error answer => answer
  | .ok w =>
    match w.connection.transaction with
    | .writing s d =>
      match (d.contents.getD t).apply w.connection.settings.foreignKeys w.connection.debt c with
      | .error e => (.failed e, w.disk)
      | .ok a =>
        let d := { d with contents := some a.tables, changed := d.changed || a.touched }
        (.reply (.number a.result),
          w.put { w.connection with
            transaction := .writing s d
            debt := w.connection.debt + a.debt })
    | _ => (.busy, w.disk)

def change (v : View) (c : Change) : Outcome × Disk :=
  let v := v.refresh
  match v.found with
  | none => (.failed (.noSuchTable c.table), v.disk)
  | some t =>
    match v.connection.transaction with
    | .idle => v.changeAlone t c
    | _ => v.changeWithin t c

def createTables (v : View) : Outcome × Disk :=
  let v := v.refresh
  match v.found with
  | some _ => v.glance
  | none =>
    match v.startWriting .reserved with
    | .error answer => answer
    | .ok w =>
      match v.connection.transaction, w.connection.transaction with
      | .idle, _ =>
        if w.mayCommit then
          (.reply .done,
            (w.onto (w.put { w.connection with tables? := some true })).publish (some {}) true)
        else (.busy, w.put { w.connection with transaction := .idle, tables? := none })
      | _, .writing s d =>
        let d := { d with contents := some {}, changed := true }
        (.reply .done, w.put { w.connection with
          transaction := .writing s d
          tables? := some true })
      | _, _ => (.busy, w.disk)

/-- What keeps a checkpoint of a mode from finishing: another writer, a reader of an older commit,
or, if the log is to start over, any reader of the log.  A connection that opens the log for the
checkpoint is such a reader itself. -/
def obstructed (v : View) (mode : CheckpointMode) (reach : Nat) : Bool :=
  let writer := v.others.any (·.writes)
  let reader := v.others.any (fun o => o.snapshot?.any (·.viaLog))
    || (!v.connection.logOpen && v.file.snapshot.viaLog)
  match mode with
  | .passive => false
  | .normal => false
  | .full => writer || reach < v.file.version
  | _ => writer || reach < v.file.version || reader

/-- The newest commit that a checkpoint may fold back: no reader may need an older one. -/
def reach (v : View) : Nat :=
  let oldest := (v.others.filterMap (·.snapshot?)).foldl (fun n s => min n s.version) v.file.version
  max v.file.folded oldest

/-- Folds the log back as far as the readers allow.  A connection that has temporary tables must
have opened the log before. -/
def checkpoint (v : View) (mode : CheckpointMode) (patient : Bool) : Outcome × Disk :=
  if v.connection.reads then (.failed .tableLocked, v.disk)
  else
    match v.file.journal with
    | .rollback => (.reply (.report ⟨false, none⟩), v.disk)
    | .wal =>
      let reach := v.reach
      let blocked := v.obstructed mode reach
      if v.connection.temporary && !v.connection.logOpen then
        (.failed .tableLocked, v.disk.openLog v.id v.connection)
      else if blocked && patient then (.busy, v.disk)
      else
        let v := v.onto (v.disk.openLog v.id v.connection)
        let f := { v.file with folded := reach }
        let f :=
          if mode = .truncate ∧ blocked = false then
            { f with emptied := f.version, stamp := f.stamp + 1 }
          else f
        (.reply (.report ⟨blocked, some (f.version - f.emptied, f.folded - f.emptied)⟩),
          v.disk.setFile v.connection.file f)

def carryOut (v : View) (patient : Bool) : Statement → Outcome × Disk
  | .begin kind => v.begin kind
  | .commit => v.commit
  | .rollback => v.rollback
  | .change c => v.change c
  | .missingTable => (.failed (.noSuchTable "busy_things"), v.refresh.disk)
  | .get key =>
    v.query fun t =>
      match t.find? key with
      | some r => .ok (.text r.value)
      | none => .error .rowNotFound
  | .count => v.query fun t => .ok (.number t.rows.length)
  | .survey => v.query fun t => .ok (.contents t)
  | .glance => v.glance
  | .mark => (.reply .done, v.put { v.connection with marked := true, temporary := true })
  | .marked =>
    (.reply (.flag v.connection.marked), v.put { v.connection with temporary := true })
  | .settings => (.reply (.settings v.connection.settings v.connection.journal), v.disk)
  | .createTables => v.createTables
  | .checkpoint mode => v.checkpoint mode patient

/-- One try of a statement. -/
def attempt (v : View) (patient : Bool) (s : Statement) : Outcome × Disk :=
  if s.needsTables then
    match v.learn with
    | .error o => (o, v.disk)
    | .ok v => v.carryOut patient s
  else v.carryOut patient s

end View

/-- One try of a statement on a connection; without patience a lock makes it fail. -/
def Disk.execute (d : Disk) (id : Nat) (patient : Bool) (s : Statement) : Outcome × Disk :=
  match d.connection? id with
  | none => (.failed .workerCrashed, d)
  | some c =>
    match (View.mk d id c).attempt patient s with
    | (.busy, d) => (if patient then .busy else .failed .locked, d)
    | answer => answer

end SingleWriter.Engine
