import SingleWriter.Engine.Connect
import SingleWriter.Session.Answer
import SingleWriter.Store
import SingleWriter.Stream
import SingleWriter.Write.Call
import SingleWriter.Write.Lock

/-! Everything that a session works on: the disk, the handles with their pools and locks, the tasks
that are under way, and a clock that moves only when all of them wait. -/

namespace SingleWriter.Session

/-- A gate counts those who have come to it and how many it lets pass. -/
structure Gate where
  arrivals : Nat := 0
  passes : Nat := 0
deriving DecidableEq

/-- A database in use, bare or within a store. -/
structure Target where
  database : Database
  policy : RetryPolicy
  observer : Observer
  lock : Write.Lock := {}
  store : Option Store := none
  channel : Option Nat := none
  /-- Whether the session still knows the target. -/
  known : Bool := true

/-- A write with what it has done so far. -/
structure Writing where
  order : Order
  call : Write.Call (List Answer)
  started : Nat
  cancelled : Bool
  access : Database.Call := { request := .acquire }
  /-- The attempts that invoked the operation, latest first. -/
  calls : List Nat := []
  /-- What the actions of each invocation came to, latest first. -/
  trace : List (List (Except WriteError Answer)) := []
  left : List Action := []
  /-- Whether the first of them has come to its gate. -/
  atGate : Bool := false

inductive Job where
  | write (w : Writing)
  | database (c : Database.Call)
  | setup (c : Database.Call)
  | creating (on : Nat)
  /-- Does actions on a connection that is held. -/
  | guard (on : Nat) (left : List Action) (atGate : Bool) (done : List Answer)
  | shutdown (s : Shutdown)
  | checkpoints (c : Checkpointer)
  /-- Finishes a `BEGIN` that nobody waits for, and gives the connection back. -/
  | linger (on : Nat)
  | sleep (time : Nat)
  /-- Looks at the log every five milliseconds until it is empty or the time is over. -/
  | watch (time next : Nat)
  | join (task : Nat) (time : Option Nat)
  /-- Waits until someone has come to a gate. -/
  | reach (gate : String)
  | finished (a : Answer)

/-- A task on one target; the deadline is that of what it waits for. -/
structure Task where
  id : Nat
  target : Nat
  job : Job
  deadline : Option Nat := none

/-- Everything that a session works on.  Times are nanoseconds since its start. -/
structure World where
  now : Nat := 0
  disk : Engine.Disk
  targets : List Target := []
  current : Option Nat := none
  tasks : List Task := []
  nextTask : Nat := 0
  writes : List (String × Nat) := []
  chores : List (String × Nat) := []
  /-- The connections that the session holds, with their targets. -/
  guards : List (String × Nat × Nat) := []
  /-- The connections that hold a lock from outside. -/
  blockers : List (String × Nat) := []
  gates : List (String × Gate) := []
  /-- The streams of events, with their channels. -/
  readers : List (String × Nat × Stream) := []
  records : Records := {}
  opened : List (Nat × Nat) := []

def assign (l : List (String × α)) (key : String) (a : α) : List (String × α) :=
  (key, a) :: l.filter (·.1 != key)

def unassign (l : List (String × α)) (key : String) : List (String × α) := l.filter (·.1 != key)

namespace World

def target? (w : World) (i : Nat) : Option Target := w.targets[i]?

def modifyTarget (w : World) (i : Nat) (f : Target → Target) : World :=
  { w with targets := w.targets.modify i f }

def modifyDatabase (w : World) (i : Nat) (f : Database → Database) : World :=
  w.modifyTarget i fun t => { t with database := f t.database }

def modifyPool (w : World) (i : Nat) (f : Pool → Pool) : World :=
  w.modifyDatabase i fun db => { db with pool := db.pool.map f }

def pool? (w : World) (i : Nat) : Option Pool := (w.target? i).bind (·.database.pool)

def task? (w : World) (id : Nat) : Option Task := w.tasks.find? (·.id == id)

def putTask (w : World) (t : Task) : World :=
  { w with tasks := w.tasks.map fun old => if old.id = t.id then t else old }

def addTask (w : World) (target : Nat) (job : Job) (deadline : Option Nat) : Nat × World :=
  (w.nextTask,
    { w with
      tasks := w.tasks ++ [{ id := w.nextTask, target, job, deadline }]
      nextTask := w.nextTask + 1 })

def dropTask (w : World) (id : Nat) : World := { w with tasks := w.tasks.filter (·.id != id) }

def emit (w : World) (i : Nat) (e : Event) : World :=
  match w.target? i with
  | some t => { w with records := t.observer.notify e w.records }
  | none => w

/-! ### Connections -/

def openConnection (w : World) (config : DatabaseConfig) : Engine.Disk.Opened × World :=
  let (outcome, disk) := w.disk.openConfigured config
  match outcome with
  | .connection c => (outcome, { w with disk, opened := (c, w.now) :: w.opened })
  | _ => (outcome, { w with disk })

def closeConnection (w : World) (c : Nat) : World :=
  { w with disk := w.disk.close c, opened := w.opened.filter (·.1 != c) }

/-- Whether a connection has lived as long as it may. -/
def outlived (w : World) (config : DatabaseConfig) (c : Nat) : Bool :=
  match w.opened.lookup c with
  | some born => config.maxLifetime.nanos ≤ w.now - born
  | none => false

/-- Opens connections until the pool keeps enough, or one cannot be opened. -/
def refill (w : World) (i : Nat) : Nat → World
  | 0 => w
  | n + 1 =>
    match w.target? i with
    | none => w
    | some t =>
      match t.database.pool with
      | none => w
      | some p =>
        if p.wantsMore then
          match w.openConnection t.database.config with
          | (.connection c, w) => (w.modifyPool i (·.addIdle c)).refill i n
          | (_, w) => w
        else w

/-- Closes a lent connection; the pool may get another for it. -/
def discard (w : World) (i : Nat) (c : Nat) : World :=
  let w := (w.closeConnection c).modifyPool i (·.forget c)
  match w.pool? i with
  | some p => w.refill i p.minimum
  | none => w

def release (w : World) (i : Nat) (c : Nat) : World :=
  match w.target? i with
  | none => w
  | some t =>
    if t.database.pool.any (·.closed) || w.outlived t.database.config c then w.discard i c
    else w.modifyPool i (·.giveBack c)

def closePool (w : World) (i : Nat) : World :=
  match w.pool? i with
  | none => w
  | some p =>
    let (idle, p) := p.close
    idle.foldl closeConnection (w.modifyPool i fun _ => p)

end World

end SingleWriter.Session
