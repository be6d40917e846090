import SingleWriter.Session.World

/-! The waits of a task: for a connection, for the pool, for a statement that meets a lock.  Each
function is one look; it gives an outcome once there is one. -/

namespace SingleWriter.Session

namespace World

def after (w : World) (d : Duration) : Nat := w.now + d.nanos

/-- The deadline of a task; a wait that has none yet gets one. -/
def deadlineOf (w : World) (id : Nat) (wait : Duration) : Nat × World :=
  match w.task? id with
  | some t =>
    match t.deadline with
    | some time => (time, w)
    | none =>
      let time := w.after wait
      (time, w.putTask { t with deadline := some time })
  | none => (w.now, w)

def setDeadline (w : World) (id time : Nat) : World :=
  match w.task? id with
  | some t => w.putTask { t with deadline := some time }
  | none => w

def clearDeadline (w : World) (id : Nat) : World :=
  match w.task? id with
  | some t => w.putTask { t with deadline := none }
  | none => w

/-- A place in the pool gets a new connection.  One that fails is tried again until the deadline. -/
def fillPlace (w : World) (id i deadline : Nat) (config : DatabaseConfig) :
    Option (Except SqlError Nat) × World :=
  match w.openConnection config with
  | (.connection c, w) => (some (.ok c), (w.modifyPool i (·.opened id c)).clearDeadline id)
  | (.refused e, w) => (some (.error e), (w.modifyPool i (·.withdraw id)).clearDeadline id)
  | (.failed _, w) =>
    if deadline ≤ w.now then
      (some (.error .poolTimedOut), (w.modifyPool i (·.withdraw id)).clearDeadline id)
    else (none, w)

def takeConnection (w : World) (id i : Nat) : Option (Except SqlError Nat) × World :=
  match w.target? i with
  | none => (some (.error .poolClosed), w)
  | some t =>
    let config := t.database.config
    match t.database.pool with
    | none => (some (.error .poolClosed), w)
    | some p =>
      if p.closed then
        (some (.error .poolClosed), (w.modifyPool i (·.withdraw id)).clearDeadline id)
      else
        let (deadline, w) := w.deadlineOf id config.acquireTimeout
        if config.acquireTimeout = .zero then
          (some (.error .poolTimedOut), (w.modifyPool i (·.withdraw id)).clearDeadline id)
        else if p.opening.contains id then w.fillPlace id i deadline config
        else
          let p := if p.line.contains id then p else p.enqueue id
          match p.serve? id with
          | some (.idle c, p) =>
            let w := w.modifyPool i fun _ => p
            if w.outlived config c then
              let w := (w.closeConnection c).modifyPool i (·.replace id c)
              w.fillPlace id i deadline config
            else (some (.ok c), w.clearDeadline id)
          | some (.opening, p) => (w.modifyPool i fun _ => p).fillPlace id i deadline config
          | none =>
            if deadline ≤ w.now then
              (some (.error .poolTimedOut),
                (w.modifyPool i fun _ => p.withdraw id).clearDeadline id)
            else (none, w.modifyPool i fun _ => p)

/-- Opens several connections, or none if one cannot be opened. -/
def openAll (w : World) (config : DatabaseConfig) : Nat → List Nat →
    Except Engine.Disk.Opened (List Nat) × World
  | 0, done => (.ok done, w)
  | n + 1, done =>
    match w.openConnection config with
    | (.connection c, w) => w.openAll config n (done ++ [c])
    | (outcome, w) => (.error outcome, done.foldl closeConnection w)

/-- One look at a pool that is being built: it starts with the connections that it keeps, at least
one, and the first of them has been used once. -/
def buildPool (w : World) (id i : Nat) : Option (Except SqlError Pool) × World :=
  match w.target? i with
  | none => (some (.error .poolClosed), w)
  | some t =>
    let config := t.database.config
    let (deadline, w) := w.deadlineOf id config.acquireTimeout
    if config.acquireTimeout = .zero then (some (.error .poolTimedOut), w.clearDeadline id) else
    match w.openAll config (max 1 config.poolMin) [] with
    | (.ok idle, w) =>
      (some (.ok
        { limit := config.poolMax, minimum := config.poolMin, idle := idle.drop 1 ++ idle.take 1 }),
        w.clearDeadline id)
    | (.error (.refused e), w) => (some (.error e), w.clearDeadline id)
    | (.error _, w) =>
      if deadline ≤ w.now then (some (.error .poolTimedOut), w.clearDeadline id) else (none, w)

/-- One look at a statement: it waits for a lock as long as its connection's patience lasts. -/
def execute (w : World) (id on : Nat) (s : Engine.Statement) :
    Option (Except SqlError Engine.Reply) × World :=
  let patience : Duration :=
    match w.disk.connection? on with
    | some c => .ofMillis c.settings.busyTimeout
    | none => .zero
  let (deadline, w) := w.deadlineOf id patience
  let (outcome, disk) := w.disk.execute on (decide (w.now < deadline)) s
  let w := { w with disk }
  match outcome with
  | .busy => (none, w)
  | .reply r => (some (.ok r), w.clearDeadline id)
  | .failed e => (some (.error e), w.clearDeadline id)

/-! ### Calls on a handle -/

def carryOut (w : World) (i : Nat) (effects : List Database.Effect) : World :=
  effects.foldl (fun w e =>
    match e with
    | .release c => w.release i c
    | .closePool => w.closePool i) w

def answerCall (w : World) (i : Nat) (c : Database.Call) (a : Database.Answer) :
    Database.Call × World :=
  match w.target? i with
  | none => (c, w)
  | some t =>
    let (c, db, effects) := c.resume t.database a
    (c, (w.modifyDatabase i fun _ => db).carryOut i effects)

/-- One look at what a call on a handle waits for; gives the call if it went on. -/
def pollCall (w : World) (id i : Nat) (c : Database.Call) : Option Database.Call × World :=
  let go (w : World) (a : Database.Answer) : Option Database.Call × World :=
    let (c, w) := w.answerCall i c a
    (some c, w)
  match c.phase with
  | .entering => go w .proceed
  | .waiting =>
    match w.target? i with
    | some t => if t.database.building then (none, w) else go w .proceed
    | none => (none, w)
  | .building =>
    match w.buildPool id i with
    | (none, w) => (none, w)
    | (some (.ok p), w) => go w (.built p)
    | (some (.error e), w) => go w (.failed e)
  | .acquiring =>
    match w.takeConnection id i with
    | (none, w) => (none, w)
    | (some (.ok on), w) => go w (.acquired on)
    | (some (.error e), w) => go w (.failed e)
  | .checkpointing on =>
    match w.execute id on (.checkpoint c.checkpointMode) with
    | (none, w) => (none, w)
    | (some (.ok (.report r)), w) => go w (.report r)
    | (some (.ok _), w) => go w (.failed .workerCrashed)
    | (some (.error e), w) => go w (.failed e)
  | .draining => if (w.pool? i).any (·.drained) then go w .proceed else (none, w)
  | .unlinking =>
    let (disk, result) := w.disk.unlinkAll [.main, .wal, .shm]
    go { w with disk } (.unlinked result)
  | .finished _ => (none, w)

end World

end SingleWriter.Session
