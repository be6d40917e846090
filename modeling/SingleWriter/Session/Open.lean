import SingleWriter.Session.Step
import SingleWriter.Session.Task

/-! What a session does in the foreground: it runs tasks to their end, holds connections, opens
databases and stores, and reads events. -/

namespace SingleWriter.Session

/-- A bound on the number of looks at tasks within one step. -/
def stepFuel : Nat := 10000000

namespace World

/-! ### Tasks in the foreground -/

/-- Runs a job to its end and gives its answer. -/
def await (w : World) (i : Nat) (job : Job) (deadline : Option Nat := none) : Answer × World :=
  let (id, w) := w.addTask i job deadline
  let w := w.runUntil id stepFuel
  let answer := match (w.task? id).map (·.job) with
    | some (.finished a) => a
    | some (.write job) => w.report i job
    | _ => .stuck
  (answer, w.dropTask id)

def awaitTask (w : World) (task : Nat) (time : Option Nat) : Answer × World :=
  w.await 0 (.join task time) time

def sleepFor (w : World) (d : Duration) : World :=
  (w.await 0 (.sleep (w.after d)) (some (w.after d))).2

/-! ### Writes -/

/-- Forgets what was recorded: each event is listed once. -/
def clearRecords (w : World) : World :=
  { w with records := { w.records with calls := [], logs := [] } }

def startWriting (w : World) (order : Order) : Job :=
  .write {
    order
    call := { operation := order.name }
    started := w.now
    cancelled := order.cancelled }

def findWrite (w : World) (name : String) : Option (Task × Writing) :=
  match (w.writes.lookup name).bind w.task? with
  | some task =>
    match task.job with
    | .write job => some (task, job)
    | _ => none
  | none => none

def forgetWrite (w : World) (name : String) (id : Nat) : World :=
  { w.dropTask id with writes := unassign w.writes name }

/-! ### Held connections -/

def letGo (w : World) (name : String) (close : Bool) : Bool × World :=
  match w.guards.lookup name with
  | none => (false, w)
  | some (i, on) =>
    let w := { w with guards := unassign w.guards name }
    (true, if close then w.discard i on else w.release i on)

/-- Keeps a connection under a name; one that had it goes back. -/
def keep (w : World) (name : String) (i on : Nat) : World :=
  let w := (w.letGo name false).2
  { w with guards := assign w.guards name (i, on) }

/-! ### Targets -/

def addTarget (w : World) (t : Target) : Nat × World :=
  (w.targets.length, { w with targets := w.targets ++ [t] })

def forgetTarget (w : World) (i : Nat) : World :=
  w.modifyTarget i fun t => { t with known := false }

def turnTo (w : World) (i : Nat) : World :=
  let w := match w.current with
    | some old => w.forgetTarget old
    | none => w
  { w with current := some i }

def poolAnswer (w : World) (i : Nat) : Answer :=
  match w.target? i with
  | none => .notOpen
  | some t =>
    match t.database.pool with
    | some p => .pool t.database.config.poolMax t.database.config.poolMin p.closed
    | none => .connectionError .notInitialized

def choreJob (t : Target) : Chore → Job
  | .close => .database { request := .close }
  | .remove =>
    if t.store.isSome then .shutdown { remove := true } else .database { request := .remove }
  | .shutdown => .shutdown { remove := false }

def channelAlive (w : World) (channel : Nat) : Bool :=
  (List.range w.targets.length).any fun i =>
    match w.target? i with
    | some t => t.channel == some channel && w.inUse i t
    | none => false

def receive (w : World) (name : String) : Answer × World :=
  match w.readers.lookup name with
  | none => (.noSubscriber, w)
  | some (channel, stream) =>
    match w.records.channels[channel]? with
    | none => (.noSubscriber, w)
    | some c =>
      let (item, stream) := stream.poll c (w.channelAlive channel)
      let policy := match w.current with
        | some i => w.policyAt i
        | none => w.policyAt (w.targets.length - 1)
      let noted : Received Noted := match item with
        | .event e => .event ((noteEvents policy [e] .zero).headD ⟨e, .zero, true, true⟩)
        | .lagged n => .lagged n
        | .empty => .empty
        | .closed => .closed
      (.received noted, { w with readers := assign w.readers name (channel, stream) })

def subscribe (w : World) (i : Nat) (name : String) (operations : List String) : Answer × World :=
  match w.target? i with
  | none => (.notOpen, w)
  | some t =>
    match t.store, t.channel with
    | none, _ => (.notAStore, w)
    | some _, none => (.flag false, w)
    | some _, some channel =>
      match w.records.channels[channel]? with
      | none => (.flag false, w)
      | some c =>
        (.flag true,
          { w with readers := assign w.readers name (channel, Stream.subscribe c operations) })

/-! ### Opening -/

def databaseTarget (path : String) (config : DatabaseConfig) (policy : RetryPolicy)
    (recorded : Bool) : Target :=
  { database := { path, config }
    policy
    observer := .sink (if recorded then .record recordTag else .log) }

/-- Opens a bare database in place of the current one. -/
def openDatabase (w : World) (path : String) (config : DatabaseConfig) (policy : RetryPolicy)
    (recorded connect : Bool) : Answer × World :=
  let (i, w) := w.addTarget (databaseTarget path config policy recorded)
  let w := (w.turnTo i).reap
  if connect then w.await i (.database { request := .connect }) else (.ok, w)

/-- Opens a database, tells whether it is connected, and closes it again. -/
def openStatic (w : World) (path : String) (config : DatabaseConfig) : Answer × World :=
  let (i, w) := w.addTarget (databaseTarget path config {} true)
  match w.await i (.database { request := .connect }) with
  | (.ok, w) =>
    let connected := (w.target? i).any (·.database.connected)
    let (_, w) := w.await i (.database { request := .close })
    (.opened connected, (w.forgetTarget i).reap)
  | (answer, w) => (answer, (w.forgetTarget i).reap)

def startCheckpoints (w : World) (i : Nat) (config : StoreConfig) : World :=
  match Store.checkpointInterval config with
  | none => w
  | some interval =>
    let c := Checkpointer.start w.now interval config.mode
    let (id, w) := w.addTask i (.checkpoints c) (some c.next)
    w.modifyTarget i fun t =>
      { t with store := t.store.map fun s => { s with checkpointer := some id } }

/-- Opens a store in place of the current one; if that fails the current one stays. -/
def openStore (w : World) (path : String) (config : StoreConfig) (record : Bool)
    (broadcast : Option Nat) : Answer × World :=
  match config.validate with
  | .error e => (.storeError e, w)
  | .ok _ =>
    match w.disk.createParent with
    | .error e => (.storeError (.io e), w)
    | .ok disk =>
      let w := { w with disk }
      let (channel, w) := match broadcast with
        | some capacity =>
          (some w.records.channels.length,
            { w with records :=
              { w.records with channels := w.records.channels ++ [Channel.new capacity] } })
        | none => (none, w)
      let own : Option Observer := if record then some (.sink (.record recordTag)) else none
      let (i, w) := w.addTarget {
        database := { path, config := config.database }
        policy := config.policy
        observer := Store.observer own channel
        store := some { config }
        channel }
      match w.await i (.database { request := .connect }) with
      | (.ok, w) => (.ok, (w.startCheckpoints i config).turnTo i)
      | (.connectionError e, w) => (.storeError (.connection e), (w.forgetTarget i).reap)
      | (answer, w) => (answer, (w.forgetTarget i).reap)

end World

end SingleWriter.Session
