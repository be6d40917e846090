import SingleWriter.Session.Open

/-! Sessions: steps on one database, each with its answer.  Time goes by only in steps that wait. -/

namespace SingleWriter

open Session in
structure Session where
  subject : Subject
  path : String
  world : World

namespace Session

open World

/-- The start of a session: a bare database has a handle from the start, a store does not. -/
def start (subject : Subject) (path : String) (disk : Engine.Disk) : Session :=
  let w : World := { disk }
  match subject with
  | .database config policy recorded =>
    let (i, w) := w.addTarget (databaseTarget path config policy recorded)
    ⟨subject, path, { w with current := some i }⟩
  | .store _ => ⟨subject, path, w⟩

def replying (s : Session) (answer : Answer × World) : Answer × Session :=
  (answer.1, { s with world := answer.2 })

/-- The logs of a write's answer, which only a bare database without a recorder has; without the
times, which vary. -/
def logsOf (s : Session) (logs : Option (List LogEntry)) : Option (List LogEntry) :=
  match s.subject with
  | .database _ _ false =>
    logs.map fun entries => entries.map fun l =>
      { l with fields := l.fields.filter fun (k, _) => k != "delay_ms" && k != "elapsed_ms" }
  | _ => none

/-- The answer of a write; `full` says that it tells of the log. -/
def finishReport (s : Session) (full : Bool) : Answer → Answer
  | .written (.report result calls trace events logs) =>
    .written (.report result calls trace events (if full then s.logsOf logs else none))
  | a => a

/-- Carries out a step that needs nothing open; gives nothing for any other. -/
def runFree (s : Session) : Step → Option (Answer × Session)
  | .files =>
    let d := s.world.disk
    some (.files (d.look .main) (d.look .wal) (d.look .shm), s)
  | .rows => some (s.replying s.world.rows)
  | .block name how => some (s.replying (s.world.block name how))
  | .unblock name => some (s.replying (s.world.unblock name))
  | .outsideInsert key value => some (s.replying (s.world.outsideInsert key value))
  | .sleep d => some (.ok, { s with world := s.world.sleepFor d })
  | .release name =>
    let (was, w) := s.world.letGo name false
    some (.flag was, { s with world := w })
  | .discard name =>
    let (was, w) := s.world.letGo name true
    some (.flag was, { s with world := w })
  | .reached gate => some (s.replying (s.world.await 0 (.reach gate)))
  | .openGate gate => some (.ok, { s with world := s.world.openGate gate })
  | .receive name => some (s.replying (s.world.receive name))
  | .dropReader name =>
    let w := s.world
    some (.flag (w.readers.lookup name).isSome,
      { s with world := { w with readers := unassign w.readers name } })
  | .dropTarget =>
    match s.world.current with
    | none => some (.flag false, s)
    | some i =>
      let w := { s.world.forgetTarget i with current := none }
      some (.flag true, { s with world := w })
  | .openDatabase o =>
    match s.subject with
    | .database config policy recorded =>
      let config := o.config.getD config
      some (s.replying (s.world.openDatabase s.path config policy recorded o.connect))
    | .store _ => none
  | .openStatic config =>
    match s.subject with
    | .database own _ _ => some (s.replying (s.world.openStatic s.path (config.getD own)))
    | .store _ => none
  | .openStore o =>
    match s.subject with
    | .database .. => none
    | .store config =>
      let wanted : Except StoreError StoreConfig := match o.config with
        | none => .ok config
        | some text => (StoreConfig.load text).map fun c => { c with path := config.path }
      match wanted with
      | .error e => some (.storeError e, s)
      | .ok config =>
        let s := { s with subject := .store config }
        let config := if o.emptyPath then { config with path := "" } else config
        some (s.replying (s.world.openStore s.path config o.record o.broadcast))
  | .backgroundDone name d =>
    match (s.world.chores.lookup name) with
    | none => some (.noTask, s)
    | some id =>
      match s.world.awaitTask id (some (s.world.after d)) with
      | (.running, w) => some (.running, { s with world := w })
      | (_, w) =>
        let answer := match (w.task? id).map (·.job) with
          | some (.finished a) => a
          | _ => .stuck
        some (answer, { s with world := { w.dropTask id with chores := unassign w.chores name } })
  | .running name d =>
    match s.world.findWrite name with
    | none => some (.noTask, s)
    | some _ =>
      let w := s.world.sleepFor d
      match w.findWrite name with
      | some (_, job) =>
        some (.progress job.call.result?.isSome job.calls.reverse, { s with world := w })
      | none => some (.noTask, { s with world := w })
  | .cancel name =>
    match s.world.findWrite name with
    | none => some (.noTask, s)
    | some (task, job) =>
      let w := s.world.putTask { task with job := .write { job with cancelled := true } }
      some (.ok, { s with world := w })
  | .join name =>
    match s.world.findWrite name with
    | none => some (.noTask, s)
    | some (task, _) =>
      let (_, w) := s.world.awaitTask task.id none
      let answer := match w.findWrite name with
        | some (_, job) => s.finishReport false (w.report task.target job)
        | none => .stuck
      some (answer, { s with world := (w.forgetWrite name task.id).clearRecords })
  | .abort name =>
    match s.world.findWrite name with
    | none => some (.noTask, s)
    | some (task, job) =>
      let w := (s.world.abandon task job).forgetWrite name task.id
      let answer := match w.report task.target job with
        | .written (.report _ calls trace events logs) =>
          s.finishReport false (.written (.report none calls trace events logs))
        | a => a
      some (answer, { s with world := w.clearRecords })
  | _ => none

/-- Carries out a step on the open target `i`. -/
def runOpen (s : Session) (i : Nat) (t : Target) : Step → Answer × Session
  | .setup => s.replying (s.world.await i (.setup { request := .acquire }))
  | .connect =>
    match s.world.await i (.database { request := .connect }) with
    | (.ok, w) => (w.poolAnswer i, { s with world := w })
    | (answer, w) => (answer, { s with world := w })
  | .pool =>
    match t.database.openPool with
    | .ok _ => (s.world.poolAnswer i, s)
    | .error e => (.connectionError e, s)
  | .status =>
    (.status {
      connected := t.database.connected
      closed := t.database.closed
      begins := t.database.config.beginMode
      strategy := t.policy.strategy
      maxAttempts := t.policy.maxAttempts }, s)
  | .acquire name =>
    match s.world.await i (.database { request := .acquire }) with
    | (.number on, w) => (.ok, { s with world := w.keep name i on })
    | (answer, w) => (answer, { s with world := w })
  | .guard name actions =>
    match s.world.guards.lookup name with
    | none => (.noGuard, s)
    | some (target, on) => s.replying (s.world.await target (.guard on actions false []))
  | .checkpoint mode => s.replying (s.world.await i (.database (Store.checkpoint mode)))
  | .close => s.replying (s.world.await i (choreJob t .close))
  | .remove => s.replying (s.world.await i (choreJob t .remove))
  | .shutdown => s.replying (s.world.await i (choreJob t .shutdown))
  | .background name what =>
    let (id, w) := s.world.addTask i (choreJob t what) none
    (.ok, { s with world := { w with chores := assign w.chores name id } })
  | .write order =>
    let w := s.world.clearRecords
    let (answer, w) := w.await i (w.startWriting order)
    (s.finishReport true answer, { s with world := w.clearRecords })
  | .spawn name order =>
    let (id, w) := s.world.addTask i (s.world.startWriting order) none
    (.ok, { s with world := { w with writes := assign w.writes name id } })
  | .subscribe name operations => s.replying (s.world.subscribe i name operations)
  | .settings =>
    match t.store, s.subject with
    | some part, .store config => (.settings (part.config == config) part.config.mode, s)
    | _, _ => (.notAStore, s)
  | .waitLogEmpty d =>
    let time := s.world.after d
    s.replying (s.world.await i (.watch time s.world.now) (some s.world.now))
  | _ => (.notOpen, s)

/-- Carries out one step; afterwards all tasks go on as far as they get without the clock. -/
def run (s : Session) (step : Step) : Answer × Session :=
  let (answer, s) := match s.runFree step with
    | some done => done
    | none =>
      match s.world.current with
      | none => (.notOpen, s)
      | some i =>
        match s.world.target? i with
        | some t => s.runOpen i t step
        | none => (.notOpen, s)
  (answer, { s with world := s.world.settle stepFuel })

def runAll (s : Session) : List Step → List Answer
  | [] => []
  | step :: steps =>
    let (answer, s) := s.run step
    answer :: s.runAll steps

end Session

end SingleWriter
