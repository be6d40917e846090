import SingleWriter.Session.Writing

/-! Tasks: what each one does when it is looked at, and how far a world gets without the clock. -/

namespace SingleWriter.Session

namespace World

/-! ### Jobs -/

def answerOf (store : Bool) (r : Except ConnectionError Database.Product) : Answer :=
  match r with
  | .ok (.report r) => .checkpoint r
  | .ok _ => .ok
  | .error e => if store then .storeError (.connection e) else .connectionError e

def isFinished (w : World) (id : Nat) : Bool :=
  match w.task? id with
  | none => true
  | some t =>
    match t.job with
    | .finished _ => true
    | .write job => job.call.result?.isSome
    | _ => false

def shutdownJob (s : Shutdown) : Job :=
  match s.result? with
  | none => .shutdown s
  | some (.ok _) => .finished .ok
  | some (.error e) => .finished (.storeError e)

def pollShutdown (w : World) (id : Nat) (t : Target) (i : Nat) (s : Shutdown) :
    Option Job × World :=
  let goOn (c : Database.Call) : Option Job × World :=
    match w.pollCall id i c with
    | (none, w) => (none, w)
    | (some c, w) => (some (shutdownJob (s.advance c)), w)
  match s.phase with
  | .entering =>
    match t.store with
    | none => (some (.finished .notAStore), w)
    | some store =>
      let (s, store) := s.enter store
      (some (.shutdown s), w.modifyTarget i fun t => { t with store := some store })
  | .joining task => if w.isFinished task then (some (.shutdown s.close), w) else (none, w)
  | .closing c => goOn c
  | .removing c => goOn c
  | .finished _ => (none, w)

/-- What periodic checkpoints go on with; the clock wakes them when the next one is due. -/
def keepCheckpoints (w : World) (id : Nat) (c : Checkpointer) : Option Job × World :=
  match c.phase with
  | .stopped => (some (.finished .ok), w.clearDeadline id)
  | .checkpointing _ => (some (.checkpoints c), w)
  | .waiting => (some (.checkpoints c), w.setDeadline id c.next)

def pollCheckpoints (w : World) (id : Nat) (t : Target) (i : Nat) (c : Checkpointer) :
    Option Job × World :=
  match c.phase with
  | .checkpointing call =>
    match w.pollCall id i call with
    | (none, w) => (none, w)
    | (some call, w) => w.keepCheckpoints id (c.advance call)
  | _ =>
    match c.wake w.now (!t.known || t.store.any (·.stopping)) with
    | some c => (w.clearDeadline id).keepCheckpoints id c
    | none => (none, w)

def pollGuard (w : World) (id on : Nat) (left : List Action) (atGate : Bool)
    (done : List Answer) : Option Job × World :=
  match left with
  | [] => (some (.finished (.list done)), w)
  | a :: rest =>
    match w.perform id on 0 atGate a with
    | (.waits, w) => (if atGate then none else some (.guard on left true done), w)
    | (.done r, w) => (some (.guard on rest false (done ++ [r])), w)
    | (.cancels, w) => (some (.guard on rest false (done ++ [.ok])), w)
    | (.failed e, w) => (some (.guard on rest false (done ++ [.writeError e])), w)

/-- One look at a job that has to do with the clock, a gate or another task only. -/
def pollClock (w : World) (task : Task) : Job → Option Job × World
  | .sleep time =>
    if time ≤ w.now then (some (.finished .ok), w.clearDeadline task.id) else (none, w)
  | .watch time next =>
    if next ≤ w.now then
      if w.disk.look .wal = .empty then (some (.finished (.flag true)), w.clearDeadline task.id)
      else if time ≤ w.now then (some (.finished (.flag false)), w.clearDeadline task.id)
      else
        let next := w.now + 5000000
        (some (.watch time next), w.putTask { task with deadline := some next })
    else (none, w)
  | .join other time =>
    if w.isFinished other then (some (.finished .ok), w.clearDeadline task.id)
    else
      match time with
      | some time =>
        if time ≤ w.now then (some (.finished .running), w.clearDeadline task.id) else (none, w)
      | none => (none, w)
  | .reach name =>
    match w.reach? name with
    | some w => (some (.finished (.flag true)), w)
    | none => (none, w)
  | _ => (none, w)

def pollWork (w : World) (id i : Nat) (t : Target) : Job → Option Job × World
  | .write job =>
    let (moved, job', w) := w.pollWrite id t i job
    (if moved || job'.atGate != job.atGate then some (.write job') else none, w)
  | .database c =>
    match w.pollCall id i c with
    | (none, w) => (none, w)
    | (some c, w) =>
      match c.result?, c.request with
      | none, _ => (some (.database c), w)
      | some r, .checkpoint _ => (some (.finished (answerOf t.store.isSome r)), w)
      | some (.ok (.connection on)), _ => (some (.finished (.number on)), w)
      | some r, _ => (some (.finished (answerOf false r)), w)
  | .setup c =>
    match w.pollCall id i c with
    | (none, w) => (none, w)
    | (some c, w) =>
      match c.result? with
      | none => (some (.setup c), w)
      | some (.ok (.connection on)) => (some (.creating on), w)
      | some r => (some (.finished (answerOf false r)), w)
  | .creating on =>
    match w.execute id on .createTables with
    | (none, w) => (none, w)
    | (some (.ok _), w) => (some (.finished .ok), w.release i on)
    | (some (.error e), w) => (some (.finished (.connectionError (.sql e))), w.release i on)
  | .guard on left atGate done => w.pollGuard id on left atGate done
  | .shutdown s => w.pollShutdown id t i s
  | .checkpoints c => w.pollCheckpoints id t i c
  | .linger on =>
    match w.execute id on (.begin (beginKind t.database.config.beginMode)) with
    | (none, w) => (none, w)
    | (some _, w) => (some (.finished .ok), w.release i on)
  | _ => (none, w)

/-- One look at a task; gives what it goes on with, if it went on. -/
def pollJob (w : World) (task : Task) : Option Job × World :=
  match w.pollClock task task.job with
  | (some job, w) => (some job, w)
  | (none, w) =>
    match w.target? task.target with
    | some t => w.pollWork task.id task.target t task.job
    | none => (none, w)

/-- One look at a task by its number; says whether it went on. -/
def pollTask (w : World) (id : Nat) : Bool × World :=
  match w.task? id with
  | none => (false, w)
  | some task =>
    match w.pollJob task with
    | (none, w) => (false, w)
    | (some job, w) =>
      match w.task? id with
      | some task => (true, w.putTask { task with job })
      | none => (true, w)

/-- Whether anything still uses a target: the session, a task or a held connection. -/
def inUse (w : World) (i : Nat) (t : Target) : Bool :=
  t.known || w.guards.any (fun (_, target, _) => target == i)
    || w.tasks.any fun task =>
      task.target == i &&
        match task.job with
        | .finished _ => false
        | _ => true

/-- Closes the connections at rest of targets that nothing uses any more. -/
def reap (w : World) : World :=
  (List.range w.targets.length).foldl (fun w i =>
    match w.target? i with
    | some t =>
      if t.database.pool.any (fun p => !p.closed) && !w.inUse i t then w.closePool i else w
    | none => w) w

def pollAll (w : World) : Bool × World :=
  (w.tasks.map (·.id)).foldl (fun (moved, w) id =>
    let (went, w) := w.pollTask id
    (moved || went, w)) (false, w)

/-- Lets all tasks go on until every one of them waits. -/
def settle (w : World) : Nat → World
  | 0 => w
  | fuel + 1 =>
    match w.pollAll with
    | (true, w) => w.settle fuel
    | (false, w) => w.reap

def nextTime (w : World) : Option Nat :=
  ((w.tasks.filterMap (·.deadline)).filter (w.now < ·)).min?

/-- Lets tasks go on, and the clock when all of them wait, until one of them has ended. -/
def runUntil (w : World) (id : Nat) : Nat → World
  | 0 => w
  | fuel + 1 =>
    let w := w.settle fuel
    if w.isFinished id then w
    else
      match w.nextTime with
      | none => w
      | some time => runUntil { w with now := time } id fuel

end World

end SingleWriter.Session
