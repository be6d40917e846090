import SingleWriter.Session.Perform

/-! Writes of a session: how each answer to a write comes about, and what a write reports. -/

namespace SingleWriter.Session

namespace World

def fulfil (w : World) (i : Nat) (effects : List Write.Effect) : World :=
  effects.foldl (fun w e =>
    match e with
    | .release c => w.release i c
    | .discard c => w.discard i c
    | .unlock => w.modifyTarget i fun t => { t with lock := t.lock.free }
    | .emit e => w.emit i e) w

def answerWrite (w : World) (t : Target) (i : Nat) (job : Writing)
    (a : Write.Answer (List Answer)) : Writing × World :=
  let (call, effects) :=
    job.call.resume t.policy { elapsed := .ofNanos (w.now - job.started) } a
  ({ job with call }, w.fulfil i effects)

def nextActions (job : Writing) : List Action :=
  (job.order.attempts[job.calls.length]?).getD (job.order.attempts.getLast?.getD [])

def invoke (job : Writing) : Writing :=
  { job with
    left := nextActions job
    atGate := false
    calls := job.call.attempt :: job.calls
    trace := [] :: job.trace }

def note (job : Writing) (r : Except WriteError Answer) : Writing :=
  { job with
    trace := match job.trace with
      | [] => [[r]]
      | first :: rest => (first ++ [r]) :: rest }

def lastAnswers (job : Writing) : List Answer :=
  (job.trace.headD []).filterMap fun r =>
    match r with
    | .ok a => some a
    | .error _ => none

def modifyLock (w : World) (i : Nat) (f : Write.Lock → Write.Lock) : World :=
  w.modifyTarget i fun t => { t with lock := f t.lock }

/-- One look at the lock of a coordinator by a write that wants it. -/
def takeLock (w : World) (id : Nat) (t : Target) (i : Nat) : Bool × World :=
  let line := t.lock.enqueue id
  match line.take? id with
  | some taken => (true, w.modifyLock i fun _ => taken)
  | none => (false, w.modifyLock i fun _ => line)

def pollOperation (w : World) (id : Nat) (t : Target) (i on : Nat) (job : Writing) :
    Bool × Writing × World :=
  match job.left with
  | [] =>
    let (job, w) := w.answerWrite t i job (.value (lastAnswers job))
    (true, job, w)
  | a :: rest =>
    match w.perform id on job.call.attempt job.atGate a with
    | (.waits, w) => (false, { job with atGate := true }, w)
    | (.done r, w) => (true, { note job (.ok r) with left := rest, atGate := false }, w)
    | (.cancels, w) =>
      (true, { note job (.ok .ok) with left := rest, atGate := false, cancelled := true }, w)
    | (.failed e, w) =>
      let (job, w) := w.answerWrite t i { note job (.error e) with left := [], atGate := false }
        (.failed e)
      (true, job, w)

def pollStatement (w : World) (id : Nat) (t : Target) (i on : Nat) (job : Writing)
    (s : Engine.Statement) : Bool × Writing × World :=
  match w.execute id on s with
  | (none, w) => (false, job, w)
  | (some (.ok _), w) =>
    let (job, w) := w.answerWrite t i job .proceed
    (true, job, w)
  | (some (.error e), w) =>
    let (job, w) := w.answerWrite t i job (.failed (.sql e))
    (true, job, w)

def beginKind : DatabaseConfig.BeginMode → Engine.BeginKind
  | .deferred => .deferred
  | .immediate => .immediate

def pollWrite (w : World) (id : Nat) (t : Target) (i : Nat) (job : Writing) :
    Bool × Writing × World :=
  let go (w : World) (job : Writing) (a : Write.Answer (List Answer)) : Bool × Writing × World :=
    let (job, w) := w.answerWrite t i job a
    (true, job, w)
  let stopped := job.order.cancellable && job.cancelled
  match job.call.phase with
  | .checking => go w job (if stopped then .cancelled else .proceed)
  | .locking =>
    match w.takeLock id t i with
    | (true, w) => go w job .proceed
    | (false, w) =>
      if stopped then go (w.modifyLock i (·.leave id)) job .cancelled else (false, job, w)
  | .acquiring =>
    match w.pollCall id i job.access with
    | (none, w) => (false, job, w)
    | (some access, w) =>
      match access.result? with
      | none => (true, { job with access }, w)
      | some r =>
        let job := { job with access := { request := .acquire } }
        match r with
        | .ok (.connection on) => go w job (.acquired on)
        | .ok _ => go w job (.refused .notInitialized)
        | .error e => go w job (.refused e)
  | .beginning on =>
    match w.pollStatement id t i on job (.begin (beginKind t.database.config.beginMode)) with
    | (true, job, w) =>
      match job.call.phase with
      | .operating _ => (true, invoke job, w)
      | _ => (true, job, w)
    | answer => answer
  | .operating on => w.pollOperation id t i on job
  | .committing on _ => w.pollStatement id t i on job .commit
  | .rollingBack on _ => w.pollStatement id t i on job .rollback
  | .backingOff delay =>
    let (deadline, w) := w.deadlineOf id delay
    if stopped then go (w.clearDeadline id) job .cancelled
    else if deadline ≤ w.now then go (w.clearDeadline id) job .proceed
    else (false, job, w)
  | .finished _ => (false, job, w)

def recordTag : String := "session"

/-- Events with what the policy says of their delays. -/
def noteEvents (p : RetryPolicy) : List Event → Duration → List Noted
  | [], _ => []
  | e :: es, slept =>
    let plain : Noted := ⟨e, .zero, true, true⟩
    match e with
    | .retrying _ attempt _ delay _ =>
      ⟨e, p.baseBackoff attempt,
        decide (p.baseBackoff attempt ≤ delay ∧
          delay ≤ p.backoffDelay attempt (.finite false (Binary64.ofNat 1))), true⟩
        :: noteEvents p es (slept + delay)
    | .recovered _ _ elapsed =>
      { plain with sleptLongEnough := decide (slept ≤ elapsed) } :: noteEvents p es slept
    | _ => plain :: noteEvents p es slept

def policyAt (w : World) (i : Nat) : RetryPolicy :=
  match w.target? i with
  | some t => t.policy
  | none => {}

/-- The answer of a write with the events recorded so far. -/
def report (w : World) (i : Nat) (job : Writing) : Answer :=
  .written (.report job.call.result? job.calls.reverse job.trace.reverse
    (noteEvents (w.policyAt i) (w.records.tagged recordTag) .zero) (some w.records.logs))

/-- Drops a write: it leaves all lines, gives up its place, and gives up what it holds. -/
def abandon (w : World) (task : Task) (job : Writing) : World :=
  let i := task.target
  match w.target? i with
  | none => w
  | some t =>
    let w := ((w.modifyLock i (·.leave task.id)).modifyPool i (·.withdraw task.id))
    let w := match job.access.phase with
      | .building => w.modifyDatabase i fun db => { db with building := false }
      | _ => w
    match job.call.phase with
    | .beginning on =>
      let (_, w) := w.addTask i (.linger on) task.deadline
      w.fulfil i ((job.call.abandon t.policy).filter fun e => e != .release on)
    | _ => w.fulfil i (job.call.abandon t.policy)

end World

end SingleWriter.Session
