import SingleWriter.Session.Wait

/-! Actions, and the other connections that a session opens beside the pool's. -/

namespace SingleWriter.Session

namespace World

/-! ### Other connections -/

/-- Runs statements on a connection without patience, up to the first that fails. -/
def runAll (d : Engine.Disk) (on : Nat) : List Engine.Statement →
    Except SqlError Engine.Reply × Engine.Disk
  | [] => (.ok .done, d)
  | s :: rest =>
    match d.execute on false s with
    | (.reply r, d) => if rest.isEmpty then (.ok r, d) else runAll d on rest
    | (.failed e, d) => (.error e, d)
    | (.busy, d) => (.error .locked, d)

/-- Runs statements on a connection of their own, which is closed afterwards. -/
def outside (w : World) (statements : List Engine.Statement) :
    Except SqlError Engine.Reply × World :=
  match w.disk.openPlain with
  | .error e => (.error e, w)
  | .ok (on, disk) =>
    let (result, disk) := runAll disk on statements
    (result, { w with disk := disk.close on })

def holding : Hold → List Engine.Statement
  | .write => [.begin .immediate]
  | .exclusive => [.begin .exclusive]
  | .read => [.begin .deferred, .glance]

/-- Opens a connection that holds something until it is let go. -/
def block (w : World) (name : String) (how : Hold) : Answer × World :=
  match w.disk.openPlain with
  | .error e => (.refused e, w)
  | .ok (on, disk) =>
    match runAll disk on (holding how) with
    | (.error e, disk) => (.refused e, { w with disk := disk.close on })
    | (.ok _, disk) =>
      let disk := match w.blockers.lookup name with
        | some old => disk.close old
        | none => disk
      (.ok, { w with disk, blockers := assign w.blockers name on })

def unblock (w : World) (name : String) : Answer × World :=
  match w.blockers.lookup name with
  | some on => (.ok, { w with disk := w.disk.close on, blockers := unassign w.blockers name })
  | none => (.noBlocker, w)

def outsideInsert (w : World) (key value : String) : Answer × World :=
  match w.outside [.change (.insert key (some value))] with
  | (.ok _, w) => (.ok, w)
  | (.error e, w) => (.refused e, w)

def rows (w : World) : Answer × World :=
  match w.disk.look .main with
  | .absent => (.noFile, w)
  | _ =>
    match w.outside [.survey] with
    | (.ok r, w) => (.reply r, w)
    | (.error e, w) => (.refused e, w)

/-! ### Gates -/

def gate (w : World) (name : String) : Gate := (w.gates.lookup name).getD {}

def setGate (w : World) (name : String) (g : Gate) : World :=
  { w with gates := assign w.gates name g }

def arrive (w : World) (name : String) : World :=
  let g := w.gate name
  w.setGate name { g with arrivals := g.arrivals + 1 }

def openGate (w : World) (name : String) : World :=
  let g := w.gate name
  w.setGate name { g with passes := g.passes + 1 }

def pass? (w : World) (name : String) : Option World :=
  let g := w.gate name
  if g.passes = 0 then none else some (w.setGate name { g with passes := g.passes - 1 })

/-- Takes note of someone who has come to a gate. -/
def reach? (w : World) (name : String) : Option World :=
  let g := w.gate name
  if g.arrivals = 0 then none else some (w.setGate name { g with arrivals := g.arrivals - 1 })

/-! ### Actions -/

/-- How one look at an action ends: it is done, it has failed, it cancels the token, or it waits. -/
inductive Performed where
  | done (a : Answer)
  | failed (e : WriteError)
  | cancels
  | waits

def performStatement (w : World) (id on : Nat) (s : Engine.Statement) : Performed × World :=
  match w.execute id on s with
  | (none, w) => (.waits, w)
  | (some (.ok r), w) => (.done (.reply r), w)
  | (some (.error e), w) => (.failed (.sql e), w)

/-- One look at an action; `attempt` is the number of the attempt and `atGate` says that the action
has come to its gate already. -/
def perform (w : World) (id on attempt : Nat) (atGate : Bool) (a : Action) : Performed × World :=
  let answered : Answer × World → Performed × World := fun (a, w) => (.done a, w)
  match a with
  | .statement s => w.performStatement id on s
  | .insertAttempt =>
    w.performStatement id on (.change (.insert ("attempt-" ++ toString attempt) (some "x")))
  | .attempt => (.done (.number attempt), w)
  | .value v => (.done (.value v), w)
  | .fail e => (.failed e, w)
  | .cancel => (.cancels, w)
  | .block name how => answered (w.block name how)
  | .unblock name => answered (w.unblock name)
  | .outsideInsert key value => answered (w.outsideInsert key value)
  | .wait name =>
    let w := if atGate then w else w.arrive name
    match w.pass? name with
    | some w => (.done .ok, w)
    | none => (.waits, w)

end World

end SingleWriter.Session
