import SingleWriter.Proofs.SerialOrder

/-! Writes that may be dropped before their end.  A crowd is a scene with the connections that its
dropped calls have left behind.  Such a connection may still carry out the statement that it was
given last, whenever it likes; only then is it given back or closed.  `Abandons` says what the drop
of a call does. -/

namespace SingleWriter.Write

/-- A statement that a connection was given by a call. -/
inductive Handed (Q : Type) where
  | begins
  | asks (q : Q)
  | commit
  | rollback

/-- A connection whose call was dropped: the statement that it may still carry out, and whether it
is closed afterwards or given back. -/
structure Stray (Q : Type) where
  handed : Option (Handed Q)
  discards : Bool

/-- What is done with a stray connection in the end. -/
def Stray.fate {Q : Type} (x : Stray Q) (c : ConnectionId) : Effect :=
  if x.discards then .discard c else .release c

/-- The end of a statement that nobody waits for; the flag says whether it has worked. -/
inductive Backend.Carries {K Q R : Type} (b : Backend K Q R) (s : b.State) (c : ConnectionId) :
    Handed Q → Bool → b.State → Prop
  | begins {r : Except SqlError Unit} {s' : b.State} : b.begins s c r s' →
      Carries b s c .begins r.isOk s'
  | asks {q : Q} {r : Except SqlError R} {s' : b.State} : b.asks s c q r s' →
      Carries b s c (.asks q) r.isOk s'
  | commit {r : Except SqlError Unit} {s' : b.State} : b.commit s c r s' →
      Carries b s c .commit r.isOk s'
  | rollback {r : Except SqlError Unit} {s' : b.State} : b.rollback s c r s' →
      Carries b s c .rollback r.isOk s'

/-- The writes of one coordinator, some of which were dropped. -/
structure Crowd {K Q R : Type} (b : Backend K Q R) (α : Type) extends Scene b α where
  dropped : Nat → Bool := fun _ => false
  /-- The connections that dropped calls have left behind. -/
  strays : ConnectionId → Option (Stray Q) := fun _ => none

/-- What is left of a call that was dropped: it waits for nothing, and nobody gets its result. -/
def Call.over {α : Type} (c : Call α) : Call α :=
  { c with phase := .finished (.error (.cancelled c.operation (c.attempt - 1))) }

namespace Crowd

variable {K Q R α : Type} {b : Backend K Q R} (w : Workload Q R α) (s : Crowd b α)

/-- A crowd before the first step: nobody has the lock, and no call was dropped. -/
structure Initial : Prop extends s.toScene.Initial w where
  lock : s.lock.holder = none
  present : ∀ i, s.dropped i = false
  strays : ∀ c, s.strays c = none

/-! ### Steps -/

/-- The statement that the connection of call `i` was given last, if it may be under way. -/
def handed? (i : Nat) : Option (Handed Q) :=
  match (s.calls i).phase, s.left i with
  | .beginning _, _ => some .begins
  | .operating _, some (.ask q _) => some (.asks q)
  | .committing _ _, _ => some .commit
  | .rollingBack _ _, _ => some .rollback
  | _, _ => none

/-- Carries out an effect of a call that is dropped.  One that frees a connection has to wait for
the statement that the connection was given last. -/
def forgo (handed : Option (Handed Q)) (s : Crowd b α) (e : Effect) : Crowd b α :=
  match e with
  | .release c => { s with strays := Function.update s.strays c (some ⟨handed, false⟩) }
  | .discard c => { s with strays := Function.update s.strays c (some ⟨handed, true⟩) }
  | .unlock => { s with lock := s.lock.free }
  | .emit _ => s

/-- The drop of call `i`: it leaves all lines, gives up its place, and gives up what it holds. -/
def abandon (i : Nat) : Crowd b α :=
  ((s.calls i).abandon w.policy).foldl (forgo (s.handed? i))
    { s with
      calls := Function.update s.calls i (s.calls i).over
      left := Function.update s.left i none
      lock := s.lock.leave i
      pool := s.pool.withdraw i
      dropped := Function.update s.dropped i true }

/-- The end of a stray connection: what was to be done with it is done. -/
def settle (keep : Bool) (c : ConnectionId) (x : Stray Q) : Crowd b α :=
  { s with
    toScene := s.fulfil keep (x.fate c)
    strays := Function.update s.strays c none }

/-- One step of a run with drops. -/
inductive Label (Q α : Type) where
  | scene (l : Write.Label α)
  | dropped (i : Nat)
  /-- A stray connection comes to the end of its last statement. -/
  | late (c : ConnectionId) (h : Handed Q) (ok : Bool)
  | settled (c : ConnectionId)

/-- One step of a crowd. -/
inductive Step (s : Crowd b α) : Label Q α → Crowd b α → Prop
  | scene {l : Write.Label α} {t : Scene b α} : s.toScene.Step w l t →
      Step s (.scene l) { s with toScene := t }
  | drop {i : Nat} : (∀ r, (s.calls i).phase ≠ .finished r) → Step s (.dropped i) (s.abandon w i)
  | late {c : ConnectionId} {h : Handed Q} {discards ok : Bool} {state : b.State} :
      s.strays c = some ⟨some h, discards⟩ → b.Carries s.state c h ok state →
      Step s (.late c h ok)
        { s with
          state
          strays := Function.update s.strays c (some ⟨none, discards⟩) }
  | settle {c : ConnectionId} {x : Stray Q} (keep : Bool) : s.strays c = some x →
      Step s (.settled c) (s.settle keep c x)

/-- A run from one crowd to another. -/
inductive Run (s : Crowd b α) : List (Label Q α) → Crowd b α → Prop
  | start : Run s [] s
  | step {ls : List (Label Q α)} {l : Label Q α} {m s' : Crowd b α} : Run s ls m → m.Step w l s' →
      Run s (ls ++ [l]) s'

/-! ### What a drop does -/

/-- Whether the connection of call `i` is to be closed when the call is dropped. -/
def discards (i : Nat) : Bool :=
  match (s.calls i).phase with
  | .beginning _ => false
  | _ => true

/-- The drop of call `i`: the call is over, the lock is free if it was the call's, and a connection
that the call held is astray. -/
structure Abandons (s : Crowd b α) (i : Nat) (s' : Crowd b α) : Prop where
  becomes : s.toScene.Becomes i (s.calls i).over s.state (s.pool.withdraw i) s.next s'.toScene
  dropped : s'.dropped = Function.update s.dropped i true
  holder : s'.lock.holder =
    if (s.calls i).holdsLock w.policy then none else s.lock.holder
  strays : s'.strays = match (s.calls i).connection? with
    | some on => Function.update s.strays on (some ⟨s.handed? i, s.discards i⟩)
    | none => s.strays

variable {w s}

theorem abandons (i : Nat) : s.Abandons w i (s.abandon w i) := by
  unfold abandon Call.abandon Call.unlocking
  cases hp : (s.calls i).phase <;> cases hs : w.policy.strategy <;>
    exact ⟨⟨rfl, rfl, rfl, rfl, rfl, rfl⟩, rfl,
      by simp [Call.holdsLock, Call.attempting, Call.connection?, forgo, Lock.leave, Lock.free,
        hp, hs],
      by simp [Call.connection?, forgo, handed?, discards, hp]⟩

/-! ### Writes to a ledger -/

def empty : Crowd Ledger.backend Nat := { Scene.empty with }

theorem empty_initial (p : RetryPolicy) : empty.Initial { Scene.insertions with policy := p } :=
  ⟨⟨fun _ => rfl, fun _ => rfl, .nil, by simp [empty, Scene.empty],
    by simp [empty, Scene.empty]⟩, rfl, fun _ => rfl, fun _ => rfl⟩

end Crowd

end SingleWriter.Write
