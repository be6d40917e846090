import SingleWriter.Proofs.Solo
import SingleWriter.Proofs.Upkeep
import SingleWriter.Store

/-! The stores that are opened on one path, one after the other.  Whatever is asked of a store comes
to its end before the next thing is asked, of this store or another one.  A store that was shut down
may still be asked, and a removal deletes the file at the path whichever store it is asked of.

A removal through an old store may come while a new one is open on the same file.  It is read as
taking the name from the file: the path is free, and the open store goes on in the file that it has.
That a connection which its pool opens after that would look for the path again, and not find the
file there, is left out.  The next opening creates a file of its own, and since it waits until all
stores are closed, no two files are in use at once. -/

namespace SingleWriter

open Write (ConnectionId Transcript)

/-- A store with the handle, the lock and the periodic checkpoints that it owns, and the number of
the file that it was opened on. -/
structure Tenant where
  store : Store
  handle : Database
  lock : Write.Lock := {}
  periodic : Option Checkpointer := none
  file : Nat

/-- The store of a handle that has just been connected.  Its periodic checkpoints, if it has any,
are task 0. -/
def Tenant.opened (config : StoreConfig) (now : Nat) (handle : Database) (file : Nat) : Tenant :=
  let periodic := (Store.checkpointInterval config).map (Checkpointer.start now · config.mode)
  { store := { config, checkpointer := periodic.map fun _ => 0 }, handle, periodic, file }

/-- The call on the handle that a shutdown has under way. -/
def Shutdown.call? (d : Shutdown) : Option Database.Call :=
  match d.phase with
  | .closing c => some c
  | .removing c => some c
  | _ => none

/-- What a write is told when its call on the handle has come to an end. -/
def Write.Answer.ofAccess {α : Type} : Except ConnectionError Database.Product → Write.Answer α
  | .ok (.connection on) => .acquired on
  | .ok _ => .refused .notInitialized
  | .error e => .refused e

/-- A write that asks the handle for a connection may get this answer, whatever is in the pool. -/
def Database.Offers {α : Type} (db : Database) (a : Write.Answer α) : Prop :=
  ∃ (s s' : Database.Traffic) (i : Nat) (as : List Database.Answer)
    (r : Except ConnectionError Database.Product), db.Alike s.handle ∧
      s.calls i = { request := .acquire } ∧ s.Ends i as r s' ∧ a = .ofAccess r

/-- A path with all files that have been at it, and the stores that were opened on it, oldest
first. -/
structure Site {K Q R : Type} (e : Storage K Q R) where
  path : String
  files : Nat → e.State
  /-- The number of the next file. -/
  count : Nat := 0
  /-- The file at the path. -/
  file? : Option Nat := none
  tenants : List Tenant := []
  /-- The number of the next connection. -/
  next : ConnectionId := 0

/-- Something that was asked of a store, or for one, and what came of it. -/
inductive Operation (Q R α : Type) where
  /-- A new store; the file was created if there was none. -/
  | opened (created : Bool)
  | unopened (created : Bool) (e : StoreError)
  /-- A write, with its run and the statements that its last attempt has asked. -/
  | wrote (k : Nat) (w : Write.Workload Q R α) (ls : List (Write.Label α))
      (r : Except WriteError α) (work : Transcript Q R)
  | checkpointed (k : Nat) (mode : String) (r : Except StoreError Database.Product)
  /-- A periodic checkpoint. -/
  | ticked (k : Nat)
  | shutDown (k : Nat) (remove : Bool) (r : Except StoreError Unit)

namespace Site

variable {K Q R α : Type} {e : Storage K Q R}

/-- A site before the first store is opened. -/
structure Initial (s : Site e) : Prop where
  file? : s.file? = none
  tenants : s.tenants = []

/-! ### Steps -/

section

variable (s : Site e)

/-- The file that an opening finds at the path or creates there. -/
inductive Finds (s : Site e) : Bool → Nat → e.State → Prop
  | there {f : Nat} : s.file? = some f → Finds s false f (s.files f)
  | created {σ : e.State} : s.file? = none → e.created σ → Finds s true s.count σ

/-- An opening has found or created file `f` and left it as `σ`. -/
def found (created : Bool) (f : Nat) (σ : e.State) (next : ConnectionId) : Site e :=
  { s with
    files := Function.update s.files f σ
    count := s.count + created.toNat
    file? := some f
    next }

/-- Store `k` has become `t` and left its file as `σ`. -/
def leave (k : Nat) (t : Tenant) (σ : e.State) (next : ConnectionId) : Site e :=
  { s with files := Function.update s.files t.file σ, tenants := s.tenants.set k t, next }

/-- A write on a store begins; nobody else writes. -/
def scene (t : Tenant) (p : Pool) (w : Write.Workload Q R α) : Write.Scene e.toBackend α where
  state := s.files t.file
  pool := p
  next := s.next
  lock := t.lock
  calls := fun i => { operation := w.name i }

/-- What a call makes of the file at the path.  A removal that fails may have deleted it. -/
inductive Unlinks (f? : Option Nat) (as : List Database.Answer) : Option Nat → Prop
  | kept : (∀ r, .unlinked r ∉ as) → Unlinks f? as f?
  | gone {r : Except IoError Unit} : .unlinked r ∈ as → Unlinks f? as none
  | failed {x : IoError} : .unlinked (.error x) ∈ as → Unlinks f? as f?

/-- A shutdown of store `k` goes on to its end. -/
inductive Winds (k : Nat) : Site e → Shutdown → Except StoreError Unit → Site e → Prop
  | finished {s : Site e} {d : Shutdown} {r : Except StoreError Unit} : d.result? = some r →
      Winds k s d r s
  | entered {s s' : Site e} {d : Shutdown} {t : Tenant} {r : Except StoreError Unit} :
      d.phase = .entering → s.tenants[k]? = some t →
      Winds k (s.leave k { t with store := (d.enter t.store).2 } (s.files t.file) s.next)
        (d.enter t.store).1 r s' → Winds k s d r s'
  | joined {s s' : Site e} {d : Shutdown} {t : Tenant} {c c' : Checkpointer} {task now : Nat}
      {r : Except StoreError Unit} : d.phase = .joining task → s.tenants[k]? = some t →
      t.periodic = some c → c.wake now t.store.stopping = some c' → c'.isStopped = true →
      Winds k (s.leave k { t with periodic := some c' } (s.files t.file) s.next) d.close r s' →
      Winds k s d r s'
  | called {s s' : Site e} {d : Shutdown} {t : Tenant} {c : Database.Call} {u : Database.Traffic}
      {as : List Database.Answer} {a : Except ConnectionError Database.Product} {σ : e.State}
      {f? : Option Nat} {r : Except StoreError Unit} : d.call? = some c →
      s.tenants[k]? = some t →
      Database.Tends e (.alone t.handle s.next c.request) (s.files t.file) as a u σ →
      Unlinks s.file? as f? →
      Winds k { s.leave k { t with handle := u.handle } σ u.next with file? := f? }
        (d.advance (u.calls 0)) r s' → Winds k s d r s'

/-- One operation comes to its end.  A new store is opened only when all others are closed. -/
inductive Step (s : Site e) : Operation Q R α → Site e → Prop
  | opened {created : Bool} {f : Nat} {config : StoreConfig} {now : Nat} {u : Database.Traffic}
      {as : List Database.Answer} {σ σ' : e.State} : config.path = s.path →
      config.validate = .ok () → (∀ t ∈ s.tenants, t.handle.closed = true) →
      s.Finds created f σ →
      Database.Tends e (.alone { path := s.path, config := config.database } s.next .connect) σ as
        (.ok .done) u σ' →
      Step s (.opened created)
        { s.found created f σ' u.next with
          tenants := s.tenants ++ [.opened config now u.handle f] }
  | unopened {created : Bool} {f : Nat} {config : StoreConfig} {u : Database.Traffic}
      {as : List Database.Answer} {x : ConnectionError} {σ σ' : e.State} :
      config.path = s.path → config.validate = .ok () →
      (∀ t ∈ s.tenants, t.handle.closed = true) → s.Finds created f σ →
      Database.Tends e (.alone { path := s.path, config := config.database } s.next .connect) σ as
        (.error x) u σ' →
      Step s (.unopened created (.connection x)) (s.found created f σ' u.next)
  /-- The configuration is not valid, or the path leads nowhere. -/
  | refused (x : StoreError) : Step s (.unopened false x) s
  | wrote {k : Nat} {t : Tenant} {p : Pool} {w : Write.Workload Q R α}
      {ls : List (Write.Label α)} {z : Write.Scene e.toBackend α} {r : Except WriteError α} :
      s.tenants[k]? = some t → t.handle.pool = some p → w.policy = t.store.config.policy →
      (s.scene t p w).Run w ls z → Write.Scene.Solo ls → (z.calls 0).phase = .finished r →
      (∀ a ∈ Write.turnsOf 0 ls, a.phase = .acquiring → t.handle.Offers a.answer) →
      Step s (.wrote k w ls r (z.work 0))
        (s.leave k { t with handle := { t.handle with pool := some z.pool }, lock := z.lock }
          z.state z.next)
  | checkpointed {k : Nat} {t : Tenant} {mode : String} {u : Database.Traffic}
      {as : List Database.Answer} {a : Except ConnectionError Database.Product} {σ : e.State} :
      s.tenants[k]? = some t →
      Database.Tends e (.alone t.handle s.next (.checkpoint (.parse mode))) (s.files t.file) as a u
        σ →
      Step s (.checkpointed k mode (a.mapError .connection))
        (s.leave k { t with handle := u.handle } σ u.next)
  | ticked {k : Nat} {t : Tenant} {c c' : Checkpointer} {call : Database.Call} {now : Nat}
      {u : Database.Traffic} {as : List Database.Answer}
      {a : Except ConnectionError Database.Product} {σ : e.State} : s.tenants[k]? = some t →
      t.periodic = some c → c.wake now t.store.stopping = some c' →
      c'.phase = .checkpointing call →
      Database.Tends e (.alone t.handle s.next call.request) (s.files t.file) as a u σ →
      Step s (.ticked k)
        (s.leave k { t with handle := u.handle, periodic := some (c'.advance (u.calls 0)) } σ
          u.next)
  | shutDown {k : Nat} {remove : Bool} {r : Except StoreError Unit} {s' : Site e} :
      Winds k s { remove } r s' → Step s (.shutDown k remove r) s'

/-- A run from one site to another. -/
inductive Run (s : Site e) : List (Operation Q R α) → Site e → Prop
  | start : Run s [] s
  | step {ops : List (Operation Q R α)} {op : Operation Q R α} {m s' : Site e} : Run s ops m →
      m.Step op s' → Run s (ops ++ [op]) s'

end

end Site

/-! ### What a run says -/

namespace Operation

variable {Q R α : Type}

/-- What an operation makes of the statements that are in the file in use.  They are counted from
its creation: an opening that creates a file begins anew.  A removal does not, since an open store
may still be on the file that has lost its name; whatever it saves there is counted until the next
file is created, and is lost then. -/
def saves (ts : Transcript Q R) : Operation Q R α → Transcript Q R
  | .opened true => []
  | .unopened true _ => []
  | .wrote _ _ _ (.ok _) work => ts ++ work
  | _ => ts

/-- The statements of the writes that have come to a value since the file was created, oldest
first. -/
def saved (ops : List (Operation Q R α)) : Transcript Q R := ops.foldl saves []

/-- Whether the file at the path may be gone after an operation. -/
def loses (lost : Bool) : Operation Q R α → Bool
  | .opened _ => false
  | .unopened created _ => lost && !created
  | .shutDown _ remove _ => lost || remove
  | _ => lost

/-- Whether no file was created yet, or a removal has come after the last opening. -/
def lost (ops : List (Operation Q R α)) : Bool := ops.foldl loses true

def isUpkeep : Operation Q R α → Bool
  | .checkpointed .. => true
  | .ticked _ => true
  | .shutDown .. => true
  | _ => false

theorem saved_concat (ops : List (Operation Q R α)) (op : Operation Q R α) :
    saved (ops ++ [op]) = op.saves (saved ops) := by simp [saved]

theorem lost_concat (ops : List (Operation Q R α)) (op : Operation Q R α) :
    lost (ops ++ [op]) = op.loses (lost ops) := by simp [lost]

end Operation

end SingleWriter
