import SingleWriter.Pool
import SingleWriter.Proofs.Backend
import SingleWriter.Proofs.Course
import SingleWriter.Write.Lock

/-! Any number of writes at once, on one coordinator.  A scene is what they share, the lock, the
pool and the engine, with the writes themselves; they take steps one after the other in any order.
`Turned` says what each answer to a call does. -/

namespace SingleWriter.Write

/-- The writes of one coordinator. -/
structure Workload (Q R α : Type) where
  policy : RetryPolicy
  name : Nat → String := fun _ => defaultName
  /-- What the operation of a call may run in an attempt. -/
  operation : Nat → Nat → Program Q R α → Prop
  /-- The draw and the time at the end of each attempt of a call. -/
  moment : Nat → Nat → Moment := fun _ _ => {}

/-- All writes of a coordinator with what they share. -/
structure Scene {K Q R : Type} (b : Backend K Q R) (α : Type) where
  state : b.State
  pool : Pool
  /-- The number of the next connection. -/
  next : ConnectionId
  lock : Lock := {}
  calls : Nat → Call α
  /-- What is left of the operation that a call has under way. -/
  left : Nat → Option (Program Q R α) := fun _ => none
  /-- The statements that the last operation of each call has asked. -/
  work : Nat → Transcript Q R := fun _ => []

/-- One step of a run, as far as it says something about a call. -/
inductive Label (α : Type) where
  | turn (i : Nat) (t : Turn α)
  /-- A call invokes its operation, in the attempt with this number. -/
  | invoked (i attempt : Nat)
  | aside

namespace Scene

variable {K Q R α : Type} {b : Backend K Q R} (w : Workload Q R α) (s : Scene b α)

/-- A scene before the first step: no call has begun, and no connection is in a transaction. -/
structure Initial : Prop where
  calls : ∀ i, s.calls i = { operation := w.name i }
  left : ∀ i, s.left i = none
  idle_nodup : s.pool.idle.Nodup
  idle_lt : ∀ c ∈ s.pool.idle, c < s.next
  idle_rest : ∀ c ∈ s.pool.idle, b.stance s.state c = .idle

/-! ### Steps -/

/-- A lent connection is closed and gone. -/
def drop (c : ConnectionId) : Scene b α :=
  { s with state := b.close s.state c, pool := s.pool.forget c }

/-- Carries out an effect.  A connection that is given back may be too old to keep. -/
def fulfil (keep : Bool) (s : Scene b α) : Effect → Scene b α
  | .release c => if keep then { s with pool := s.pool.giveBack c } else s.drop c
  | .discard c => s.drop c
  | .unlock => { s with lock := s.lock.free }
  | .emit _ => s

/-- What an answer makes of a call, and what has to be done. -/
def resumed (i : Nat) (a : Answer α) : Call α × List Effect :=
  (s.calls i).resume w.policy (w.moment i (s.calls i).attempt) a

/-- The scene after call `i` has got an answer. -/
def answered (i : Nat) (keep : Bool) (a : Answer α) : Scene b α :=
  (s.resumed w i a).2.foldl (fulfil keep)
    { s with
      calls := Function.update s.calls i (s.resumed w i a).1
      left := Function.update s.left i none }

/-- The turn of call `i` with an answer. -/
def turn (i : Nat) (a : Answer α) : Turn α :=
  ⟨(s.calls i).attempt, (s.calls i).phase, a, (s.resumed w i a).2⟩

/-- The answers that call `i` may get, with the scene in which it gets them. -/
inductive Serves (s : Scene b α) (i : Nat) : Answer α → Scene b α → Prop
  | checked {a : Answer α} : (s.calls i).phase = .checking → a = .proceed ∨ a = .cancelled →
      Serves s i a s
  | entered {l : Lock} : (s.calls i).phase = .locking → s.lock.take? i = some l →
      Serves s i .proceed { s with lock := l }
  | left : (s.calls i).phase = .locking → Serves s i .cancelled { s with lock := s.lock.leave i }
  | lent {c : ConnectionId} {p : Pool} : (s.calls i).phase = .acquiring →
      s.pool.serve? i = some (.idle c, p) → Serves s i (.acquired c) { s with pool := p }
  | opened : (s.calls i).phase = .acquiring → i ∈ s.pool.opening →
      Serves s i (.acquired s.next)
        { s with
          pool := s.pool.opened i s.next
          state := b.connect s.state s.next
          next := s.next + 1 }
  | refused {e : ConnectionError} : (s.calls i).phase = .acquiring →
      Serves s i (.refused e) { s with pool := s.pool.withdraw i }
  | begins {on : ConnectionId} {r : Except SqlError Unit} {state : b.State} :
      (s.calls i).phase = .beginning on → b.begins s.state on r state →
      Serves s i (.ofStatement (r.mapError .sql)) { s with state }
  | worked {on : ConnectionId} {r : Except WriteError α} : (s.calls i).phase = .operating on →
      s.left i = some (.done r) → Serves s i (.ofOperation r) s
  | commit {on : ConnectionId} {v : α} {r : Except SqlError Unit} {state : b.State} :
      (s.calls i).phase = .committing on v → b.commit s.state on r state →
      Serves s i (.ofStatement (r.mapError .sql)) { s with state }
  | rollback {on : ConnectionId} {e : WriteError} {r : Except SqlError Unit} {state : b.State} :
      (s.calls i).phase = .rollingBack on e → b.rollback s.state on r state →
      Serves s i (.ofStatement (r.mapError .sql)) { s with state }
  | woken {d : Duration} {a : Answer α} : (s.calls i).phase = .backingOff d →
      a = .proceed ∨ a = .cancelled → Serves s i a s

/-- One step of a scene. -/
inductive Step (s : Scene b α) : Label α → Scene b α → Prop
  | turn {i : Nat} {a : Answer α} {s' : Scene b α} (keep : Bool) : s.Serves i a s' →
      Step s (.turn i (s.turn w i a)) (s'.answered w i keep a)
  | invoke {i : Nat} {on : ConnectionId} {p : Program Q R α} :
      (s.calls i).phase = .operating on → s.left i = none →
      w.operation i (s.calls i).attempt p →
      Step s (.invoked i (s.calls i).attempt)
        { s with
          left := Function.update s.left i (some p)
          work := Function.update s.work i [] }
  | ask {i : Nat} {on : ConnectionId} {q : Q} {next : Except SqlError R → Program Q R α}
      {r : Except SqlError R} {state : b.State} : (s.calls i).phase = .operating on →
      s.left i = some (.ask q next) → b.asks s.state on q r state →
      Step s .aside
        { s with
          state
          left := Function.update s.left i (some (next r))
          work := Function.update s.work i (s.work i ++ [(q, r)]) }
  /-- A call gets in line for the lock. -/
  | lineUp {i : Nat} : (s.calls i).phase = .locking →
      Step s .aside { s with lock := s.lock.enqueue i }
  /-- A call gets in line for a connection. -/
  | queue {i : Nat} : (s.calls i).phase = .acquiring →
      Step s .aside { s with pool := s.pool.enqueue i }
  /-- The first in line gets a place without a connection. -/
  | place {i : Nat} {p : Pool} : s.pool.serve? i = some (.opening, p) →
      Step s .aside { s with pool := p }
  /-- The first in line gets a place, and the connection that was at rest is too old to keep. -/
  | renew {i : Nat} {c : ConnectionId} {p : Pool} : s.pool.serve? i = some (.idle c, p) →
      Step s .aside { s with pool := p.replace i c, state := b.close s.state c }
  /-- The pool opens a connection to keep. -/
  | refill : s.pool.wantsMore = true →
      Step s .aside
        { s with
          pool := s.pool.addIdle s.next
          state := b.connect s.state s.next
          next := s.next + 1 }

/-- A run from one scene to another. -/
inductive Run (s : Scene b α) : List (Label α) → Scene b α → Prop
  | start : Run s [] s
  | step {ls : List (Label α)} {l : Label α} {m s' : Scene b α} : Run s ls m → m.Step w l s' →
      Run s (ls ++ [l]) s'

end Scene

/-! ### What a run says about its calls -/

section

variable {α : Type}

def Label.turnOf? (i : Nat) : Label α → Option (Turn α)
  | .turn j t => if j = i then some t else none
  | _ => none

/-- The turns of call `i`, oldest first. -/
def turnsOf (i : Nat) (ls : List (Label α)) : List (Turn α) := ls.filterMap (Label.turnOf? i)

def Label.invocationOf? (i : Nat) : Label α → Option Nat
  | .invoked j k => if j = i then some k else none
  | _ => none

/-- The attempts in which call `i` has invoked its operation, oldest first. -/
def invocations (i : Nat) (ls : List (Label α)) : List Nat :=
  ls.filterMap (Label.invocationOf? i)

/-- Whether a turn is a commit that has worked. -/
def Turn.commits (t : Turn α) : Bool :=
  match t.phase, t.answer with
  | .committing .., .proceed => true
  | _, _ => false

def Label.committed? : Label α → Option Nat
  | .turn i t => if t.commits then some i else none
  | _ => none

/-- The calls that have committed, in the order of their commits. -/
def commitOrder (ls : List (Label α)) : List Nat := ls.filterMap Label.committed?

end

/-! ### What an answer does to a scene -/

/-- The connection that an effect frees. -/
def Effect.frees? : Effect → Option ConnectionId
  | .release c => some c
  | .discard c => some c
  | _ => none

/-- A phase in which a call neither holds a connection nor has a value. -/
def Phase.Bare {α : Type} : Phase α → Prop
  | .checking => True
  | .locking => True
  | .acquiring => True
  | .backingOff _ => True
  | .finished (.error _) => True
  | _ => False

section

variable {α : Type}

theorem Call.settle_bare (c : Call α) (p : RetryPolicy) (m : Moment) (e : WriteError) :
    (c.settle p m (.error e)).1.phase.Bare := by
  obtain ⟨φ, told, h, -, ⟨r, rfl, hr⟩ | rfl⟩ := c.settle_cases p m (.error e)
  · rw [h]
    cases r with
    | ok v => cases hr v rfl
    | error => trivial
  · rw [h]
    trivial

theorem Phase.Bare.connection? {c : Call α} (h : c.phase.Bare) : c.connection? = none := by
  unfold Call.connection?
  cases hp : c.phase <;> simp_all [Phase.Bare]

theorem Phase.Bare.no_value {φ : Phase α} (h : φ.Bare) (v : α) : φ ≠ .finished (.ok v) := by
  rintro rfl
  exact h

theorem unlocking_frees (p : RetryPolicy) : ∀ e ∈ Call.unlocking p, e.frees? = none := by
  unfold Call.unlocking
  cases p.strategy <;> simp [Effect.frees?]

theorem Call.settle_frees (c : Call α) (p : RetryPolicy) (m : Moment) (o : Except WriteError α) :
    ∀ e ∈ (c.settle p m o).2, e.frees? = none := by
  obtain ⟨φ, told, h, -⟩ := c.settle_cases p m o
  rw [h]
  intro e he
  obtain ⟨event, -, rfl⟩ := List.mem_map.mp he
  rfl

end

namespace Scene

variable {K Q R α : Type} {b : Backend K Q R} {w : Workload Q R α} {s s' : Scene b α} {i : Nat}
  (keep : Bool)

theorem foldl_fulfil (es : List Effect) (s : Scene b α) :
    (es.foldl (fulfil keep) s).calls = s.calls ∧ (es.foldl (fulfil keep) s).left = s.left ∧
      (es.foldl (fulfil keep) s).work = s.work ∧ (es.foldl (fulfil keep) s).next = s.next := by
  induction es generalizing s with
  | nil => exact ⟨rfl, rfl, rfl, rfl⟩
  | cons e es ih =>
    obtain ⟨h1, h2, h3, h4⟩ := ih (fulfil keep s e)
    rw [List.foldl_cons, h1, h2, h3, h4]
    cases e with
    | release c => cases keep <;> exact ⟨rfl, rfl, rfl, rfl⟩
    | discard c | unlock | emit e => exact ⟨rfl, rfl, rfl, rfl⟩

theorem foldl_fulfil_quiet {es : List Effect} (h : ∀ e ∈ es, e.frees? = none) (s : Scene b α) :
    (es.foldl (fulfil keep) s).state = s.state ∧ (es.foldl (fulfil keep) s).pool = s.pool := by
  induction es generalizing s with
  | nil => exact ⟨rfl, rfl⟩
  | cons e es ih =>
    obtain ⟨h1, h2⟩ := ih (fun e he => h e (List.mem_cons_of_mem _ he)) (fulfil keep s e)
    rw [List.foldl_cons, h1, h2]
    have he := h e List.mem_cons_self
    cases e with
    | release c | discard c => cases he
    | unlock | emit e => exact ⟨rfl, rfl⟩

theorem foldl_fulfil_conclude (c : Call α) (p : RetryPolicy) (m : Moment) (o : Except WriteError α)
    (first : List Effect) (s : Scene b α) :
    ((Call.conclude p first (c.settle p m o)).2.foldl (fulfil keep) s).state =
        (first.foldl (fulfil keep) s).state ∧
      ((Call.conclude p first (c.settle p m o)).2.foldl (fulfil keep) s).pool =
        (first.foldl (fulfil keep) s).pool := by
  simp only [Call.conclude, List.foldl_append]
  obtain ⟨h1, h2⟩ := foldl_fulfil_quiet keep (c.settle_frees p m o)
    ((Call.unlocking p).foldl (fulfil keep) (first.foldl (fulfil keep) s))
  obtain ⟨h3, h4⟩ := foldl_fulfil_quiet keep (unlocking_frees p)
    (first.foldl (fulfil keep) s)
  exact ⟨h1.trans h3, h2.trans h4⟩

/-- Call `i` has become `c` and has no operation under way; the rest is as given. -/
structure Becomes (s : Scene b α) (i : Nat) (c : Call α) (state : b.State) (pool : Pool)
    (next : ConnectionId) (s' : Scene b α) : Prop where
  calls : s'.calls = Function.update s.calls i c
  left : s'.left = Function.update s.left i none
  work : s'.work = s.work
  state : s'.state = state
  pool : s'.pool = pool
  next : s'.next = next

/-- What becomes of a connection that is freed: it is at rest again, or it is closed. -/
inductive Freed (on : ConnectionId) (state : b.State) (pool : Pool) : b.State → Pool → Prop
  | kept : Freed on state pool state (pool.giveBack on)
  | closed : Freed on state pool (b.close state on) (pool.forget on)

/-- What an answer to call `i` does to a scene, case by case. -/
inductive Turned (w : Workload Q R α) (s : Scene b α) (i : Nat) : Answer α → Scene b α → Prop
  | bare {a : Answer α} {c : Call α} {pool : Pool} {s' : Scene b α} : (s.calls i).phase.Bare →
      (∀ r, (s.calls i).phase ≠ .finished r) → c.phase.Bare →
      pool.idle = s.pool.idle ∧ pool.lent = s.pool.lent →
      s.Becomes i c s.state pool s.next s' → Turned w s i a s'
  | lent {on : ConnectionId} {pool : Pool} {s' : Scene b α} : (s.calls i).phase = .acquiring →
      s.pool.serve? i = some (.idle on, pool) →
      s.Becomes i { s.calls i with phase := .beginning on } s.state pool s.next s' →
      Turned w s i (.acquired on) s'
  | opened {s' : Scene b α} : (s.calls i).phase = .acquiring →
      s.Becomes i { s.calls i with phase := .beginning s.next } (b.connect s.state s.next)
        (s.pool.opened i s.next) (s.next + 1) s' → Turned w s i (.acquired s.next) s'
  | begun {on : ConnectionId} {state : b.State} {s' : Scene b α} :
      (s.calls i).phase = .beginning on → b.begins s.state on (.ok ()) state →
      s.Becomes i { s.calls i with phase := .operating on } state s.pool s.next s' →
      Turned w s i .proceed s'
  | worked {on : ConnectionId} {v : α} {s' : Scene b α} : (s.calls i).phase = .operating on →
      s.left i = some (.done (.ok v)) →
      s.Becomes i { s.calls i with phase := .committing on v } s.state s.pool s.next s' →
      Turned w s i (.value v) s'
  | failed {on : ConnectionId} {e : WriteError} {s' : Scene b α} :
      (s.calls i).phase = .operating on → s.left i = some (.done (.error e)) →
      s.Becomes i { s.calls i with phase := .rollingBack on e } s.state s.pool s.next s' →
      Turned w s i (.failed e) s'
  | uncommitted {on : ConnectionId} {v : α} {e : SqlError} {state : b.State} {s' : Scene b α} :
      (s.calls i).phase = .committing on v → b.commit s.state on (.error e) state →
      s.Becomes i { s.calls i with phase := .rollingBack on (.sql e) } state s.pool s.next s' →
      Turned w s i (.failed (.sql e)) s'
  | committed {on : ConnectionId} {v : α} {state state' : b.State} {pool : Pool}
      {s' : Scene b α} : (s.calls i).phase = .committing on v →
      b.commit s.state on (.ok ()) state → Freed on state s.pool state' pool →
      (∀ c, .discard c ∉ (s.resumed w i .proceed).2) →
      s.Becomes i { s.calls i with phase := .finished (.ok v) } state' pool s.next s' →
      Turned w s i .proceed s'
  | unbegun {on : ConnectionId} {e : SqlError} {c : Call α} {state state' : b.State}
      {pool : Pool} {s' : Scene b α} : (s.calls i).phase = .beginning on →
      b.begins s.state on (.error e) state → Freed on state s.pool state' pool →
      (∀ c, .discard c ∉ (s.resumed w i (.failed (.sql e))).2) → c.phase.Bare →
      s.Becomes i c state' pool s.next s' → Turned w s i (.failed (.sql e)) s'
  | restored {on : ConnectionId} {e : WriteError} {c : Call α} {state state' : b.State}
      {pool : Pool} {s' : Scene b α} : (s.calls i).phase = .rollingBack on e →
      b.rollback s.state on (.ok ()) state → Freed on state s.pool state' pool →
      (∀ c, .discard c ∉ (s.resumed w i .proceed).2) → c.phase.Bare →
      s.Becomes i c state' pool s.next s' → Turned w s i .proceed s'
  | abandoned {on : ConnectionId} {e : WriteError} {e' : SqlError} {c : Call α} {state : b.State}
      {s' : Scene b α} : (s.calls i).phase = .rollingBack on e →
      b.rollback s.state on (.error e') state → c.phase.Bare →
      s.Becomes i c (b.close state on) (s.pool.forget on) s.next s' →
      Turned w s i (.failed (.sql e')) s'

section Serves

variable {a : Answer α} {t : Scene b α}

theorem becomes_of_quiet (hcalls : t.calls = s.calls) (hleft : t.left = s.left)
    (hwork : t.work = s.work) {c : Call α} {es : List Effect} (h : s.resumed w i a = (c, es))
    (hes : ∀ e ∈ es, e.frees? = none) :
    s.Becomes i c t.state t.pool t.next (t.answered w i keep a) := by
  have h' : t.resumed w i a = (c, es) := by rw [resumed, hcalls, ← resumed, h]
  rw [answered, h']
  obtain ⟨h1, h2, h3, h4⟩ := foldl_fulfil keep es
    { t with calls := Function.update t.calls i c, left := Function.update t.left i none }
  obtain ⟨h5, h6⟩ := foldl_fulfil_quiet keep hes
    { t with calls := Function.update t.calls i c, left := Function.update t.left i none }
  exact ⟨h1.trans (by rw [hcalls]), h2.trans (by rw [hleft]), h3.trans hwork, h5, h6, h4⟩

theorem becomes_of_conclude (hcalls : t.calls = s.calls) (hleft : t.left = s.left)
    (hwork : t.work = s.work) {p : RetryPolicy} {m : Moment} {o : Except WriteError α}
    {first : List Effect}
    (h : s.resumed w i a = Call.conclude p first ((s.calls i).settle p m o)) :
    ∃ u : Scene b α, u.state = t.state ∧ u.pool = t.pool ∧
      s.Becomes i ((s.calls i).settle p m o).1 (first.foldl (fulfil keep) u).state
        (first.foldl (fulfil keep) u).pool t.next (t.answered w i keep a) := by
  have h' : t.resumed w i a = Call.conclude p first ((s.calls i).settle p m o) := by
    rw [resumed, hcalls, ← resumed, h]
  rw [answered, h']
  refine ⟨{ t with
    calls := Function.update t.calls i ((s.calls i).settle p m o).1
    left := Function.update t.left i none }, rfl, rfl, ?_⟩
  obtain ⟨h1, h2, h3, h4⟩ := foldl_fulfil keep
    (Call.conclude p first ((s.calls i).settle p m o)).2
    { t with
      calls := Function.update t.calls i ((s.calls i).settle p m o).1
      left := Function.update t.left i none }
  obtain ⟨h5, h6⟩ := foldl_fulfil_conclude keep (s.calls i) p m o first
    { t with
      calls := Function.update t.calls i ((s.calls i).settle p m o).1
      left := Function.update t.left i none }
  exact ⟨h1.trans (by rw [hcalls]), h2.trans (by rw [hleft]), h3.trans hwork, h5, h6, h4⟩

theorem not_discard_conclude {c : Call α} {p : RetryPolicy} {m : Moment}
    {o : Except WriteError α} {on d : ConnectionId} :
    .discard d ∉ (Call.conclude p [.release on] (c.settle p m o)).2 := by
  intro h
  simp only [Call.conclude, List.mem_append, List.mem_singleton] at h
  rcases h with (h | h) | h
  · cases h
  · exact absurd (unlocking_frees p _ h) (by simp [Effect.frees?])
  · exact absurd (c.settle_frees p m o _ h) (by simp [Effect.frees?])

theorem freed_of_release (on : ConnectionId) (u : Scene b α) :
    Freed on u.state u.pool ([Effect.release on].foldl (fulfil keep) u).state
      ([Effect.release on].foldl (fulfil keep) u).pool := by
  cases keep with
  | true => exact .kept
  | false => exact .closed

/-- At the end of an attempt a call frees the connection that it releases, and discards none. -/
theorem released_of_conclude {on : ConnectionId} (hcalls : t.calls = s.calls)
    (hleft : t.left = s.left) (hwork : t.work = s.work) {p : RetryPolicy} {m : Moment}
    {o : Except WriteError α}
    (h : s.resumed w i a = Call.conclude p [.release on] ((s.calls i).settle p m o)) :
    ∃ (state : b.State) (pool : Pool), Freed on t.state t.pool state pool ∧
      (∀ c, .discard c ∉ (s.resumed w i a).2) ∧
      s.Becomes i ((s.calls i).settle p m o).1 state pool t.next (t.answered w i keep a) := by
  obtain ⟨u, hstate, hpool, hbecomes⟩ := becomes_of_conclude keep hcalls hleft hwork h
  have hfreed := freed_of_release keep on u
  rw [hstate, hpool] at hfreed
  refine ⟨_, _, hfreed, ?_, hbecomes⟩
  rw [h]
  exact fun _ => not_discard_conclude

theorem turned_of_bare {φ : Phase α} (hp : (s.calls i).phase = φ) (hφ : φ.Bare)
    (hgoes : ∀ r, φ ≠ .finished r)
    (hsame : t.calls = s.calls ∧ t.left = s.left ∧ t.work = s.work ∧ t.state = s.state ∧
      t.next = s.next ∧ t.pool.idle = s.pool.idle ∧ t.pool.lent = s.pool.lent)
    {c : Call α} {es : List Effect} (hr : s.resumed w i a = (c, es))
    (hes : ∀ e ∈ es, e.frees? = none) (hc : c.phase.Bare) :
    Turned w s i a (t.answered w i keep a) := by
  obtain ⟨hcalls, hleft, hwork, hstate, hnext, hpool⟩ := hsame
  have hb := becomes_of_quiet keep hcalls hleft hwork hr hes
  rw [hstate, hnext] at hb
  rw [← hp] at hφ hgoes
  exact .bare hφ hgoes hc hpool hb

section Statements

variable {on : ConnectionId} {r : Except SqlError Unit} {state : b.State}

theorem turned_begins (hp : (s.calls i).phase = .beginning on)
    (hbegins : b.begins s.state on r state) :
    Turned w s i (.ofStatement (r.mapError .sql))
      ({ s with state }.answered w i keep (.ofStatement (r.mapError .sql))) := by
  cases r with
  | ok =>
    have hr : s.resumed w i .proceed = ({ s.calls i with phase := .operating on }, []) := by
      simp only [resumed, Call.resume, hp]
    exact .begun hp hbegins
      (becomes_of_quiet (s := s) (t := { s with state }) keep rfl rfl rfl hr (by simp))
  | error e =>
    have hr : s.resumed w i (.failed (.sql e)) = Call.conclude w.policy [.release on]
        ((s.calls i).settle w.policy (w.moment i (s.calls i).attempt) (.error (.sql e))) := by
      simp only [resumed, Call.resume, hp, Call.settle]
    obtain ⟨_, _, hfreed, hkept, hbecomes⟩ :=
      released_of_conclude (s := s) (t := { s with state }) keep rfl rfl rfl hr
    exact .unbegun hp hbegins hfreed hkept (Call.settle_bare ..) hbecomes

theorem turned_commit {v : α} (hp : (s.calls i).phase = .committing on v)
    (hcommit : b.commit s.state on r state) :
    Turned w s i (.ofStatement (r.mapError .sql))
      ({ s with state }.answered w i keep (.ofStatement (r.mapError .sql))) := by
  cases r with
  | ok =>
    have hr : s.resumed w i .proceed = Call.conclude w.policy [.release on]
        ((s.calls i).settle w.policy (w.moment i (s.calls i).attempt) (.ok v)) := by
      simp only [resumed, Call.resume, hp, Call.settle]
    obtain ⟨_, _, hfreed, hkept, hbecomes⟩ :=
      released_of_conclude (s := s) (t := { s with state }) keep rfl rfl rfl hr
    exact .committed hp hcommit hfreed hkept hbecomes
  | error e =>
    have hr : s.resumed w i (.failed (.sql e)) =
        ({ s.calls i with phase := .rollingBack on (.sql e) }, []) := by
      simp only [resumed, Call.resume, hp]
    exact .uncommitted hp hcommit
      (becomes_of_quiet (s := s) (t := { s with state }) keep rfl rfl rfl hr (by simp))

theorem turned_rollback {e : WriteError} (hp : (s.calls i).phase = .rollingBack on e)
    (hrollback : b.rollback s.state on r state) :
    Turned w s i (.ofStatement (r.mapError .sql))
      ({ s with state }.answered w i keep (.ofStatement (r.mapError .sql))) := by
  cases r with
  | ok =>
    have hr : s.resumed w i .proceed = Call.conclude w.policy [.release on]
        ((s.calls i).settle w.policy (w.moment i (s.calls i).attempt) (.error e)) := by
      simp only [resumed, Call.resume, hp, Call.settle]
    obtain ⟨_, _, hfreed, hkept, hbecomes⟩ :=
      released_of_conclude (s := s) (t := { s with state }) keep rfl rfl rfl hr
    exact .restored hp hrollback hfreed hkept (Call.settle_bare ..) hbecomes
  | error e' =>
    have hr : s.resumed w i (.failed (.sql e')) = Call.conclude w.policy [.discard on]
        ((s.calls i).settle w.policy (w.moment i (s.calls i).attempt) (.error e)) := by
      simp only [resumed, Call.resume, hp, Call.settle]
    obtain ⟨u, hstate, hpool, hb⟩ :=
      becomes_of_conclude (s := s) (t := { s with state }) keep rfl rfl rfl hr
    have hdrop : ([Effect.discard on].foldl (fulfil keep) u).state = b.close state on ∧
        ([Effect.discard on].foldl (fulfil keep) u).pool = s.pool.forget on :=
      ⟨congrArg (b.close · on) hstate, congrArg (·.forget on) hpool⟩
    rw [hdrop.1, hdrop.2] at hb
    exact .abandoned hp hrollback (Call.settle_bare ..) hb

end Statements

theorem Serves.turned (h : s.Serves i a t) : Turned w s i a (t.answered w i keep a) := by
  cases h with
  | checked hp ha =>
    rcases ha with rfl | rfl
    · cases hs : w.policy.strategy with
      | mutex =>
        have hr : s.resumed w i .proceed = ({ s.calls i with phase := .locking }, []) := by
          simp only [resumed, Call.resume, hp, hs]
        exact turned_of_bare keep hp trivial (by simp) ⟨rfl, rfl, rfl, rfl, rfl, rfl, rfl⟩ hr
          (by simp) trivial
      | nativeQueuing =>
        have hr : s.resumed w i .proceed = ({ s.calls i with phase := .acquiring }, []) := by
          simp only [resumed, Call.resume, hp, hs]
        exact turned_of_bare keep hp trivial (by simp) ⟨rfl, rfl, rfl, rfl, rfl, rfl, rfl⟩ hr
          (by simp) trivial
    · have hr : s.resumed w i .cancelled = (s.calls i).cancelAfter ((s.calls i).attempt - 1) := by
        simp only [resumed, Call.resume, hp]
      exact turned_of_bare keep hp trivial (by simp) ⟨rfl, rfl, rfl, rfl, rfl, rfl, rfl⟩ hr
        (by simp [Effect.frees?]) trivial
  | entered hp _ =>
    have hr : s.resumed w i .proceed = ({ s.calls i with phase := .acquiring }, []) := by
      simp only [resumed, Call.resume, hp]
    exact turned_of_bare keep hp trivial (by simp) ⟨rfl, rfl, rfl, rfl, rfl, rfl, rfl⟩ hr
      (by simp) trivial
  | left hp =>
    have hr : s.resumed w i .cancelled = (s.calls i).cancelAfter ((s.calls i).attempt - 1) := by
      simp only [resumed, Call.resume, hp]
    exact turned_of_bare keep hp trivial (by simp) ⟨rfl, rfl, rfl, rfl, rfl, rfl, rfl⟩ hr
      (by simp [Effect.frees?]) trivial
  | @lent c p hp hserve =>
    have hr : s.resumed w i (.acquired c) = ({ s.calls i with phase := .beginning c }, []) := by
      simp only [resumed, Call.resume, hp]
    exact .lent hp hserve (becomes_of_quiet (s := s) (t := { s with pool := p }) keep rfl rfl rfl hr
      (by simp))
  | opened hp _ =>
    have hr : s.resumed w i (.acquired s.next) =
        ({ s.calls i with phase := .beginning s.next }, []) := by
      simp only [resumed, Call.resume, hp]
    exact .opened hp (becomes_of_quiet (s := s)
      (t := { s with
        pool := s.pool.opened i s.next
        state := b.connect s.state s.next
        next := s.next + 1 }) keep rfl rfl rfl hr (by simp))
  | @refused e hp =>
    have hr : s.resumed w i (.refused e) = Call.conclude w.policy [] ((s.calls i).settle w.policy
        (w.moment i (s.calls i).attempt) (.error (.connection e))) := by
      simp only [resumed, Call.resume, hp, Call.settle]
    refine turned_of_bare keep hp trivial (by simp) ⟨rfl, rfl, rfl, rfl, rfl, rfl, rfl⟩ hr ?_
      (Call.settle_bare ..)
    intro e' he'
    rcases List.mem_append.mp he' with h | h
    · exact unlocking_frees _ e' h
    · exact Call.settle_frees _ _ _ _ e' h
  | begins hp hbegins => exact turned_begins keep hp hbegins
  | @worked on r hp hleft =>
    cases r with
    | ok v =>
      have hr : s.resumed w i (.value v) = ({ s.calls i with phase := .committing on v }, []) := by
        simp only [resumed, Call.resume, hp]
      exact .worked hp hleft (becomes_of_quiet (s := s) (t := s) keep rfl rfl rfl hr (by simp))
    | error e =>
      have hr : s.resumed w i (.failed e) =
          ({ s.calls i with phase := .rollingBack on e }, []) := by
        simp only [resumed, Call.resume, hp]
      exact .failed hp hleft (becomes_of_quiet (s := s) (t := s) keep rfl rfl rfl hr (by simp))
  | commit hp hcommit => exact turned_commit keep hp hcommit
  | rollback hp hrollback => exact turned_rollback keep hp hrollback
  | woken hp ha =>
    rcases ha with rfl | rfl
    · have hr : s.resumed w i .proceed =
          ({ s.calls i with attempt := (s.calls i).attempt + 1, phase := .checking }, []) := by
        simp only [resumed, Call.resume, hp]
      exact turned_of_bare keep hp trivial (by simp) ⟨rfl, rfl, rfl, rfl, rfl, rfl, rfl⟩ hr
        (by simp) trivial
    · have hr : s.resumed w i .cancelled = (s.calls i).cancelAfter (s.calls i).attempt := by
        simp only [resumed, Call.resume, hp]
      exact turned_of_bare keep hp trivial (by simp) ⟨rfl, rfl, rfl, rfl, rfl, rfl, rfl⟩ hr
        (by simp [Effect.frees?]) trivial

end Serves

end Scene

end SingleWriter.Write
