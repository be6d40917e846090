import Mathlib.Logic.Function.Basic
import Mathlib.Logic.Relation
import SingleWriter.Database

/-! Any number of calls on one handle at once.  They take steps one after the other in any order,
and whoever has got the pool goes on to use it.  `Pool.Step` says what may happen to the pool, and
`Resumed` what an answer makes of the call that gets it. -/

namespace SingleWriter

/-! ### Pools -/

namespace Pool

/-- What may happen to a pool at once. -/
inductive Step (p : Pool) : Pool → Prop
  | queue (who : Nat) : Step p (p.enqueue who)
  | withdraw (who : Nat) : Step p (p.withdraw who)
  | lend {who c : Nat} {p' : Pool} : p.serve? who = some (.idle c, p') → Step p p'
  | place {who : Nat} {p' : Pool} : p.serve? who = some (.opening, p') → Step p p'
  | renew {who c : Nat} {p' : Pool} : p.serve? who = some (.idle c, p') →
      Step p (p'.replace who c)
  | opened {who : Nat} (c : Nat) : who ∈ p.opening → Step p (p.opened who c)
  | giveBack (c : Nat) : p.closed = false → Step p (p.giveBack c)
  | forget (c : Nat) : Step p (p.forget c)
  | refill (c : Nat) : p.wantsMore = true → Step p (p.addIdle c)
  | close : Step p p.close.2

/-- The pool is closed and has no connection at rest. -/
structure Shutting (p : Pool) : Prop where
  closed : p.closed = true
  idle : p.idle = []

/-- The pool is closed and has no connection at all. -/
structure Over (p : Pool) : Prop extends p.Shutting where
  lent : p.lent = []
  opening : p.opening = []

variable {p p' : Pool}

theorem Step.shutting (h : p.Step p') (hp : p.Shutting) : p'.Shutting := by
  have hclosed := hp.closed
  cases h with
  | queue | withdraw | opened | forget => exact ⟨hp.closed, hp.idle⟩
  | lend hserve | place hserve | renew hserve =>
    rw [open_of_serve? hserve] at hclosed
    cases hclosed
  | giveBack c hopen =>
    rw [hopen] at hclosed
    cases hclosed
  | refill c hmore => simp [wantsMore, hclosed] at hmore
  | close => exact ⟨rfl, rfl⟩

theorem Step.over (h : p.Step p') (hp : p.Over) : p'.Over := by
  have hshutting := h.shutting hp.toShutting
  have hclosed := hp.closed
  cases h with
  | queue | close => exact ⟨hshutting, hp.lent, hp.opening⟩
  | withdraw who => exact ⟨hshutting, hp.lent, by simp [Pool.withdraw, hp.opening]⟩
  | forget c => exact ⟨hshutting, by simp [Pool.forget, hp.lent], hp.opening⟩
  | opened c hmem =>
    rw [hp.opening] at hmem
    cases hmem
  | lend hserve | place hserve | renew hserve =>
    rw [open_of_serve? hserve] at hclosed
    cases hclosed
  | giveBack c hopen =>
    rw [hopen] at hclosed
    cases hclosed
  | refill c hmore => simp [wantsMore, hclosed] at hmore

/-- A pool that was told to close and got everything back has no connection at all. -/
theorem Shutting.over (h : p.Shutting) (hdrained : p.drained = true) : p.Over := by
  simp only [drained, taken, Bool.and_eq_true, beq_iff_eq] at hdrained
  refine ⟨h, ?_, ?_⟩
  · exact List.eq_nil_of_length_eq_zero (by omega)
  · exact List.eq_nil_of_length_eq_zero (by omega)

end Pool

namespace Database

/-! ### Calls on a handle -/

/-- All calls on one handle, with what they share. -/
structure Traffic where
  handle : Database
  /-- The number of the next connection. -/
  next : Nat := 0
  calls : Nat → Call

/-- One step of a run, as far as it says something about a call or a transaction. -/
inductive Label where
  | turn (i : Nat) (a : Answer)
  /-- A transaction on a connection of the pool commits. -/
  | commit (c : Nat)
  | aside

namespace Traffic

variable (s : Traffic)

/-- A handle before its first use. -/
structure Initial : Prop where
  calls : ∀ i, (s.calls i).phase = .entering
  closed : s.handle.closed = false
  building : s.handle.building = false
  pool : s.handle.pool = none

def withPool (p : Pool) : Traffic := { s with handle := { s.handle with pool := some p } }

/-- A lent connection comes back.  It is closed if the pool is closed or it is too old to keep. -/
def release (keep : Bool) (c : Nat) : Traffic :=
  match s.handle.pool with
  | some p => s.withPool (if keep && !p.closed then p.giveBack c else p.forget c)
  | none => s

def closePool : Traffic :=
  match s.handle.pool with
  | some p => s.withPool p.close.2
  | none => s

def fulfil (keep : Bool) (s : Traffic) : Effect → Traffic
  | .release c => s.release keep c
  | .closePool => s.closePool

/-- Call `i` has become `c`, and the handle is `db`. -/
def become (i : Nat) (c : Call) (db : Database) : Traffic :=
  { s with handle := db, calls := Function.update s.calls i c }

/-- The traffic after call `i` has got an answer. -/
def answered (i : Nat) (keep : Bool) (a : Answer) : Traffic :=
  let next := (s.calls i).resume s.handle a
  next.2.2.foldl (fulfil keep) (s.become i next.1 next.2.1)

/-- Caller `i` has got the pool and may ask it for connections at any time. -/
def Visits (i : Nat) : Prop :=
  (s.calls i).request = .connect ∧ (s.calls i).phase = .finished (.ok .done)

/-- Caller `i` gets a connection: one that was at rest, or a new one. -/
inductive Gets (s : Traffic) (i : Nat) : Nat → Traffic → Prop
  | idle {p p' : Pool} {c : Nat} : s.handle.pool = some p → p.serve? i = some (.idle c, p') →
      Gets s i c (s.withPool p')
  | opened {p : Pool} : s.handle.pool = some p → i ∈ p.opening →
      Gets s i s.next { s.withPool (p.opened i s.next) with next := s.next + 1 }

/-- The answers that call `i` may get, with the traffic in which it gets them. -/
inductive Serves (s : Traffic) (i : Nat) : Answer → Traffic → Prop
  | entered : (s.calls i).phase = .entering → Serves s i .proceed s
  | waited : (s.calls i).phase = .waiting → s.handle.building = false → Serves s i .proceed s
  /-- A new pool starts with `n` connections. -/
  | built (n limit minimum : Nat) : (s.calls i).phase = .building →
      Serves s i (.built { limit, minimum, idle := List.range' s.next n })
        { s with next := s.next + n }
  | unbuilt (e : SqlError) : (s.calls i).phase = .building → Serves s i (.failed e) s
  | acquired {c : Nat} {s' : Traffic} : (s.calls i).phase = .acquiring → s.Gets i c s' →
      Serves s i (.acquired c) s'
  | refused {p : Pool} (e : SqlError) : (s.calls i).phase = .acquiring →
      s.handle.pool = some p → Serves s i (.failed e) (s.withPool (p.withdraw i))
  | checkpointed {on : Nat} (r : CheckpointReport) : (s.calls i).phase = .checkpointing on →
      Serves s i (.report r) s
  | uncheckpointed {on : Nat} (e : SqlError) : (s.calls i).phase = .checkpointing on →
      Serves s i (.failed e) s
  | drained {p : Pool} : (s.calls i).phase = .draining → s.handle.pool = some p →
      p.drained = true → Serves s i .proceed s
  | unlinked (r : Except IoError Unit) : (s.calls i).phase = .unlinking →
      Serves s i (.unlinked r) s

/-- One step of the traffic. -/
inductive Step (s : Traffic) : Label → Traffic → Prop
  | turn {i : Nat} {a : Answer} {s' : Traffic} (keep : Bool) : s.Serves i a s' →
      Step s (.turn i a) (s'.answered i keep a)
  | commit {p : Pool} {c : Nat} : s.handle.pool = some p → c ∈ p.lent →
      (∀ j, (s.calls j).phase ≠ .checkpointing c) → Step s (.commit c) s
  /-- A caller is done with its connection. -/
  | giveUp {p : Pool} {c : Nat} (keep : Bool) : s.handle.pool = some p → c ∈ p.lent →
      (∀ j, (s.calls j).phase ≠ .checkpointing c) → Step s .aside (s.release keep c)
  /-- A caller gets in line for a connection. -/
  | queue {i : Nat} {p : Pool} : (s.calls i).phase = .acquiring ∨ s.Visits i →
      s.handle.pool = some p → Step s .aside (s.withPool (p.enqueue i))
  /-- The first in line gets a place without a connection. -/
  | place {i : Nat} {p p' : Pool} : s.handle.pool = some p → p.serve? i = some (.opening, p') →
      Step s .aside (s.withPool p')
  /-- The first in line gets a place, and the connection that was at rest is too old to keep. -/
  | renew {i c : Nat} {p p' : Pool} : s.handle.pool = some p → p.serve? i = some (.idle c, p') →
      Step s .aside (s.withPool (p'.replace i c))
  /-- The pool opens a connection to keep. -/
  | refill {p : Pool} : s.handle.pool = some p → p.wantsMore = true →
      Step s .aside { s.withPool (p.addIdle s.next) with next := s.next + 1 }
  | visit {i c : Nat} {s' : Traffic} : s.Visits i → s.Gets i c s' → Step s .aside s'
  | retire {i : Nat} {p : Pool} : s.Visits i → s.handle.pool = some p →
      Step s .aside (s.withPool (p.withdraw i))

/-- A run from one traffic to another. -/
inductive Run (s : Traffic) : List Label → Traffic → Prop
  | start : Run s [] s
  | step {ls : List Label} {l : Label} {m s' : Traffic} : Run s ls m → m.Step l s' →
      Run s (ls ++ [l]) s'

/-! ### What a step does -/

/-- Nothing has happened but to the pool. -/
structure Adjusts (s s' : Traffic) : Prop where
  calls : s'.calls = s.calls
  path : s'.handle.path = s.handle.path
  config : s'.handle.config = s.handle.config
  closed : s'.handle.closed = s.handle.closed
  building : s'.handle.building = s.handle.building
  none : s.handle.pool = none → s'.handle.pool = none
  some : ∀ {p}, s.handle.pool = some p →
    ∃ p', s'.handle.pool = some p' ∧ Relation.ReflTransGen Pool.Step p p'

variable {s} {s' t : Traffic} {i : Nat} {l : Label} {a : Answer} {keep : Bool}

namespace Adjusts

theorem refl (s : Traffic) : s.Adjusts s :=
  ⟨rfl, rfl, rfl, rfl, rfl, id, fun h => ⟨_, h, .refl⟩⟩

theorem trans (h : s.Adjusts t) (h' : t.Adjusts s') : s.Adjusts s' := by
  refine ⟨h'.calls.trans h.calls, h'.path.trans h.path, h'.config.trans h.config,
    h'.closed.trans h.closed, h'.building.trans h.building, fun hp => h'.none (h.none hp),
    fun hp => ?_⟩
  obtain ⟨p', hp', hsteps⟩ := h.some hp
  obtain ⟨p'', hp'', hsteps'⟩ := h'.some hp'
  exact ⟨p'', hp'', hsteps.trans hsteps'⟩

theorem pooled (h : s.Adjusts t) (hp : s.handle.pool.isSome = true) :
    t.handle.pool.isSome = true := by
  obtain ⟨p, hp⟩ := Option.isSome_iff_exists.mp hp
  obtain ⟨p', hp', -⟩ := h.some hp
  rw [hp']
  rfl

theorem unpooled (h : s.Adjusts t) (hp : t.handle.pool = Option.none) :
    s.handle.pool = Option.none := by
  by_contra hsome
  have hpooled := h.pooled (Option.isSome_iff_ne_none.mpr hsome)
  rw [hp] at hpooled
  cases hpooled

theorem withPool {p p' : Pool} (hp : s.handle.pool = Option.some p) (hstep : p.Step p')
    (next : Nat) : s.Adjusts { s.withPool p' with next } := by
  refine ⟨rfl, rfl, rfl, rfl, rfl, fun h => ?_, fun h => ?_⟩
  · rw [hp] at h
    cases h
  · rw [hp] at h
    cases h
    exact ⟨p', rfl, .single hstep⟩

theorem fulfil (keep : Bool) (s : Traffic) (e : Effect) : s.Adjusts (s.fulfil keep e) := by
  cases hp : s.handle.pool with
  | none =>
    have hsame : s.fulfil keep e = s := by
      cases e <;> simp [Traffic.fulfil, release, closePool, hp]
    rw [hsame]
    exact refl s
  | some p =>
    cases e with
    | release c =>
      simp only [Traffic.fulfil, release, hp]
      refine withPool hp ?_ s.next
      split
      · rename_i hkeep
        exact .giveBack c (by simp_all)
      · exact .forget c
    | closePool =>
      simp only [Traffic.fulfil, closePool, hp]
      exact withPool hp .close s.next

theorem foldl (keep : Bool) (es : List Effect) (s : Traffic) :
    s.Adjusts (es.foldl (Traffic.fulfil keep) s) := by
  induction es generalizing s with
  | nil => exact refl s
  | cons e es ih => exact (fulfil keep s e).trans (ih _)

/-- What every step of a pool keeps, a change of nothing but the pool keeps. -/
theorem all (ha : s.Adjusts s') {P : Pool → Prop} (hP : ∀ {p p' : Pool}, p.Step p' → P p → P p')
    (h : ∀ p, s.handle.pool = Option.some p → P p) :
    ∀ p, s'.handle.pool = Option.some p → P p := by
  intro p' hp'
  cases hp : s.handle.pool with
  | none =>
    rw [ha.none hp] at hp'
    cases hp'
  | some p =>
    obtain ⟨p'', hp'', hsteps⟩ := ha.some hp
    rw [hp'] at hp''
    cases hp''
    clear hp'
    induction hsteps with
    | refl => exact h p hp
    | tail _ hstep ih => exact hP hstep ih

end Adjusts

theorem Gets.adjusts {c : Nat} (h : s.Gets i c s') : s.Adjusts s' := by
  cases h with
  | idle hp hserve => exact .withPool hp (.lend hserve) s.next
  | opened hp hmem => exact .withPool hp (.opened _ hmem) (s.next + 1)

theorem Serves.adjusts (h : s.Serves i a s') : s.Adjusts s' := by
  cases h with
  | entered | waited | unbuilt | checkpointed | uncheckpointed | drained | unlinked =>
    exact .refl s
  | built => exact ⟨rfl, rfl, rfl, rfl, rfl, id, fun h => ⟨_, h, .refl⟩⟩
  | acquired _ hgets => exact hgets.adjusts
  | refused _ _ hp => exact .withPool hp (.withdraw i) s.next

/-- A step is an answer to a call, or it changes nothing but the pool. -/
theorem Step.turn_or_adjusts (h : s.Step l s') :
    (∃ i a keep t, l = .turn i a ∧ s.Serves i a t ∧ s' = t.answered i keep a) ∨
      (∀ i a, l ≠ .turn i a) ∧ s.Adjusts s' := by
  cases h with
  | @turn i a t keep hserves => exact .inl ⟨i, a, keep, t, rfl, hserves, rfl⟩
  | commit => exact .inr ⟨by simp, .refl s⟩
  | giveUp keep => exact .inr ⟨by simp, .fulfil keep s (.release _)⟩
  | queue _ hp => exact .inr ⟨by simp, .withPool hp (.queue _) s.next⟩
  | place hp hserve => exact .inr ⟨by simp, .withPool hp (.place hserve) s.next⟩
  | renew hp hserve => exact .inr ⟨by simp, .withPool hp (.renew hserve) s.next⟩
  | refill hp hmore => exact .inr ⟨by simp, .withPool hp (.refill _ hmore) (s.next + 1)⟩
  | visit _ hgets => exact .inr ⟨by simp, hgets.adjusts⟩
  | retire _ hp => exact .inr ⟨by simp, .withPool hp (.withdraw _) s.next⟩

theorem Run.here {s₀ : Traffic} {ls : List Label} (_ : s₀.Run ls s) : s.Run [] s := .start

end Traffic

end Database

end SingleWriter
