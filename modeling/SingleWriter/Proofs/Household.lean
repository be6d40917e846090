import SingleWriter.Proofs.Alone
import SingleWriter.Proofs.Closing
import SingleWriter.Store

/-! An open store with all that goes on in it at once: the task of its periodic checkpoints, any
number of shutdowns, and others who use the handle.  They take steps in any order, and the clock
goes on between them.

Shutdowns run to their end.  There is no step for one that is dropped on its way: it would take with
it the only handle to join the task by, and the next shutdown would close the database without
waiting.  Here a shutdown that goes no further while it joins is one that is `Joining` for good. -/

namespace SingleWriter

namespace Database.Traffic

variable {s s' t : Traffic} {i j : Nat} {a : Answer} {l : Label}

theorem answered_calls (keep : Bool) (a : Answer) : (t.answered i keep a).calls =
    Function.update t.calls i ((t.calls i).resume t.handle a).1 :=
  (Adjusts.foldl keep _ _).calls

theorem Step.served (h : s.Step (.turn i a) s') :
    ∃ t keep, s.Serves i a t ∧ s' = t.answered i keep a := by
  rcases h.turn_or_adjusts with ⟨_, _, keep, t, hl, hserves, rfl⟩ | ⟨hl, -⟩
  · cases hl
    exact ⟨t, keep, hserves, rfl⟩
  · exact absurd rfl (hl i a)

/-- What every step keeps, every run keeps. -/
theorem Run.preserves {P : Traffic → Prop}
    (hP : ∀ {s s' : Traffic} {l : Label}, s.Step l s' → P s → P s') {ls : List Label}
    (hrun : s.Run ls s') (h : P s) : P s' := by
  induction hrun with
  | start => exact h
  | step _ hstep ih => exact hP hstep ih

theorem Run.request {ls : List Label} (hrun : s.Run ls s') (j : Nat) :
    (s'.calls j).request = (s.calls j).request :=
  hrun.preserves (P := fun t => (t.calls j).request = (s.calls j).request)
    (fun hstep ht => (hstep.request j).trans ht) rfl

/-- Only a turn of its own changes a call. -/
theorem Step.calls_of_ne (h : s.Step l s') (hl : ∀ a, l ≠ .turn j a) :
    s'.calls j = s.calls j := by
  rcases h.turn_or_adjusts with ⟨i, a, keep, t, rfl, hserves, rfl⟩ | ⟨-, hsame⟩
  · have hj : j ≠ i := fun hji => hl a (by rw [hji])
    rw [answered_calls, Function.update_of_ne hj, hserves.adjusts.calls]
  · rw [hsame.calls]

/-- What a turn makes of its call. -/
theorem Step.turned (h : s.Step (.turn i a) s') : (s.calls i).phase.Awaits a ∧
    ∃ db, s'.calls i = ((s.calls i).resume db a).1 := by
  obtain ⟨t, keep, hserves, rfl⟩ := h.served
  refine ⟨hserves.awaits, t.handle, ?_⟩
  rw [answered_calls, Function.update_self, hserves.adjusts.calls]

theorem Step.unfinished (h : s.Step (.turn i a) s') : (s.calls i).result? = none := by
  have hawaits := h.turned.1
  unfold Call.result?
  cases hphase : (s.calls i).phase with
  | finished r =>
    rw [hphase] at hawaits
    cases hawaits
  | entering | waiting | building | acquiring | checkpointing on | draining | unlinking => rfl

end Database.Traffic

open Database (Answer Call Traffic)

/-! ### Callers -/

/-- Those who make calls on the handle of a store. -/
inductive Caller where
  /-- The periodic checkpoints, for each of them. -/
  | periodic (n : Nat)
  /-- The shutdowns, which close the handle. -/
  | closing (k : Nat)
  /-- The shutdowns that remove the database, after they have closed the handle. -/
  | removing (k : Nat)
  | other (i : Nat)

/-- The number of a caller among all calls. -/
def Caller.number : Caller → Nat
  | periodic n => 4 * n
  | closing k => 4 * k + 1
  | removing k => 4 * k + 2
  | other i => 4 * i + 3

theorem Caller.number_inj {a b : Caller} : a.number = b.number ↔ a = b := by
  constructor
  · intro h
    cases a <;> cases b <;> simp only [number] at h <;> congr 1 <;> omega
  · exact congrArg number

/-- The task of the periodic checkpoints, once it has created its ticker. -/
structure Ticker where
  /-- When the ticker was created. -/
  since : Nat
  /-- How many checkpoints have begun. -/
  begun : Nat := 0
  state : Checkpointer

structure Household where
  store : Store
  traffic : Traffic
  /-- Nanoseconds. -/
  now : Nat := 0
  ticker : Option Ticker := none
  shutdowns : Nat → Shutdown

theorem Shutdown.enter_store (s : Shutdown) (store : Store) :
    (s.enter store).2 = { store with stopping := true, checkpointer := none } := by
  unfold enter Store.stop
  cases store.checkpointer <;> rfl

theorem Shutdown.enter_phase (s : Shutdown) (store : Store) : (s.enter store).1.phase =
    match store.checkpointer with
    | some task => .joining task
    | none => .closing { request := .close } := by
  unfold enter Store.stop
  cases store.checkpointer <;> rfl

namespace Household

variable (h : Household)

def call (who : Caller) : Call := h.traffic.calls who.number

/-- The time between the periodic checkpoints, if the store has any. -/
def interval : Option Duration := Store.checkpointInterval h.store.config

/-- The task of the periodic checkpoints has come to its end. -/
def Ended : Prop := ∃ t, h.ticker = some t ∧ t.state.isStopped = true

def Joining (k : Nat) : Prop := ∃ task, (h.shutdowns k).phase = .joining task

def withShutdown (k : Nat) (s : Shutdown) : Household :=
  { h with shutdowns := Function.update h.shutdowns k s }

/-- A store that was just opened: its handle has a pool, and the task of the periodic checkpoints
has been spawned if there are to be any. -/
structure Opened : Prop where
  spawned : h.store.checkpointer.isSome = h.interval.isSome
  connected : h.traffic.handle.pool.isSome = true
  orderly : h.traffic.Orderly
  ticker : h.ticker = none
  periodic : ∀ n, h.call (.periodic n) = { request := .checkpoint h.store.config.mode }
  closing : ∀ k, h.call (.closing k) = { request := .close }
  removing : ∀ k, h.call (.removing k) = { request := .remove }
  shutdowns : ∀ k, (h.shutdowns k).phase = .entering

/-! ### Steps -/

inductive Label where
  /-- The task of the periodic checkpoints creates its ticker. -/
  | begins (time : Nat)
  | ticks (n time : Nat)
  /-- A turn of a periodic checkpoint. -/
  | works (n : Nat) (a : Answer)
  /-- The task of the periodic checkpoints comes to its end. -/
  | ends
  | enters (k : Nat)
  /-- A shutdown learns that the periodic checkpoints have ended. -/
  | joins (k : Nat)
  | closes (k : Nat) (a : Answer)
  | removes (k : Nat) (a : Answer)
  | aside (l : Database.Label)
  | passes
  | drops

/-- One step of a store.  A tick that is due may win against the end of the periodic checkpoints,
nobody shuts a store down that was dropped, and no shutdown is dropped itself. -/
inductive Step (h : Household) : Label → Household → Prop
  | begins {d : Duration} : h.interval = some d → h.ticker = none →
      Step h (.begins h.now)
        { h with
          ticker := some { since := h.now, state := .start h.now d h.store.config.mode } }
  | ticks {t : Ticker} {c : Checkpointer} : h.ticker = some t →
      t.state.wake h.now false = some c →
      Step h (.ticks t.begun h.now)
        { h with ticker := some { t with begun := t.begun + 1, state := c } }
  | works {t : Ticker} {c : Call} {n : Nat} {a : Answer} {s : Traffic} : h.ticker = some t →
      t.state.phase = .checkpointing c → t.begun = n + 1 →
      h.traffic.Step (.turn (Caller.periodic n).number a) s →
      Step h (.works n a)
        { h with
          traffic := s
          ticker := some
            { t with state := t.state.advance (s.calls (Caller.periodic n).number) } }
  | ends {t : Ticker} {c : Checkpointer} : h.ticker = some t → h.store.stopping = true →
      t.state.wake h.now true = some c →
      Step h .ends { h with ticker := some { t with state := c } }
  | enters {k : Nat} : (h.shutdowns k).phase = .entering →
      Step h (.enters k)
        { h.withShutdown k ((h.shutdowns k).enter h.store).1 with
          store := ((h.shutdowns k).enter h.store).2 }
  | joins {k : Nat} : h.Joining k → h.Ended →
      Step h (.joins k) (h.withShutdown k (h.shutdowns k).close)
  | closes {k : Nat} {c : Call} {a : Answer} {s : Traffic} : (h.shutdowns k).phase = .closing c →
      h.traffic.Step (.turn (Caller.closing k).number a) s →
      Step h (.closes k a)
        { h.withShutdown k ((h.shutdowns k).advance (s.calls (Caller.closing k).number)) with
          traffic := s }
  | removes {k : Nat} {c : Call} {a : Answer} {s : Traffic} :
      (h.shutdowns k).phase = .removing c →
      h.traffic.Step (.turn (Caller.removing k).number a) s →
      Step h (.removes k a)
        { h.withShutdown k ((h.shutdowns k).advance (s.calls (Caller.removing k).number)) with
          traffic := s }
  /-- A step of those who use the handle, or one that only says something about the pool. -/
  | aside {l : Database.Label} {s : Traffic} : h.traffic.Step l s →
      (∀ i a, l = .turn i a → ∃ j, i = (Caller.other j).number) →
      Step h (.aside l) { h with traffic := s }
  | passes {time : Nat} : h.now ≤ time → Step h .passes { h with now := time }
  | drops : Step h .drops { h with store := { h.store with stopping := true } }

/-- A run from one state of a store to another. -/
inductive Run (h : Household) : List Label → Household → Prop
  | start : Run h [] h
  | step {ls : List Label} {l : Label} {m h' : Household} : Run h ls m → m.Step l h' →
      Run h (ls ++ [l]) h'

/-- What every step keeps, every run keeps. -/
theorem Run.preserves {P : Household → Prop}
    (hP : ∀ {m m' : Household} {l : Label}, m.Step l m' → P m → P m') {h h' : Household}
    {ls : List Label} (hrun : h.Run ls h') (h₀ : P h) : P h' := by
  induction hrun with
  | start => exact h₀
  | step _ hstep ih => exact hP hstep ih

/-- A turn of one caller leaves the calls of the others alone. -/
theorem call_of_ne {h : Household} {me who : Caller} {a : Answer} {s : Traffic} (hme : me ≠ who)
    (hs : h.traffic.Step (.turn who.number a) s) : s.calls me.number = h.call me := by
  apply hs.calls_of_ne
  intro a' ha
  rw [Database.Label.turn.injEq, Caller.number_inj] at ha
  exact hme ha.1.symm

variable {h h' : Household} {l : Label}

/-- A step of a store is a step on its handle, or it leaves the handle and the calls alone. -/
theorem Step.traffic (hstep : h.Step l h') :
    h'.traffic = h.traffic ∨ ∃ l', h.traffic.Step l' h'.traffic := by
  cases hstep with
  | begins | ticks | ends | enters | joins | passes | drops => exact .inl rfl
  | works _ _ _ hs | closes _ hs | removes _ hs | aside hs => exact .inr ⟨_, hs⟩

theorem Run.traffic {ls : List Label} (hrun : h.Run ls h') :
    ∃ ls', h.traffic.Run ls' h'.traffic := by
  induction hrun with
  | start => exact ⟨[], .start⟩
  | step _ hstep ih =>
    obtain ⟨ls', hrun⟩ := ih
    rcases hstep.traffic with hsame | ⟨l', hs⟩
    · exact ⟨ls', hsame ▸ hrun⟩
    · exact ⟨_, hrun.step hs⟩

/-- Whatever goes on in a store, a call remains what was asked for. -/
theorem Run.request {ls : List Label} (hrun : h.Run ls h') (who : Caller) :
    (h'.call who).request = (h.call who).request := by
  obtain ⟨ls', hs⟩ := hrun.traffic
  exact hs.request who.number

end Household

end SingleWriter
