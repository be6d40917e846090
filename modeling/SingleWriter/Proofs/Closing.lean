import SingleWriter.Proofs.Handle

/-! The end of a handle.  The call that closes it leaves nothing behind, as long as nobody was
connecting when it came: once it is over, the pool is closed and empty for good, and nothing is
built or committed any more.  Another call that closes the handle does not wait for the first one,
and nobody waits for a pool that is still being built. -/

namespace SingleWriter.Database

/-- Whether a step builds a pool or commits a transaction. -/
def Label.Works : Label → Prop
  | .turn _ (.built _) => True
  | .commit _ => True
  | _ => False

namespace Traffic

variable {s s' t : Traffic} {i : Nat} {a : Answer} {c : Call} {db : Database} {es : List Effect}

/-! ### Sealed handles -/

/-- The handle is closed, and no pool will be built for it any more. -/
structure Sealed (s : Traffic) : Prop where
  closed : s.handle.closed = true
  building : ∀ j, (s.calls j).phase ≠ .building
  waiting : s.handle.pool = none → ∀ j, (s.calls j).phase ≠ .waiting

theorem Sealed.adjusts (ha : s.Adjusts s') (h : s.Sealed) : s'.Sealed := by
  refine ⟨by rw [ha.closed, h.closed], fun j => by rw [ha.calls]; exact h.building j,
    fun hnone j => ?_⟩
  rw [ha.calls]
  exact h.waiting (ha.unpooled hnone) j

/-- An answer leaves a sealed handle as it is, and no other call begins to close it. -/
theorem Sealed.goes (hr : Resumed (s.calls i) s.handle (c, db, es)) (h : s.Sealed) :
    db = s.handle ∧ c.request = (s.calls i).request ∧ c.phase ≠ .building ∧
      (c.phase = .waiting → (s.calls i).phase = .waiting) ∧
      ((s.calls i).closing = false → c.closing = false) := by
  have hclosed := h.closed
  cases hr with
  | goes hrequest hbuilding hwaiting hclosing =>
    refine ⟨rfl, hrequest, hbuilding, fun hc => (hwaiting hc).resolve_left ?_, hclosing⟩
    simp [hclosed]
  | builds hor hpool _ =>
    rcases hor with hopen | hwaits
    · rw [hopen] at hclosed
      cases hclosed
    · exact absurd hwaits (h.waiting hpool i)
  | built hbuilding => exact absurd hbuilding (h.building i)
  | closes _ hopen =>
    rw [hopen] at hclosed
    cases hclosed

theorem Sealed.resumed (hr : Resumed (s.calls i) s.handle (c, db, es)) (h : s.Sealed) :
    (s.become i c db).Sealed := by
  obtain ⟨rfl, -, hbuilding, hwaiting, -⟩ := h.goes hr
  refine ⟨h.closed, fun j => ?_, fun hnone j => ?_⟩ <;>
    rcases s.become_calls i c s.handle j with ⟨-, he⟩ | ⟨-, he⟩ <;> rw [he]
  · exact hbuilding
  · exact h.building j
  · exact fun hc => h.waiting hnone i (hwaiting hc)
  · exact h.waiting hnone j

/-- The handle is closed for good: no call is still closing it or building its pool, and a pool
that was built is closed and empty. -/
structure Shut (s : Traffic) : Prop extends s.Sealed where
  closing : ∀ j, (s.calls j).closing = false
  pool : ∀ p, s.handle.pool = some p → p.Over

theorem Adjusts.keeps (ha : s.Adjusts s') {P : Pool → Prop}
    (hP : ∀ {p p' : Pool}, p.Step p' → P p → P p') {p : Pool} (hp : s.handle.pool = Option.some p)
    (h : P p) : ∃ p', s'.handle.pool = Option.some p' ∧ P p' := by
  obtain ⟨p', hp', hsteps⟩ := ha.some hp
  refine ⟨p', hp', ?_⟩
  clear hp'
  induction hsteps with
  | refl => exact h
  | tail _ hstep ih => exact hP hstep ih

theorem Shut.adjusts (ha : s.Adjusts s') (h : s.Shut) : s'.Shut :=
  ⟨h.toSealed.adjusts ha, fun j => by rw [ha.calls]; exact h.closing j,
    ha.all Pool.Step.over h.pool⟩

theorem Shut.resumed (hr : Resumed (s.calls i) s.handle (c, db, es)) (h : s.Shut) :
    (s.become i c db).Shut := by
  refine ⟨h.toSealed.resumed hr, fun j => ?_, ?_⟩
  · obtain ⟨-, -, -, -, hclosing⟩ := h.toSealed.goes hr
    rcases s.become_calls i c db j with ⟨-, he⟩ | ⟨-, he⟩ <;> rw [he]
    · exact hclosing (h.closing i)
    · exact h.closing j
  · obtain ⟨rfl, -⟩ := h.toSealed.goes hr
    exact h.pool

theorem Shut.step {l : Label} (hstep : s.Step l s') (h : s.Shut) : ¬l.Works ∧ s'.Shut := by
  refine ⟨fun hworks => ?_, hstep.preserves Shut.adjusts Shut.resumed h⟩
  cases hstep with
  | turn keep hserves =>
    cases hserves with
    | built _ _ _ hp => exact h.building _ hp
    | entered | waited | unbuilt | acquired | refused | checkpointed | uncheckpointed | drained
    | unlinked => exact hworks
  | commit hp hc =>
    rw [(h.pool _ hp).lent] at hc
    cases hc
  | giveUp | queue | place | renew | refill | visit | retire => exact hworks

theorem Shut.run {ls : List Label} (hrun : s.Run ls s') (h : s.Shut) :
    s'.Shut ∧ ∀ l ∈ ls, ¬l.Works := by
  induction hrun with
  | start => exact ⟨h, by simp⟩
  | step _ hstep ih =>
    obtain ⟨hshut, hquiet⟩ := ih
    obtain ⟨hl, hshut'⟩ := hshut.step hstep
    refine ⟨hshut', fun l hmem => ?_⟩
    rcases List.mem_append.mp hmem with hmem | hmem
    · exact hquiet l hmem
    · rw [List.mem_singleton.mp hmem]
      exact hl

/-! ### The call that closes a handle -/

/-- How far the call that has closed the handle has come. -/
def Stage (i : Nat) (s : Traffic) : Prop :=
  match (s.calls i).phase with
  | .acquiring => ∃ p, s.handle.pool = some p
  | .checkpointing _ => ∃ p, s.handle.pool = some p
  | .draining => ∃ p, s.handle.pool = some p ∧ p.Shutting
  | .unlinking => ∀ p, s.handle.pool = some p → p.Over
  | .finished _ => ∀ p, s.handle.pool = some p → p.Over
  | _ => False

/-- Call `i` has closed the handle, and no other call is at it. -/
structure Closed (i : Nat) (s : Traffic) : Prop extends s.Sealed where
  request : (s.calls i).request.closes = true
  sole : ∀ j, j ≠ i → (s.calls j).closing = false

theorem Closed.adjusts (ha : s.Adjusts s') (h : s.Closed i) : s'.Closed i := by
  refine ⟨h.toSealed.adjusts ha, ?_, fun j hj => ?_⟩ <;> rw [ha.calls]
  · exact h.request
  · exact h.sole j hj

theorem Closed.resumed {k : Nat} (hr : Resumed (s.calls k) s.handle (c, db, es)) (h : s.Closed i) :
    (s.become k c db).Closed i := by
  obtain ⟨-, hrequest, -, -, hclosing⟩ := h.toSealed.goes hr
  refine ⟨h.toSealed.resumed hr, ?_, fun j hj => ?_⟩
  · rcases s.become_calls k c db i with ⟨rfl, he⟩ | ⟨-, he⟩ <;> rw [he]
    · rw [hrequest]
      exact h.request
    · exact h.request
  · rcases s.become_calls k c db j with ⟨rfl, he⟩ | ⟨-, he⟩ <;> rw [he]
    · exact hclosing (h.sole j hj)
    · exact h.sole j hj

theorem Stage.adjusts (ha : s.Adjusts s') (h : s.Stage i) : s'.Stage i := by
  unfold Stage at h ⊢
  rw [ha.calls]
  cases hp : (s.calls i).phase with
  | acquiring | checkpointing on =>
    rw [hp] at h
    obtain ⟨p, hpool⟩ := h
    obtain ⟨p', hpool', -⟩ := ha.some hpool
    exact ⟨p', hpool'⟩
  | draining =>
    rw [hp] at h
    obtain ⟨p, hpool, hshutting⟩ := h
    exact ha.keeps Pool.Step.shutting hpool hshutting
  | unlinking | finished r =>
    rw [hp] at h
    exact ha.all Pool.Step.over h
  | entering | waiting | building =>
    rw [hp] at h
    exact h.elim

theorem answered_eq {keep : Bool} (h : (s.calls i).resume s.handle a = (c, db, es)) :
    s.answered i keep a = es.foldl (fulfil keep) (s.become i c db) := by
  rw [answered, h]

theorem closePool_shutting {p : Pool} (h : s.handle.pool = some p) :
    ∃ p', s.closePool.handle.pool = some p' ∧ p'.Shutting := by
  refine ⟨p.close.2, ?_, rfl, rfl⟩
  simp only [closePool, h, withPool]

theorem stage_closePool (h : (s.calls i).phase = .draining) {p : Pool}
    (hp : s.handle.pool = some p) : s.closePool.Stage i := by
  have hcalls : s.closePool.calls = s.calls := (Adjusts.fulfil true s .closePool).calls
  unfold Stage
  rw [hcalls, h]
  exact closePool_shutting hp

/-- A call that goes on to drain the pool has closed it. -/
theorem stage_of_draining {keep : Bool} {p : Pool} (first : List Effect)
    (hp : s.handle.pool = some p)
    (hr : (s.calls i).resume s.handle a =
      ({ s.calls i with phase := .draining }, s.handle, first ++ [.closePool])) :
    (s.answered i keep a).Stage i := by
  rw [answered_eq hr, List.foldl_append]
  have hfirst := Adjusts.foldl keep first
    (s.become i { s.calls i with phase := .draining } s.handle)
  obtain ⟨p', hp', -⟩ := hfirst.some hp
  refine stage_closePool ?_ hp'
  rw [hfirst.calls, become_self]

theorem stage_of_through (h : (s.calls i).phase.through = true) :
    s.Stage i ↔ ∀ p, s.handle.pool = some p → p.Over := by
  unfold Stage
  cases hp : (s.calls i).phase with
  | unlinking | finished r => exact Iff.rfl
  | entering | waiting | building | acquiring | checkpointing on | draining =>
    rw [hp] at h
    cases h

/-- A call that comes to its end leaves an empty pool. -/
theorem stage_of_end {keep : Bool} (hover : ∀ p, s.handle.pool = some p → p.Over)
    (hc : c.phase.through = true) (hr : (s.calls i).resume s.handle a = (c, s.handle, [])) :
    (s.answered i keep a).Stage i := by
  rw [answered_eq hr]
  exact (stage_of_through (s := s.become i c s.handle)
    (by rw [become_self, hc])).mpr hover

/-- The call that has closed the handle gets an answer. -/
theorem Stage.served {t : Traffic} (h : s.Stage i) (hc : (s.calls i).request.closes = true)
    (hserves : s.Serves i a t) (keep : Bool) : (t.answered i keep a).Stage i := by
  have ht := h.adjusts hserves.adjusts
  have hcalls := hserves.adjusts.calls
  unfold Stage at h ht
  rw [hcalls] at ht
  cases hserves with
  | entered hp | waited hp | built _ _ _ hp | unbuilt _ hp =>
    rw [hp] at h
    exact h.elim
  | @acquired on _ hp _ =>
    rw [hp] at ht
    have hr : (t.calls i).resume t.handle (.acquired on) =
        ({ s.calls i with phase := .checkpointing on }, t.handle, []) := by
      rw [hcalls]
      simp only [Call.resume, hp, Call.hold_of_closes hc]
    rw [answered_eq hr]
    simp only [List.foldl_nil, Stage, become, Function.update_self]
    exact ht
  | @refused p e hp _ =>
    refine stage_of_draining (p := p.withdraw i) [] rfl ?_
    show (s.calls i).resume _ _ = _
    simp only [Call.resume, hp, Call.refuse_of_closes hc, Call.drain, List.nil_append]
    rfl
  | @checkpointed on r hp | @uncheckpointed on e hp =>
    rw [hp] at h
    obtain ⟨p, hpool⟩ := h
    refine stage_of_draining [.release on] hpool ?_
    simp only [Call.resume, hp, Call.afterCheckpoint_of_closes hc, Call.drain, List.cons_append,
      List.nil_append]
  | @drained p hp hpool hdrained =>
    rw [hp] at h
    obtain ⟨p', hpool', hshutting⟩ := h
    refine stage_of_end (fun q hq => ?_) (s.calls i).afterClose_through
      (by simp only [Call.resume, hp])
    rw [hpool] at hpool' hq
    cases hpool'
    cases hq
    exact hshutting.over hdrained
  | unlinked r hp =>
    rw [hp] at h
    cases r with
    | ok | error =>
      refine stage_of_end h ?_ (by simp only [Call.resume, hp]; rfl)
      rfl

theorem Closed.step {l : Label} (hstep : s.Step l s') (h : s.Closed i) (hstage : s.Stage i) :
    s'.Closed i ∧ s'.Stage i := by
  refine ⟨hstep.preserves Closed.adjusts Closed.resumed h, ?_⟩
  rcases hstep.turn_or_adjusts with ⟨k, a, keep, t, -, hserves, rfl⟩ | ⟨-, hsame⟩
  · by_cases hk : k = i
    · subst hk
      exact hstage.served h.request hserves keep
    · have hadjusted := hserves.adjusts
      have ht := hstage.adjusts hadjusted
      have hgoes := hserves.resumed
      rw [← hadjusted.calls] at hgoes
      generalize hr : (t.calls k).resume t.handle a = next at hgoes
      obtain ⟨c, db, es⟩ := next
      obtain ⟨rfl, -⟩ := (h.toSealed.adjusts hadjusted).goes hgoes
      rw [answered_eq hr]
      refine Stage.adjusts (.foldl keep _ _) ?_
      unfold Stage at ht ⊢
      rw [((t.become_calls k c t.handle i).resolve_left fun hki => hk hki.1.symm).2]
      exact ht
  · exact hstage.adjusts hsame

theorem Closed.run {ls : List Label} (hrun : s.Run ls s') (h : s.Closed i) (hstage : s.Stage i) :
    s'.Closed i ∧ s'.Stage i := by
  induction hrun with
  | start => exact ⟨h, hstage⟩
  | step _ hstep ih => exact ih.1.step hstep ih.2

/-- Call `i` comes to close the handle, which is open, and nobody is connecting. -/
structure Closes (i : Nat) (s : Traffic) : Prop where
  request : (s.calls i).request.closes = true
  phase : (s.calls i).phase = .entering
  opened : s.handle.closed = false
  quiet : s.handle.pool = none →
    ∀ j, (s.calls j).phase ≠ .building ∧ (s.calls j).phase ≠ .waiting

theorem Closes.become (h : s.Closes i) (ho : s.Orderly)
    (hrequest : c.request = (s.calls i).request) (hbuilding : c.phase ≠ .building)
    (hwaiting : c.phase ≠ .waiting) :
    (s.become i c { s.handle with closed := true }).Closed i := by
  have hcases := s.become_calls i c { s.handle with closed := true }
  refine ⟨⟨rfl, fun j => ?_, fun hnone j => ?_⟩, ?_, fun j hj => ?_⟩
  · rcases hcases j with ⟨-, he⟩ | ⟨-, he⟩ <;> rw [he]
    · exact hbuilding
    · exact fun hj => (h.quiet (ho.building hj).1 j).1 hj
  · rcases hcases j with ⟨-, he⟩ | ⟨-, he⟩ <;> rw [he]
    · exact hwaiting
    · exact (h.quiet hnone j).2
  · rw [become_self, hrequest]
    exact h.request
  · rw [((hcases j).resolve_left fun hji => hj hji.1).2]
    exact ho.closing h.opened j

theorem Closes.step (h : s.Closes i) (ho : s.Orderly) (hstep : s.Step (.turn i .proceed) s') :
    s'.Closed i ∧ s'.Stage i := by
  obtain ⟨k, a, keep, t, hl, hserves, rfl⟩ | ⟨hl, -⟩ := hstep.turn_or_adjusts
  · cases hl
    cases hserves with
    | waited hp | drained hp =>
      rw [h.phase] at hp
      cases hp
    | entered =>
      have hr : (s.calls i).resume s.handle .proceed = (s.calls i).enter s.handle := by
        simp only [Call.resume, h.phase]
      have hthrough := (s.calls i).afterClose_through
      rcases Call.enter_of_closes h.request h.opened with ⟨hpool, he⟩ | ⟨⟨p, hpool⟩, he | he⟩ <;>
        rw [he] at hr <;> rw [answered_eq hr]
      · obtain ⟨hbuilding, hwaiting, -⟩ := Phase.through_ends hthrough
        refine ⟨h.become ho (s.calls i).afterClose_request hbuilding hwaiting,
          (stage_of_through (by rwa [List.foldl_nil, become_self])).mpr fun p hp => ?_⟩
        rw [show s.handle.pool = some p from hp] at hpool
        cases hpool
      · refine ⟨h.become ho rfl (by simp) (by simp), ?_⟩
        simp only [List.foldl_nil, Stage, become_self]
        exact ⟨p, hpool⟩
      · have hclosed := h.become ho (c := { s.calls i with phase := .draining }) rfl (by simp)
          (by simp)
        exact ⟨hclosed.adjusts (.foldl keep [.closePool] _),
          stage_closePool (by rw [become_self]) hpool⟩
  · exact absurd rfl (hl i .proceed)

/-- A call that closes the handle while nobody is connecting closes it for good.  Once it is
through, which for one that removes the database is before it deletes the files, no other call is
closing the handle, and the pool, if there ever was one, is closed and empty.  From then on no pool
is built and no transaction commits. -/
theorem closing_is_final {s₀ m m' : Traffic} {ls ls' : List Label} (h : s₀.Initial)
    (hrun : s₀.Run ls m) (hcloses : m.Closes i) (hstep : m.Step (.turn i .proceed) m')
    (hrun' : m'.Run ls' s) (hthrough : (s.calls i).phase.through = true) :
    s.Shut ∧ ∀ ls'' s', s.Run ls'' s' → s'.Shut ∧ ∀ l ∈ ls'', ¬l.Works := by
  have hfirst := hcloses.step (hrun.orderly h.orderly) hstep
  obtain ⟨hclosed, hstage⟩ := hfirst.1.run hrun' hfirst.2
  have hshut : s.Shut := by
    refine ⟨hclosed.toSealed, fun j => ?_, (stage_of_through hthrough).mp hstage⟩
    by_cases hj : j = i
    · rw [hj]
      exact Call.closing_of_through hthrough
    · exact hclosed.sole j hj
  exact ⟨hshut, fun _ _ hrun => hshut.run hrun⟩

/-! ### A writer, and those who close the handle -/

/-- Caller 0 connects, and caller 1 is a writer.  Caller 4 removes the database, and all others
close it. -/
def callers : Nat → Request
  | 0 => .connect
  | 1 => .acquire
  | 4 => .remove
  | _ => .close

def unused : Traffic where
  handle := { path := "app.db", config := {} }
  calls := fun i => { request := callers i }

theorem unused_initial : unused.Initial := ⟨fun _ => rfl, rfl, rfl, rfl⟩

/-- Caller 2 waits for the writer, who commits meanwhile. -/
theorem closing_waits_for_writer :
    ∃ (ls ls' : List Label) (m m' s : Traffic), unused.Run ls m ∧ m.Closes 2 ∧
      m.Step (.turn 2 .proceed) m' ∧ m'.Run ls' s ∧ .commit 0 ∈ ls' ∧
      (s.calls 2).phase = .finished (.ok .done) ∧ s.Shut := by
  have r := Run.start (s := unused)
  have r := r.step (.turn true (.entered (i := 0) rfl))
  have r := r.step (.turn true (.built (i := 0) 1 1 1 rfl))
  have r := r.step (.turn true (.entered (i := 1) rfl))
  have r := r.step (.queue (i := 1) (.inl rfl) rfl)
  have r := r.step (.turn true (.acquired (i := 1) rfl (.idle rfl rfl)))
  have r' := (r.step (.turn true (.entered (i := 2) rfl))).here
  have r' := r'.step (.queue (i := 2) (.inl rfl) rfl)
  have r' := r'.step (.commit (c := 0) rfl (by decide) (by rintro (_ | _ | _ | j) ⟨⟩))
  have r' := r'.step (.giveUp (c := 0) true rfl (by decide) (by rintro (_ | _ | _ | j) ⟨⟩))
  have r' := r'.step (.turn true (.acquired (i := 2) rfl (.idle rfl rfl)))
  have r' := r'.step (.turn true (.checkpointed (i := 2) ⟨false, none⟩ rfl))
  have r' := r'.step (.turn true (.drained (i := 2) rfl rfl rfl))
  refine ⟨_, _, _, _, _, r, ?closes, .turn true (.entered rfl), r', by simp, rfl,
    (closing_is_final unused_initial r ?closes (.turn true (.entered rfl)) r' rfl).1⟩
  exact ⟨rfl, rfl, rfl, fun h => absurd h (Option.some_ne_none _)⟩

/-- Caller 3 is told that the handle is closed, and caller 4 deletes the files, while caller 2
still waits for the writer.  The writer commits after that. -/
theorem second_close_returns_early :
    ∃ (ls : List Label) (m s : Traffic), unused.Run ls m ∧
      (m.calls 2).phase = .acquiring ∧ (m.calls 3).phase = .finished (.ok .done) ∧
      (m.calls 4).phase = .finished (.ok .done) ∧ m.Step (.commit 0) s := by
  have r := Run.start (s := unused)
  have r := r.step (.turn true (.entered (i := 0) rfl))
  have r := r.step (.turn true (.built (i := 0) 1 1 1 rfl))
  have r := r.step (.turn true (.entered (i := 1) rfl))
  have r := r.step (.queue (i := 1) (.inl rfl) rfl)
  have r := r.step (.turn true (.acquired (i := 1) rfl (.idle rfl rfl)))
  have r := r.step (.turn true (.entered (i := 2) rfl))
  have r := r.step (.queue (i := 2) (.inl rfl) rfl)
  have r := r.step (.turn true (.entered (i := 3) rfl))
  have r := r.step (.turn true (.entered (i := 4) rfl))
  have r := r.step (.turn true (.unlinked (i := 4) (.ok ()) rfl))
  exact ⟨_, _, _, r, rfl, rfl, rfl,
    .commit rfl (by decide) (by rintro (_ | _ | _ | _ | _ | j) ⟨⟩)⟩

/-- Caller 3 is told that the handle is closed while the pool is being built.  The pool stays open,
and caller 0 commits on it. -/
theorem close_misses_pool_being_built :
    ∃ (ls : List Label) (m s : Traffic), unused.Run ls m ∧
      (m.calls 3).phase = .finished (.ok .done) ∧ m.handle.building = true ∧
      ∃ ls', m.Run ls' s ∧ .commit 0 ∈ ls' ∧ ∃ p, s.handle.pool = some p ∧ p.closed = false := by
  have r := Run.start (s := unused)
  have r := r.step (.turn true (.entered (i := 0) rfl))
  have r := r.step (.turn true (.entered (i := 3) rfl))
  have r' := r.here
  have r' := r'.step (.turn true (.built (i := 0) 1 1 1 rfl))
  have r' := r'.step (.queue (i := 0) (.inr ⟨rfl, rfl⟩) rfl)
  have r' := r'.step (.visit (i := 0) ⟨rfl, rfl⟩ (.idle rfl rfl))
  have r' := r'.step (.commit (c := 0) rfl (by decide) (by rintro (_ | _ | _ | _ | j) ⟨⟩))
  exact ⟨_, _, _, r, rfl, rfl, _, r', by simp, _, rfl, rfl⟩

end Traffic

end SingleWriter.Database
