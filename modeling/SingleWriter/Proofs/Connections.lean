import SingleWriter.Proofs.Trials

/-! The connections of a run.  A call frees every connection that it has got, once; a connection
that is freed is at rest without a transaction, or closed and gone, and one that is gone does not
come back.  The pool lends what the calls hold, and a connection that is freed is lent no more. -/

namespace SingleWriter.Write

/-! ### What a call gets and frees -/

section

variable {α : Type}

def Turn.acquired? (t : Turn α) : Option ConnectionId :=
  match t.answer with
  | .acquired on => some on
  | _ => none

def Turn.frees (t : Turn α) : List ConnectionId := t.effects.filterMap Effect.frees?

/-- Whether a step gives the connection to a call. -/
def Label.Acquires (c : ConnectionId) : Label α → Prop
  | .turn _ t => t.acquired? = some c
  | _ => False

theorem frees_eq_nil {es : List Effect} (h : ∀ e ∈ es, e.frees? = none) :
    es.filterMap Effect.frees? = [] := by
  rw [List.filterMap_eq_nil_iff]
  exact h

theorem frees_conclude (c : Call α) (p : RetryPolicy) (m : Moment) (o : Except WriteError α)
    (first : List Effect) :
    (Call.conclude p first (c.settle p m o)).2.filterMap Effect.frees? =
      first.filterMap Effect.frees? := by
  simp only [Call.conclude, List.filterMap_append]
  rw [frees_eq_nil (unlocking_frees p), frees_eq_nil (c.settle_frees p m o)]
  simp

theorem Call.settle_connection (c : Call α) (p : RetryPolicy) (m : Moment)
    (o : Except WriteError α) : (c.settle p m o).1.connection? = none := by
  cases o with
  | ok v => rfl
  | error e => exact (c.settle_bare p m e).connection?

theorem Advance.connections {p : RetryPolicy} {m : Moment} {t : Trial α} {c : Call α}
    {a : Answer α} {next : Call α × List Effect} (h : Advance p m t c a next) :
    c.connection?.toList ++ (Turn.acquired? ⟨c.attempt, c.phase, a, next.2⟩).toList =
      next.2.filterMap Effect.frees? ++ next.1.connection?.toList := by
  have hconclude (first : List Effect) (o : Except WriteError α) :
      (Call.conclude p first (c.settle p m o)).2.filterMap Effect.frees? ++
          (Call.conclude p first (c.settle p m o)).1.connection?.toList =
        first.filterMap Effect.frees? := by
    rw [frees_conclude, Call.conclude, Call.settle_connection]
    simp
  cases h with
  | line hp | acquire hp | start hp | work hp | undo hp | revert hp | again hp | wake hp =>
    simp [Call.connection?, hp, Turn.acquired?, Call.cancelAfter, Effect.frees?]
  | enter hp =>
    rcases hp with ⟨hp, _⟩ | hp <;> simp [Call.connection?, hp, Turn.acquired?]
  | stop hp =>
    rcases hp with hp | hp <;>
      simp [Call.connection?, hp, Turn.acquired?, Call.cancelAfter, Effect.frees?]
  | refuse hp | halt hp | keep hp | restore hp | abandon hp =>
    rw [hconclude]
    simp [Call.connection?, hp, Turn.acquired?, Effect.frees?]

/-- A call has freed the connections that it got, but for the one that it holds. -/
theorem Course.connections {p : RetryPolicy} {name : String} {moment : Nat → Moment}
    {trial : Nat → Trial α} {c : Call α} {ts : List (Turn α)}
    (h : Course p name moment trial c ts) :
    ts.filterMap Turn.acquired? = ts.flatMap Turn.frees ++ c.connection?.toList := by
  induction h with
  | start => rfl
  | @turn c ts a _ ha ih =>
    have hadvance := (ha.advance (p := p) (m := moment c.attempt)).connections
    rw [List.filterMap_append, List.flatMap_append, ih]
    simp only [List.filterMap_cons, List.filterMap_nil, List.flatMap_singleton, Turn.frees]
    rw [List.append_assoc, List.append_assoc, ← hadvance]
    congr 2

theorem Advance.frees {p : RetryPolicy} {m : Moment} {t : Trial α} {c : Call α} {a : Answer α}
    {next : Call α × List Effect} (h : Advance p m t c a next) {on : ConnectionId}
    (hon : on ∈ next.2.filterMap Effect.frees?) :
    c.connection? = some on ∧ next.1.connection? = none := by
  have hconclude {first : List Effect} {o : Except WriteError α}
      (h : on ∈ (Call.conclude p first (c.settle p m o)).2.filterMap Effect.frees?) :
      on ∈ first.filterMap Effect.frees? := by rwa [frees_conclude] at h
  cases h with
  | line | enter | stop | acquire | start | work | undo | revert | again | wake =>
    simp [Call.cancelAfter, Effect.frees?] at hon
  | refuse => simpa using hconclude hon
  | halt hp | keep hp | restore hp | abandon hp =>
    obtain rfl : on = _ := by simpa [Effect.frees?] using hconclude hon
    exact ⟨by rw [Call.connection?, hp], Call.settle_connection ..⟩

end

namespace Scene

variable {K Q R α : Type} {b : Backend K Q R} {w : Workload Q R α} {s s' s₀ m : Scene b α} {i : Nat}
  {ls : List (Label α)} {l : Label α} {on : ConnectionId}

/-! ### Connections that are lent -/

/-- The pool lends the connections that the calls hold, once each, besides those of `before`. -/
structure Lends (before : List ConnectionId) (s : Scene b α) : Prop where
  held : ∀ {j c}, s.Holds j c → s.pool.lent.count c = before.count c + 1
  free : ∀ {c}, (∀ j, ¬s.Holds j c) → s.pool.lent.count c = before.count c

section Lends

variable {before : List ConnectionId} {c : Call α} {state state' : b.State} {pool pool' : Pool}
  {next : ConnectionId} {a : Answer α}

theorem Initial.lends (h : s.Initial w) : s.Lends s.pool.lent :=
  ⟨fun hc => absurd hc (h.free _ _), fun _ => rfl⟩

theorem Lends.mem (h : s.Lends before) (hon : s.Holds i on) : on ∈ s.pool.lent := by
  rw [← List.count_pos_iff, h.held hon]
  exact Nat.succ_pos _

theorem Lends.not_mem (h : s.Lends before) (hon : ∀ j, ¬s.Holds j on) (hbefore : on ∉ before) :
    on ∉ s.pool.lent := by
  rw [← List.count_eq_zero, h.free hon]
  exact List.count_eq_zero.mpr hbefore

theorem Lends.same (h : s.Lends before) (hlent : s'.pool.lent = s.pool.lent)
    (hholds : ∀ j d, s'.Holds j d ↔ s.Holds j d) : s'.Lends before := by
  refine ⟨fun hd => ?_, fun hd => ?_⟩
  · rw [hlent]
    exact h.held ((hholds _ _).mp hd)
  · rw [hlent]
    exact h.free fun j hj => hd j ((hholds _ _).mpr hj)

/-- Call `i` holds after its step what it held before. -/
theorem Lends.keeps (h : s.Lends before) (hbecomes : s.Becomes i c state pool next s')
    (hlent : pool.lent = s.pool.lent) (hc : c.connection? = (s.calls i).connection?) :
    s'.Lends before := by
  refine h.same (by rw [hbecomes.pool, hlent]) fun j d => ?_
  rw [hbecomes.holds_iff, hc]
  by_cases hj : j = i
  · subst hj
    simp [Holds]
  · simp [hj]

/-- Call `i` gets a connection that nobody holds. -/
theorem Lends.takes (h : s.Lends before) (hbecomes : s.Becomes i c state pool next s')
    (hlent : pool.lent = on :: s.pool.lent) (hfree : ∀ j, ¬s.Holds j on)
    (hnone : (s.calls i).connection? = none) (hc : c.connection? = some on) :
    s'.Lends before := by
  have hon : s'.Holds i on := hbecomes.holds_iff.mpr (.inl ⟨rfl, hc⟩)
  refine ⟨fun {j d} hd => ?_, fun {d} hd => ?_⟩
  · rw [hbecomes.pool, hlent]
    rcases hbecomes.holds hd with ⟨-, hd⟩ | ⟨-, hd⟩
    · obtain rfl := Option.some.inj (hc.symm.trans hd)
      rw [List.count_cons_self, h.free hfree]
    · have hne : on ≠ d := by
        rintro rfl
        exact hfree j hd
      rw [List.count_cons_of_ne hne, h.held hd]
  · have hne : on ≠ d := by
      rintro rfl
      exact hd i hon
    rw [hbecomes.pool, hlent, List.count_cons_of_ne hne]
    refine h.free fun j hj => hd j (hbecomes.holds_iff.mpr (.inr ⟨?_, hj⟩))
    rintro rfl
    rw [Holds, hnone] at hj
    cases hj

/-- Call `i` frees the connection that it holds. -/
theorem Lends.gives (h : s.Lends before) (hhoused : s.Housed)
    (hbecomes : s.Becomes i c state pool next s') (hlent : pool.lent = s.pool.lent.erase on)
    (hon : s.Holds i on) (hc : c.connection? = none) : s'.Lends before := by
  refine ⟨fun {j d} hd => ?_, fun {d} hd => ?_⟩
  · rcases hbecomes.holds hd with ⟨-, hd⟩ | ⟨hj, hd⟩
    · rw [hc] at hd
      cases hd
    · have hne : d ≠ on := by
        rintro rfl
        exact hhoused.alone hon j hj hd
      rw [hbecomes.pool, hlent, List.count_erase_of_ne hne]
      exact h.held hd
  · rw [hbecomes.pool, hlent]
    by_cases hdon : d = on
    · rw [hdon, List.count_erase_self, h.held hon, Nat.add_sub_cancel]
    · rw [List.count_erase_of_ne hdon]
      refine h.free fun j hj => hd j (hbecomes.holds_iff.mpr (.inr ⟨?_, hj⟩))
      rintro rfl
      exact hdon (Option.some.inj (hj.symm.trans hon))

theorem Freed.lent (h : Freed on state pool state' pool') : pool'.lent = pool.lent.erase on := by
  cases h <;> rfl

theorem Lends.turned (h : s.Lends before) (hhoused : s.Housed) (ht : Turned w s i a s') :
    s'.Lends before := by
  cases ht with
  | bare hp _ hc hpool hbecomes =>
    exact h.keeps hbecomes hpool.2 (hc.connection?.trans hp.connection?.symm)
  | lent hp hserve hbecomes =>
    have hmem := Pool.mem_idle_of_lends hserve
    exact h.takes hbecomes (Pool.lends hserve).2 (fun j hj => hhoused.held_apart hj hmem)
      (by rw [Call.connection?, hp]) rfl
  | opened hp hbecomes =>
    exact h.takes hbecomes rfl (fun j hj => Nat.lt_irrefl _ (hhoused.held_lt hj))
      (by rw [Call.connection?, hp]) rfl
  | begun hp _ hbecomes | worked hp _ hbecomes | failed hp _ hbecomes | uncommitted hp _ hbecomes =>
    exact h.keeps hbecomes rfl (holds_of_phase hp rfl).symm
  | committed hp _ hfreed _ hbecomes =>
    exact h.gives hhoused hbecomes hfreed.lent (holds_of_phase hp rfl) rfl
  | unbegun hp _ hfreed _ hc hbecomes | restored hp _ hfreed _ hc hbecomes =>
    exact h.gives hhoused hbecomes hfreed.lent (holds_of_phase hp rfl) hc.connection?
  | abandoned hp _ hc hbecomes =>
    exact h.gives hhoused hbecomes rfl (holds_of_phase hp rfl) hc.connection?

theorem Lends.step (h : s.Lends before) (hhoused : s.Housed) (hstep : s.Step w l s') :
    s'.Lends before := by
  cases hstep with
  | turn keep hserves => exact h.turned hhoused (hserves.turned keep)
  | invoke | ask | lineUp | queue | refill => exact h.same rfl fun _ _ => .rfl
  | place hserve => exact h.same (Pool.places hserve).2 fun _ _ => .rfl
  | renew hserve => exact h.same (Pool.replace_lent hserve) fun _ _ => .rfl

theorem Run.lent (hb : b.Lawful) (h : s₀.Initial w) (hrun : s₀.Run w ls s) :
    s.Lends s₀.pool.lent := by
  induction hrun with
  | start => exact h.lends
  | step hrun hstep ih => exact ih.step (h.sound.run hb hrun).toHoused hstep

end Lends

/-! ### Connections that are gone -/

/-- The connection was there once, and nobody will get it again. -/
structure Gone (s : Scene b α) (on : ConnectionId) : Prop where
  lt : on < s.next
  idle : on ∉ s.pool.idle
  held : ∀ j, ¬s.Holds j on

section Gone

variable {c : Call α} {state : b.State} {pool : Pool} {next : ConnectionId} {a : Answer α}

theorem Gone.becomes (h : s.Gone on) (hbecomes : s.Becomes i c state pool next s')
    (hnext : s.next ≤ next) (hidle : on ∉ pool.idle) (hc : c.connection? ≠ some on) :
    s'.Gone on := by
  refine ⟨?_, by rwa [hbecomes.pool], fun j hj => ?_⟩
  · rw [hbecomes.next]
    exact Nat.lt_of_lt_of_le h.lt hnext
  · rcases hbecomes.holds hj with ⟨-, hj⟩ | ⟨-, hj⟩
    · exact hc hj
    · exact h.held j hj

theorem Housed.gone (h : s.Housed) (hon : s.Holds i on)
    (hbecomes : s.Becomes i c state pool s.next s') (hidle : pool.idle = s.pool.idle)
    (hc : c.connection? = none) : s'.Gone on := by
  refine ⟨?_, ?_, fun j hj => ?_⟩
  · rw [hbecomes.next]
    exact h.held_lt hon
  · rw [hbecomes.pool, hidle]
    exact h.held_apart hon
  · rcases hbecomes.holds hj with ⟨-, hj⟩ | ⟨hne, hj⟩
    · rw [hc] at hj
      cases hj
    · exact h.alone hon j hne hj

theorem Gone.freed (h : s.Gone on) {other : ConnectionId} (hother : s.Holds i other)
    {state' : b.State} (hfreed : Freed other state s.pool state' pool) : on ∉ pool.idle := by
  cases hfreed with
  | kept =>
    intro hmem
    rcases List.mem_append.mp hmem with hmem | hmem
    · exact h.idle hmem
    · rw [List.mem_singleton] at hmem
      subst hmem
      exact h.held i hother
  | closed => exact h.idle

theorem Gone.turned (h : s.Gone on) (ht : Turned w s i a s') : s'.Gone on := by
  have keeps {other : ConnectionId} (hother : s.Holds i other) : some other ≠ some on :=
    fun heq => h.held i (hother.trans heq)
  have hnone {c : Call α} (hc : c.phase.Bare) : c.connection? ≠ some on := by
    rw [hc.connection?]
    simp
  cases ht with
  | bare _ _ hc hpool hbecomes =>
    exact h.becomes hbecomes (Nat.le_refl _) (by rw [hpool.1]; exact h.idle) (hnone hc)
  | lent _ hserve hbecomes =>
    refine h.becomes hbecomes (Nat.le_refl _)
      (fun hmem => h.idle (Pool.mem_idle_of_lends_of_mem hserve hmem)) (fun heq => ?_)
    cases heq
    exact h.idle (Pool.mem_idle_of_lends hserve)
  | opened _ hbecomes =>
    refine h.becomes hbecomes (Nat.le_succ _) h.idle (fun heq => ?_)
    cases heq
    exact Nat.lt_irrefl _ h.lt
  | begun hp _ hbecomes | worked hp _ hbecomes | failed hp _ hbecomes | uncommitted hp _ hbecomes =>
    exact h.becomes hbecomes (Nat.le_refl _) h.idle (keeps (holds_of_phase hp rfl))
  | committed hp _ hfreed _ hbecomes =>
    exact h.becomes hbecomes (Nat.le_refl _) (h.freed (holds_of_phase hp rfl) hfreed)
      (by simp [Call.connection?])
  | unbegun hp _ hfreed _ hc hbecomes | restored hp _ hfreed _ hc hbecomes =>
    exact h.becomes hbecomes (Nat.le_refl _) (h.freed (holds_of_phase hp rfl) hfreed) (hnone hc)
  | abandoned _ _ hc hbecomes => exact h.becomes hbecomes (Nat.le_refl _) h.idle (hnone hc)

theorem Serves.acquired (h : s.Serves i a s') (ha : a = .acquired on) :
    on ∈ s.pool.idle ∨ on = s.next := by
  cases h with
  | lent _ hserve =>
    cases ha
    exact .inl (Pool.mem_idle_of_lends hserve)
  | opened =>
    cases ha
    exact .inr rfl
  | checked _ hor | woken _ hor => rcases hor with rfl | rfl <;> cases ha
  | entered | left | refused => cases ha
  | @begins on r | @commit on v r | @rollback on e r => cases r <;> cases ha
  | @worked on r => cases r <;> cases ha

theorem Gone.step (h : s.Gone on) (hstep : s.Step w l s') : ¬l.Acquires on ∧ s'.Gone on := by
  cases hstep with
  | @turn i a t keep hserves =>
    refine ⟨fun hacquires => ?_, h.turned (hserves.turned keep)⟩
    have ha : a = .acquired on := by
      simp only [Label.Acquires, Turn.acquired?, turn] at hacquires
      split at hacquires
      · cases hacquires
        rfl
      · cases hacquires
    rcases hserves.acquired ha with hmem | rfl
    · exact h.idle hmem
    · exact Nat.lt_irrefl _ h.lt
  | invoke | ask | lineUp | queue => exact ⟨id, h.lt, h.idle, h.held⟩
  | place hserve => exact ⟨id, h.lt, by rw [(Pool.places hserve).1]; exact h.idle, h.held⟩
  | @renew i c p hserve =>
    exact ⟨id, h.lt, fun hmem => h.idle (Pool.mem_idle_of_lends_of_mem hserve hmem), h.held⟩
  | refill =>
    refine ⟨id, Nat.lt_succ_of_lt h.lt, fun hmem => ?_, h.held⟩
    rcases List.mem_append.mp hmem with hmem | hmem
    · exact h.idle hmem
    · rw [List.mem_singleton] at hmem
      subst hmem
      exact Nat.lt_irrefl _ h.lt

theorem Gone.run (h : s.Gone on) (hrun : s.Run w ls s') :
    (∀ l ∈ ls, ¬l.Acquires on) ∧ s'.Gone on := by
  induction hrun with
  | start => exact ⟨by simp, h⟩
  | step _ hstep ih =>
    obtain ⟨hnot, hgone⟩ := ih
    obtain ⟨hl, hgone'⟩ := hgone.step hstep
    refine ⟨fun l hmem => ?_, hgone'⟩
    rcases List.mem_append.mp hmem with hmem | hmem
    · exact hnot l hmem
    · rw [List.mem_singleton] at hmem
      rw [hmem]
      exact hl

/-- A step closes a connection, which leaves the pool. -/
structure Closes (s : Scene b α) (on : ConnectionId) (s' : Scene b α) : Prop where
  state : ∃ state, s'.state = b.close state on
  pool : s'.pool = s.pool.forget on
  idle : on ∉ s'.pool.idle

theorem Step.turned {t : Turn α} (h : s.Step w (.turn i t) s') :
    t.effects = (s.resumed w i t.answer).2 ∧ Turned w s i t.answer s' := by
  generalize hl : Label.turn i t = l at h
  cases h with
  | turn keep hserves =>
    cases hl
    exact ⟨rfl, hserves.turned keep⟩
  | _ => cases hl

/-- A connection that a call frees is the one that it holds. -/
theorem Step.freed {t : Turn α} (h : s.Step w (.turn i t) s') (hon : on ∈ t.frees) :
    s.Holds i on ∧ (s'.calls i).connection? = none := by
  rcases h.answers i with ⟨hl, -⟩ | ⟨a, u, hl, hcalls, hu, -⟩
  · simp [Label.turnOf?] at hl
  · obtain rfl : t = s.turn w i a := by simpa [Label.turnOf?] using hl
    rw [hcalls]
    exact (hu.advance (p := w.policy) (m := w.moment i (s.calls i).attempt)).frees hon

/-- A connection that a call frees is at rest without a transaction, or closed and gone.  One that
it discards is gone. -/
theorem Sound.frees (hb : b.Lawful) (h : s.Sound w) {t : Turn α}
    (hstep : s.Step w (.turn i t) s') (hon : on ∈ t.frees) :
    on ∈ s'.pool.idle ∧ b.stance s'.state on = .idle ∧ .discard on ∉ t.effects ∨
      s.Closes on s' ∧ s'.Gone on := by
  have hsound := h.step hb hstep
  obtain ⟨hheld, hafter⟩ := hstep.freed hon
  obtain ⟨heffects, hturned⟩ := hstep.turned
  generalize t.answer = a at heffects hturned
  rw [heffects]
  have hat {other : ConnectionId} (hother : s.Holds i other) : other = on :=
    Option.some.inj (hother.symm.trans hheld)
  have hno {c : Call α} {state : b.State} {pool : Pool} {next other : ConnectionId}
      (hbecomes : s.Becomes i c state pool next s') (hc : c.connection? = some other) : False := by
    rw [hbecomes.calls, Function.update_self, hc] at hafter
    cases hafter
  have hclosed {c : Call α} {state : b.State}
      (hbecomes : s.Becomes i c (b.close state on) (s.pool.forget on) s.next s')
      (hc : c.connection? = none) : s.Closes on s' ∧ s'.Gone on :=
    have hgone := h.gone hheld hbecomes rfl hc
    ⟨⟨⟨_, hbecomes.state⟩, hbecomes.pool, hgone.idle⟩, hgone⟩
  have hfreed {c : Call α} {state state' : b.State} {pool : Pool}
      (hbecomes : s.Becomes i c state' pool s.next s') (hc : c.connection? = none)
      (hf : Freed on state s.pool state' pool) (hdiscard : .discard on ∉ (s.resumed w i a).2) :
      on ∈ s'.pool.idle ∧ b.stance s'.state on = .idle ∧
        .discard on ∉ (s.resumed w i a).2 ∨ s.Closes on s' ∧ s'.Gone on := by
    cases hf with
    | kept =>
      have hmem : on ∈ s'.pool.idle := by
        rw [hbecomes.pool]
        exact List.mem_append_right _ (List.mem_singleton_self _)
      exact .inl ⟨hmem, hsound.idle_rest on hmem, hdiscard⟩
    | closed => exact .inr (hclosed hbecomes hc)
  cases hturned with
  | bare hp =>
    rw [Holds, hp.connection?] at hheld
    cases hheld
  | lent hp | opened hp =>
    rw [Holds, Call.connection?, hp] at hheld
    cases hheld
  | begun _ _ hbecomes | worked _ _ hbecomes | failed _ _ hbecomes | uncommitted _ _ hbecomes =>
    exact (hno hbecomes rfl).elim
  | committed hp _ hf hdiscard hbecomes =>
    obtain rfl := hat (holds_of_phase hp rfl)
    exact hfreed hbecomes rfl hf (hdiscard _)
  | unbegun hp _ hf hdiscard hc hbecomes | restored hp _ hf hdiscard hc hbecomes =>
    obtain rfl := hat (holds_of_phase hp rfl)
    exact hfreed hbecomes hc.connection? hf (hdiscard _)
  | abandoned hp _ hc hbecomes =>
    obtain rfl := hat (holds_of_phase hp rfl)
    exact .inr (hclosed hbecomes hc.connection?)

end Gone

end Scene

end SingleWriter.Write
