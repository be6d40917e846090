import SingleWriter.Proofs.Condition

/-! The life of a handle.  A call that is made while no other one is on its way follows the table of
moves (`Ends.leads`), and so do completed calls, one after the other (`lifecycle`). -/

namespace SingleWriter.Database

namespace Traffic

/-- Completed calls on a handle, one after the other.  Between the turns of a call and between calls
those who have got a connection or the pool go on to use it. -/
inductive Usage (s : Traffic) : List Visit → Traffic → Prop
  | start : Usage s [] s
  | aside {vs : List Visit} {m s' : Traffic} {l : Label} : Usage s vs m → m.Step l s' →
      (∀ j a, l ≠ .turn j a) → Usage s vs s'
  | visit {vs : List Visit} {m s' : Traffic} {i : Nat} {as : List Answer}
      {r : Except ConnectionError Product} : Usage s vs m → (m.calls i).phase = .entering →
      m.Ends i as r s' → Usage s (vs ++ [⟨m.handle.condition, (m.calls i).request, as, r⟩]) s'

variable {s s' : Traffic} {i : Nat} {as : List Answer} {r : Except ConnectionError Product}
  {db : Database} {q : Request}

/-- A completed call that follows the table has left the handle `db` as `db'`. -/
structure Leads (db : Database) (q : Request) (as : List Answer)
    (r : Except ConnectionError Product) (db' : Database) : Prop where
  move : Move db.config.enableWal db.path ⟨db.condition, q, as, r⟩ db'.condition
  path : db'.path = db.path
  config : db'.config = db.config
  building : db'.building = false

theorem Leads.alike {db'' : Database} (db' : Database) (h : Leads db q as r db')
    (ha : db'.Alike db'') : Leads db q as r db'' := by
  obtain ⟨hmove, hpath, hconfig, hbuilding⟩ := h
  cases ha <;> exact ⟨hmove, hpath, hconfig, hbuilding⟩

/-! ### Calls that close the handle -/

theorem At.parting {φ : Phase} (h : s.At i (Call.afterClose ⟨q, φ⟩) db) (hq : q.closes = true)
    (hends : s.Ends i as r s') : Parting q as r ∧ db.Alike s'.handle := by
  cases q with
  | close =>
    obtain ⟨rfl, rfl, hdb⟩ := h.finished rfl hends
    exact ⟨.closed, hdb⟩
  | remove =>
    obtain ⟨a, as', m, rfl, ha, hm, hrest⟩ := h.next (by simp [Call.afterClose]) hends
    cases ha with
    | unlinked x =>
      cases x with
      | ok =>
        obtain ⟨rfl, rfl, hdb⟩ := hm.finished rfl hrest
        exact ⟨.removed, hdb⟩
      | error e =>
        obtain ⟨rfl, rfl, hdb⟩ := hm.finished rfl hrest
        exact ⟨.kept e, hdb⟩
  | connect | acquire | checkpoint mode => cases hq

theorem At.draining (h : s.At i ⟨q, .draining⟩ db) (hq : q.closes = true)
    (hends : s.Ends i as r s') :
    ∃ as', as = .proceed :: as' ∧ Parting q as' r ∧ db.Alike s'.handle := by
  obtain ⟨a, as', m, rfl, ha, hm, hrest⟩ := h.next (by simp) hends
  cases ha
  exact ⟨as', rfl, hm.parting hq hrest⟩

theorem At.checkpointing {on : Nat} (h : s.At i ⟨q, .checkpointing on⟩ db) (hq : q.closes = true)
    {wal : Bool} (hwal : wal = true) (hends : s.Ends i as r s') :
    ∃ as₁ as₂, .acquired on :: as = as₁ ++ as₂ ∧ Shutdown wal .connected as₁ ∧
      Parting q as₂ r ∧ db.Alike s'.handle := by
  obtain ⟨a, as', m, rfl, ha, hm, hrest⟩ := h.next (by simp) hends
  cases ha with
  | checkpointed report =>
    simp only [Call.resume, Call.afterCheckpoint_of_closes (c := ⟨q, _⟩) hq] at hm
    obtain ⟨as₂, rfl, hend⟩ := At.draining hm hq hrest
    exact ⟨[_, _, _], as₂, rfl, .checkpointed on report hwal, hend⟩
  | uncheckpointed e =>
    simp only [Call.resume, Call.afterCheckpoint_of_closes (c := ⟨q, _⟩) hq] at hm
    obtain ⟨as₂, rfl, hend⟩ := At.draining hm hq hrest
    exact ⟨[_, _, _], as₂, rfl, .uncheckpointed on e hwal, hend⟩

/-- The handle gets its last checkpoint, or goes without one. -/
theorem At.lastCheckpoint (h : s.At i ⟨q, .acquiring⟩ db) (hq : q.closes = true) {wal : Bool}
    (hwal : wal = true) (hends : s.Ends i as r s') :
    ∃ as₁ as₂, as = as₁ ++ as₂ ∧ Shutdown wal .connected as₁ ∧
      Parting q as₂ r ∧ db.Alike s'.handle := by
  obtain ⟨a, as', m, rfl, ha, hm, hrest⟩ := h.next (by simp) hends
  cases ha with
  | acquired on =>
    simp only [Call.resume, Call.hold_of_closes (c := ⟨q, _⟩) hq] at hm
    exact hm.checkpointing hq hwal hrest
  | refused e =>
    simp only [Call.resume, Call.refuse_of_closes (c := ⟨q, _⟩) hq] at hm
    obtain ⟨as₂, rfl, hend⟩ := At.draining hm hq hrest
    exact ⟨[_, _], as₂, rfl, .refused e hwal, hend⟩

theorem At.closes (h : s.At i ⟨q, .entering⟩ db) (hq : q.closes = true)
    (hfree : db.building = false) (hends : s.Ends i as r s') : Leads db q as r s'.handle := by
  obtain ⟨a, as', m, rfl, ha, hm, hrest⟩ := h.next (by simp) hends
  cases ha
  simp only [Call.resume] at hm
  have leads {as₁ as₂ : List Answer} {db' : Database}
      (hshutdown : Shutdown db.config.enableWal db.condition as₁) (hparting : Parting q as₂ r)
      (hdb' : db' = { db with closed := true }) (hdb : db'.Alike s'.handle) :
      Leads db q (.proceed :: (as₁ ++ as₂)) r s'.handle := by
    subst hdb'
    exact .alike { db with closed := true } ⟨.closes hq hshutdown hparting, rfl, rfl, hfree⟩ hdb
  obtain ⟨path, config, _ | _, building, _ | p⟩ := db
  · rw [Call.enter_unused (c := ⟨q, .entering⟩) hq rfl rfl] at hm
    obtain ⟨hparting, hdb⟩ := hm.parting hq hrest
    exact leads .unused hparting rfl hdb
  · obtain ⟨hcall, hhandle⟩ := Call.enter_connected (c := ⟨q, .entering⟩)
      ⟨path, config, false, building, some p⟩ hq rfl rfl
    rw [hcall, hhandle] at hm
    by_cases hwal : config.enableWal = true
    · simp only [hwal, if_true] at hm
      obtain ⟨as₁, as₂, rfl, hshutdown, hparting, hdb⟩ := hm.lastCheckpoint hq hwal hrest
      exact leads hshutdown hparting rfl hdb
    · simp only [hwal] at hm
      obtain ⟨as₂, rfl, hparting, hdb⟩ := hm.draining hq hrest
      exact leads (.plain (by simpa using hwal)) hparting rfl hdb
  all_goals
    rw [Call.enter_again (c := ⟨q, .entering⟩) hq rfl] at hm
    obtain ⟨hparting, hdb⟩ := hm.parting hq hrest
    exact leads .again hparting rfl hdb

/-! ### Calls that use the pool -/

theorem At.lending (h : s.At i ⟨.acquire, .acquiring⟩ db) (hends : s.Ends i as r s') (wal : Bool)
    (path : String) :
    Move wal path ⟨.connected, .acquire, .proceed :: as, r⟩ .connected ∧ db.Alike s'.handle := by
  obtain ⟨a, as', m, rfl, ha, hm, hrest⟩ := h.next (by simp) hends
  cases ha with
  | acquired on =>
    obtain ⟨rfl, rfl, hdb⟩ := hm.finished rfl hrest
    exact ⟨.lent on, hdb⟩
  | refused e =>
    obtain ⟨rfl, rfl, hdb⟩ := hm.finished rfl hrest
    exact ⟨.refused e rfl (by simp), hdb⟩

theorem At.folding {mode : CheckpointMode} (h : s.At i ⟨.checkpoint mode, .acquiring⟩ db)
    (hends : s.Ends i as r s') (wal : Bool) (path : String) :
    Move wal path ⟨.connected, .checkpoint mode, .proceed :: as, r⟩ .connected ∧
      db.Alike s'.handle := by
  obtain ⟨a, as', m, rfl, ha, hm, hrest⟩ := h.next (by simp) hends
  cases ha with
  | acquired on =>
    obtain ⟨a, as', m', rfl, ha, hm', hrest'⟩ := hm.next (by simp [Call.resume, Call.hold]) hrest
    cases ha with
    | checkpointed report =>
      obtain ⟨rfl, rfl, hdb⟩ := hm'.finished rfl hrest'
      exact ⟨.checkpointed mode on report, hdb⟩
    | uncheckpointed e =>
      obtain ⟨rfl, rfl, hdb⟩ := hm'.finished rfl hrest'
      exact ⟨.uncheckpointed mode on e, hdb⟩
  | refused e =>
    obtain ⟨rfl, rfl, hdb⟩ := hm.finished rfl hrest
    exact ⟨.refused e rfl (by simp), hdb⟩

/-- A call that is to use the pool, which is there. -/
theorem At.using {φ : Phase} {p : Pool} (h : s.At i (Call.usePool ⟨q, φ⟩ db).1 db)
    (hpool : db.pool = some p) (hq : q.opens = true) (hends : s.Ends i as r s') (wal : Bool)
    (path : String) :
    Move wal path ⟨.connected, q, .proceed :: as, r⟩ .connected ∧ db.Alike s'.handle := by
  cases q with
  | connect =>
    simp only [Call.usePool, hpool] at h
    obtain ⟨rfl, rfl, hdb⟩ := h.finished rfl hends
    exact ⟨.shared, hdb⟩
  | acquire =>
    simp only [Call.usePool, hpool] at h
    exact h.lending hends wal path
  | checkpoint | close | remove => cases hq

/-- A call that builds the pool. -/
theorem At.opening {path : String} {config : DatabaseConfig}
    (h : s.At i ⟨q, .building⟩ ⟨path, config, false, true, none⟩) (hq : q.opens = true)
    (hends : s.Ends i as r s') :
    Leads ⟨path, config, false, false, none⟩ q (.proceed :: as) r s'.handle := by
  obtain ⟨a, as', m, rfl, ha, hm, hrest⟩ := h.next (by simp) hends
  cases ha with
  | built p =>
    simp only [Call.resume] at hm
    obtain ⟨hhandle, -⟩ := Call.usePool_built ⟨q, .building⟩
      ⟨path, config, false, false, some p⟩ rfl
    rw [hhandle] at hm
    obtain ⟨hmove, hdb⟩ := hm.using rfl hq hrest config.enableWal path
    exact .alike ⟨path, config, false, false, some p⟩ ⟨.built p hq hmove, rfl, rfl, rfl⟩ hdb
  | unbuilt e =>
    obtain ⟨rfl, rfl, hdb⟩ := hm.finished rfl hrest
    exact .alike _ ⟨.unbuilt e hq, rfl, rfl, rfl⟩ hdb

/-- A call on a handle that is open. -/
theorem At.opens (h : s.At i ⟨q, .entering⟩ db) (hq : q.opens = true) (hopen : db.closed = false)
    (hfree : db.building = false) (hends : s.Ends i as r s') : Leads db q as r s'.handle := by
  obtain ⟨a, as', m, rfl, ha, hm, hrest⟩ := h.next (by simp) hends
  cases ha
  simp only [Call.resume] at hm
  rw [Call.enter_opens (c := ⟨q, .entering⟩) hq hopen] at hm
  obtain ⟨path, config, closed, building, _ | p⟩ := db
  · subst hopen hfree
    exact At.opening hm hq hrest
  · subst hopen hfree
    obtain ⟨hhandle, -⟩ := Call.usePool_built ⟨q, .entering⟩
      ⟨path, config, false, false, some p⟩ rfl
    rw [hhandle] at hm
    obtain ⟨hmove, hdb⟩ := hm.using rfl hq hrest config.enableWal path
    exact .alike ⟨path, config, false, false, some p⟩ ⟨hmove, rfl, rfl, rfl⟩ hdb

theorem At.checkpoints {mode : CheckpointMode} (h : s.At i ⟨.checkpoint mode, .entering⟩ db)
    (hopen : db.closed = false) (hfree : db.building = false) (hends : s.Ends i as r s') :
    Leads db (.checkpoint mode) as r s'.handle := by
  obtain ⟨a, as', m, rfl, ha, hm, hrest⟩ := h.next (by simp) hends
  cases ha
  obtain ⟨path, config, closed, building, _ | p⟩ := db
  · subst hopen hfree
    obtain ⟨rfl, rfl, hdb⟩ := hm.finished rfl hrest
    exact .alike _ ⟨.absent mode, rfl, rfl, rfl⟩ hdb
  · subst hopen hfree
    obtain ⟨hmove, hdb⟩ := At.folding hm hrest config.enableWal path
    exact .alike ⟨path, config, false, false, some p⟩ ⟨hmove, rfl, rfl, rfl⟩ hdb

theorem At.turnedAway (h : s.At i ⟨q, .entering⟩ db) (hq : q.closes = false)
    (hclosed : db.closed = true) (hfree : db.building = false) (hends : s.Ends i as r s') :
    Leads db q as r s'.handle := by
  obtain ⟨a, as', m, rfl, ha, hm, hrest⟩ := h.next (by simp) hends
  cases ha
  simp only [Call.resume] at hm
  rw [Call.enter_closed (c := ⟨q, .entering⟩) hq hclosed] at hm
  obtain ⟨rfl, rfl, hdb⟩ := hm.finished rfl hrest
  have hcondition : db.condition = .closed := by rw [condition, hclosed, if_pos rfl]
  refine .alike _ ⟨?_, rfl, rfl, hfree⟩ hdb
  rw [hcondition]
  exact .turnedAway hq

/-- Every call that is made alone follows the table. -/
theorem Ends.leads (hends : s.Ends i as r s') (h : (s.calls i).phase = .entering)
    (hfree : s.handle.building = false) :
    Leads s.handle (s.calls i).request as r s'.handle := by
  have hat : s.At i ⟨(s.calls i).request, .entering⟩ s.handle := ⟨by rw [← h], .refl _⟩
  cases hq : (s.calls i).request.closes with
  | true => exact hat.closes hq hfree hends
  | false =>
    cases hclosed : s.handle.closed with
    | true => exact hat.turnedAway hq hclosed hfree hends
    | false =>
      generalize (s.calls i).request = q at *
      cases q with
      | connect | acquire => exact hat.opens rfl hclosed hfree hends
      | checkpoint mode => exact hat.checkpoints hclosed hfree hends
      | close | remove => cases hq

/-! ### The pool -/

/-- A pool of the handle comes from one of these, which were built. -/
def Stems (ps : List Pool) (s : Traffic) : Prop :=
  ∀ p, s.handle.pool = some p → ∃ p₀ ∈ ps, Relation.ReflTransGen Pool.Step p₀ p

variable {ps : List Pool} {t : Traffic} {a : Answer}

theorem Stems.adjusts (h : s.Stems ps) (ha : s.Adjusts t) : t.Stems ps := by
  refine ha.all (fun hstep h => ?_) h
  obtain ⟨p₀, hmem, hsteps⟩ := h
  exact ⟨p₀, hmem, hsteps.tail hstep⟩

/-- An answer leaves the pool alone, or it brings the pool that was built. -/
theorem Serves.pool (h : s.Serves i a t) :
    ((s.calls i).resume t.handle a).2.1.pool = t.handle.pool ∨
      ∃ p, a = .built p ∧ ((s.calls i).resume t.handle a).2.1.pool = some p := by
  have hresumed := h.resumed
  by_cases hphase : (s.calls i).phase = .building
  · have hawaits := h.awaits
    rw [hphase] at hawaits
    cases hawaits with
    | built p =>
      refine .inr ⟨p, rfl, ?_⟩
      simp only [Call.resume, hphase]
      rw [((s.calls i).usePool_built _ rfl).1]
    | unbuilt e => exact .inl (by simp only [Call.resume, hphase])
  · refine .inl ?_
    generalize (s.calls i).resume t.handle a = next at hresumed
    cases hresumed with
    | goes | builds | closes => rfl
    | built hbuilding => exact absurd hbuilding hphase

theorem Serves.stems (hserves : s.Serves i a t) (h : s.Stems ps) (keep : Bool) :
    (t.answered i keep a).Stems (ps ++ a.built?.toList) := by
  let next := (t.calls i).resume t.handle a
  have hbecomes : (t.become i next.1 next.2.1).Stems (ps ++ a.built?.toList) := by
    intro p hp
    simp only [next, hserves.adjusts.calls] at hp
    rcases hserves.pool with hsame | ⟨p', rfl, hbuilt⟩
    · obtain ⟨p₀, hmem, hsteps⟩ := h.adjusts hserves.adjusts p (hsame.symm.trans hp)
      exact ⟨p₀, List.mem_append_left _ hmem, hsteps⟩
    · obtain rfl : p' = p := Option.some.inj (hbuilt.symm.trans hp)
      exact ⟨p', by simp [Answer.built?], .refl⟩
  exact hbecomes.adjusts (.foldl keep _ _)

theorem Ends.stems (hends : s.Ends i as r s') (h : s.Stems ps) :
    s'.Stems (ps ++ as.filterMap Answer.built?) := by
  induction hends generalizing ps with
  | finished => simpa using h
  | @told s t s' a as r keep hserves _ ih =>
    have hrest := ih (hserves.stems h keep)
    rw [List.append_assoc] at hrest
    cases a <;> exact hrest
  | aside hstep hl _ ih => exact ih (h.adjusts (hstep.adjusts hl))

/-! ### Completed calls -/

/-- Where completed calls have brought a handle that was never used. -/
structure Follows (s₀ : Traffic) (vs : List Visit) (s : Traffic) : Prop where
  life : Life s₀.handle.config.enableWal s₀.handle.path vs s.handle.condition
  path : s.handle.path = s₀.handle.path
  config : s.handle.config = s₀.handle.config
  building : s.handle.building = false
  stems : s.Stems (vs.flatMap Visit.pools)

variable {s₀ : Traffic} {vs : List Visit}

theorem Initial.follows (h : s₀.Initial) : s₀.Follows [] s₀ := by
  have hcondition : s₀.handle.condition = .unconnected := by simp [condition, h.closed, h.pool]
  refine ⟨hcondition ▸ .start, rfl, rfl, h.building, fun p hp => ?_⟩
  rw [h.pool] at hp
  cases hp

theorem Follows.adjusts (h : s₀.Follows vs s) (ha : s.Adjusts t) : s₀.Follows vs t := by
  exact ⟨ha.alike.condition ▸ h.life, ha.path.trans h.path, ha.config.trans h.config,
    ha.building.trans h.building, h.stems.adjusts ha⟩

theorem Follows.visit (h : s₀.Follows vs s) (hentering : (s.calls i).phase = .entering)
    (hends : s.Ends i as r s') :
    s₀.Follows (vs ++ [⟨s.handle.condition, (s.calls i).request, as, r⟩]) s' := by
  obtain ⟨hmove, hpath, hconfig, hbuilding⟩ := hends.leads hentering h.building
  rw [h.path, h.config] at hmove
  refine ⟨.move h.life hmove, hpath.trans h.path, hconfig.trans h.config, hbuilding, ?_⟩
  rw [List.flatMap_append, List.flatMap_singleton]
  exact hends.stems h.stems

theorem Usage.follows (h : s₀.Initial) (hu : s₀.Usage vs s) : s₀.Follows vs s := by
  induction hu with
  | start => exact h.follows
  | aside _ hstep hl ih => exact ih.adjusts (hstep.adjusts hl)
  | visit _ hentering hends ih => exact ih.visit hentering hends

/-- While a handle is unconnected, a caller may still connect. -/
theorem may_connect (hunconnected : s.handle.condition = .unconnected)
    (hfree : s.handle.building = false) (hcall : s.calls i = { request := .connect }) :
    ∃ p s', s.Ends i [.proceed, .built p] (.ok .done) s' ∧ s'.handle.condition = .connected := by
  have hat : s.At i ⟨.connect, .entering⟩ s.handle := ⟨hcall, .refl _⟩
  obtain ⟨hopen, hnone⟩ := (condition_eq_unconnected _).mp hunconnected
  generalize s.handle = db at hat hopen hfree hnone
  obtain ⟨path, config, closed, building, pool⟩ := db
  subst hopen hfree hnone
  have hentered : s.Serves i .proceed s := .entered (by rw [hcall])
  have hbuilding : (s.answered i true .proceed).At i ⟨.connect, .building⟩
      ⟨path, config, false, true, none⟩ := hat.served hentered true
  have hserves := Serves.built 1 1 1 (by rw [hbuilding.call])
  have hbuilt := hbuilding.served hserves true
  refine ⟨_, _, .told true hentered (.told true hserves (.finished ?_)), ?_⟩
  · rw [hbuilt.call]
    rfl
  · rw [← hbuilt.handle.condition]
    rfl

/-- Completed calls on one handle, one after the other, take it from unconnected to connected to
closed, or from unconnected to closed, as the table says.  At most one pool is built, and it is the
pool of all calls.  The log is emptied at most once, by the call that closes a connected handle, and
closing never fails. -/
theorem lifecycle (h : s₀.Initial) (hu : s₀.Usage vs s) :
    let wal := s₀.handle.config.enableWal
    let now := s.handle.condition
    Life wal s₀.handle.path vs now ∧
      (s.handle.openPool = .error .notInitialized ↔ now = .unconnected) ∧
      (s.handle.openPool = .error .closed ↔ now = .closed) ∧
      (s.handle.connected = true ↔ now = .connected) ∧
      (s.handle.closed = true ↔ now = .closed) ∧
      (vs.flatMap Visit.pools).length ≤ 1 ∧
      (∀ p, s.handle.openPool = .ok p →
        ∃ p₀, vs.flatMap Visit.pools = [p₀] ∧ Relation.ReflTransGen Pool.Step p₀ p) ∧
      (now = .unconnected → ∀ i, s.calls i = { request := .connect } →
        ∃ p s', s.Ends i [.proceed, .built p] (.ok .done) s' ∧
          s'.handle.condition = .connected) ∧
      (∀ v ∈ vs, v.result = .error .notInitialized ↔
        v.found = .unconnected ∧ ∃ mode, v.request = .checkpoint mode) ∧
      (∀ v ∈ vs, v.found = .closed → v.request.closes = false → v.result = .error .closed) ∧
      (∀ v ∈ vs, v.request = .close → v.result = .ok .done) ∧
      (∀ v ∈ vs, v.emptiesLog = true ↔
        wal = true ∧ v.request.closes = true ∧ v.found = .connected) ∧
      vs.countP Visit.emptiesLog ≤ 1 := by
  intro wal now
  have hfollows := hu.follows h
  have htally := hfollows.life.tally
  refine ⟨hfollows.life, s.handle.openPool_eq_notInitialized, s.handle.openPool_eq_closed,
    s.handle.connected_iff, s.handle.condition_eq_closed.symm, htally.once, fun p hp => ?_,
    fun hnow i hi => may_connect hnow hfollows.building hi, fun v hv => ?_,
    fun v hv hfound hrequest => ?_, fun v hv hclose => ?_, fun v hv => ?_, htally.folded⟩
  · obtain ⟨p₀, hmem, hsteps⟩ := hfollows.stems p ((openPool_eq_ok _ p).mp hp).2
    obtain ⟨first, hfirst⟩ := List.length_eq_one_iff.mp
      (Nat.le_antisymm htally.once (List.length_pos_of_mem hmem))
    rw [hfirst, List.mem_singleton] at hmem
    exact ⟨p₀, hmem ▸ hfirst, hsteps⟩
  · obtain ⟨_, hmove⟩ := hfollows.life.move_of_mem hv
    exact hmove.notInitialized
  · obtain ⟨_, hmove⟩ := hfollows.life.move_of_mem hv
    exact hmove.result_of_closed hfound hrequest
  · obtain ⟨_, hmove⟩ := hfollows.life.move_of_mem hv
    exact hmove.result_of_close hclose
  · obtain ⟨_, hmove⟩ := hfollows.life.move_of_mem hv
    exact hmove.emptiesLog

/-! ### A life -/

/-- Callers 0, 2 and 5 connect, and caller 3 is a writer. -/
def visitors : Nat → Request
  | 0 => .connect
  | 1 => .checkpoint .full
  | 2 => .connect
  | 3 => .acquire
  | 5 => .connect
  | _ => .close

def unvisited : Traffic where
  handle := { path := "app.db", config := {} }
  calls := fun i => { request := visitors i }

/-- A pool cannot be built at first, and the last checkpoint fails. -/
theorem full_life :
    ∃ vs s, unvisited.Initial ∧ unvisited.Usage vs s ∧
      vs.map Visit.result = [.error (.opening "app.db" .poolTimedOut), .error .notInitialized,
        .ok .done, .ok (.connection 0), .ok .done, .error .closed, .ok .done] ∧
      s.handle.condition = .closed ∧
      vs.countP Visit.emptiesLog = 1 ∧ (vs.flatMap Visit.pools).length ≤ 1 := by
  have h : unvisited.Initial := ⟨fun _ => rfl, rfl, rfl, rfl⟩
  have u := Usage.start (s := unvisited)
  have u := u.visit (i := 0) rfl
    (.told true (.entered rfl) (.told true (.unbuilt .poolTimedOut rfl) (.finished rfl)))
  have u := u.visit (i := 1) rfl (.told true (.entered rfl) (.finished rfl))
  have u := u.visit (i := 2) rfl
    (.told true (.entered rfl) (.told true (.built 1 1 1 rfl) (.finished rfl)))
  have u := u.visit (i := 3) rfl
    (.told true (.entered rfl) (.aside (.queue (i := 3) (.inl rfl) rfl) (by simp)
      (.told true (.acquired rfl (.idle rfl rfl)) (.finished rfl))))
  have u := u.aside (.giveUp (c := 0) true rfl (by decide) (by rintro (_ | _ | _ | _ | j) ⟨⟩))
    (by simp)
  have u := u.visit (i := 4) rfl
    (.told true (.entered rfl) (.aside (.queue (i := 4) (.inl rfl) rfl) (by simp)
      (.told true (.acquired rfl (.idle rfl rfl)) (.told true (.uncheckpointed .poolTimedOut rfl)
        (.told true (.drained rfl rfl rfl) (.finished rfl))))))
  have u := u.visit (i := 5) rfl (.told true (.entered rfl) (.finished rfl))
  have u := u.visit (i := 6) rfl (.told true (.entered rfl) (.finished rfl))
  exact ⟨_, _, h, u, rfl, rfl, rfl, (lifecycle h u).2.2.2.2.2.1⟩

end Traffic

end SingleWriter.Database
