import SingleWriter.Proofs.Closing
import SingleWriter.Proofs.Lifecycle
import SingleWriter.Proofs.Storage

/-! A handle with the file behind it.  A call that is made alone opens and closes connections to the
file and may run a checkpoint, and that is all it does to the file: `Rests.call` says that the
committed contents stay and that the connections of the pool are at rest.  A handle that is closed
for good does nothing to the file at all. -/

namespace SingleWriter

open Write (ConnectionId)

namespace Database

/-! ### Calls -/

/-- The connection that a call holds. -/
def Call.carries (c : Call) : List ConnectionId :=
  match c.phase with
  | .checkpointing on => [on]
  | .finished (.ok (.connection on)) => [on]
  | _ => []

/-- The connection that an answer hands over. -/
def Answer.hands : Answer → List ConnectionId
  | .acquired on => [on]
  | _ => []

/-- The pool of a handle after an answer. -/
def Answer.poolAfter (a : Answer) (pool : Option Pool) : Option Pool :=
  match a with
  | .built p => some p
  | _ => pool

def Answer.ofCheckpoint : Except SqlError CheckpointReport → Answer
  | .ok r => .report r
  | .error e => .failed e

section

variable {c : Call} {db : Database} {a : Answer}

theorem Call.afterClose_carries (c : Call) : c.afterClose.carries = [] := by
  unfold afterClose
  split <;> rfl

theorem Call.usePool_carries (c : Call) (db : Database) : (c.usePool db).1.carries = [] := by
  unfold usePool
  split
  · split <;> rfl
  · split <;> rfl

theorem Call.usePool_pool (c : Call) (db : Database) : (c.usePool db).2.pool = db.pool := by
  unfold usePool
  split
  · split <;> rfl
  · split <;> rfl

/-- What an answer makes of a call: it holds what it was handed, gives back what it held, and may
have the pool closed. -/
structure Call.Resumes (c : Call) (db : Database) (a : Answer)
    (next : Call × Database × List Effect) : Prop where
  carries : next.1.carries = a.hands
  pool : next.2.1.pool = a.poolAfter db.pool
  effects : ∃ rest, (rest = [] ∨ rest = [.closePool]) ∧
    next.2.2 = c.carries.map Effect.release ++ rest

theorem Call.resumes_plain {next : Call} {db' : Database} (hc : c.carries = [])
    (h : next.carries = a.hands) (hdb : db'.pool = a.poolAfter db.pool) :
    c.Resumes db a (next, db', []) :=
  ⟨h, hdb, [], .inl rfl, by rw [hc]; rfl⟩

/-- After a checkpoint the connection goes back, and the pool may be closed. -/
theorem Call.afterCheckpoint_resumes {on : ConnectionId} {r : Except SqlError CheckpointReport}
    (hc : c.carries = [on]) (ha : a.hands = []) (hpool : a.poolAfter db.pool = db.pool) :
    c.Resumes db a ((c.afterCheckpoint on r).1, db, (c.afterCheckpoint on r).2) := by
  unfold afterCheckpoint
  split
  · exact ⟨ha.symm, hpool.symm, [.closePool], .inr rfl, by rw [hc]; rfl⟩
  · exact ⟨ha.symm, hpool.symm, [.closePool], .inr rfl, by rw [hc]; rfl⟩
  · cases r <;> exact ⟨ha.symm, hpool.symm, [], .inl rfl, by rw [hc]; rfl⟩

theorem Call.enter_resumes (hc : c.phase = .entering) :
    c.Resumes db .proceed (c.enter db) := by
  have hcarries : c.carries = [] := by rw [carries, hc]
  have plain {c' : Call} {db' : Database} (h : c'.carries = []) (hdb : db'.pool = db.pool) :
      c.Resumes db .proceed (c', db', []) := resumes_plain hcarries h hdb
  cases hcloses : c.request.closes with
  | true =>
    cases hclosed : db.closed with
    | true =>
      rw [c.enter_again hcloses hclosed]
      exact plain c.afterClose_carries rfl
    | false =>
      rcases c.enter_of_closes hcloses hclosed with ⟨-, he⟩ | ⟨-, he | he⟩ <;> rw [he]
      · exact plain c.afterClose_carries rfl
      · exact plain rfl rfl
      · exact ⟨rfl, rfl, [.closePool], .inr rfl, by rw [hcarries]; rfl⟩
  | false =>
    cases hclosed : db.closed with
    | true =>
      rw [c.enter_closed hcloses hclosed]
      exact plain rfl rfl
    | false =>
      cases hopens : c.request.opens with
      | true =>
        rw [c.enter_opens hopens hclosed]
        exact plain (c.usePool_carries db) (c.usePool_pool db)
      | false =>
        cases hrequest : c.request with
        | checkpoint mode =>
          simp only [enter, hrequest]
          split
          · exact plain rfl rfl
          · exact plain rfl rfl
        | connect | acquire =>
          rw [hrequest] at hopens
          cases hopens
        | close | remove =>
          rw [hrequest] at hcloses
          cases hcloses

theorem Call.resume_resumes (db : Database) (ha : c.phase.Awaits a) :
    c.Resumes db a (c.resume db a) := by
  generalize hphase : c.phase = φ at ha
  cases ha with
  | entered =>
    simp only [resume, hphase]
    exact enter_resumes hphase
  | waited =>
    simp only [resume, hphase]
    exact resumes_plain (by rw [carries, hphase]) (c.usePool_carries db) (c.usePool_pool db)
  | built p =>
    simp only [resume, hphase]
    exact resumes_plain (by rw [carries, hphase]) (c.usePool_carries _) (c.usePool_pool _)
  | unbuilt e =>
    simp only [resume, hphase]
    exact resumes_plain (by rw [carries, hphase]) rfl rfl
  | acquired on =>
    simp only [resume, hphase]
    refine resumes_plain (by rw [carries, hphase]) ?_ rfl
    unfold hold
    split <;> rfl
  | refused e =>
    simp only [resume, hphase]
    have hnone : c.carries = [] := by rw [carries, hphase]
    unfold refuse
    split
    · exact ⟨rfl, rfl, [.closePool], .inr rfl, by rw [hnone]; rfl⟩
    · exact ⟨rfl, rfl, [.closePool], .inr rfl, by rw [hnone]; rfl⟩
    · exact resumes_plain hnone rfl rfl
  | checkpointed | uncheckpointed =>
    simp only [resume, hphase]
    exact afterCheckpoint_resumes (by rw [carries, hphase]) rfl rfl
  | drained =>
    simp only [resume, hphase]
    exact resumes_plain (by rw [carries, hphase]) c.afterClose_carries rfl
  | unlinked r =>
    cases r <;>
    · simp only [resume, hphase]
      exact resumes_plain (by rw [carries, hphase]) rfl rfl

end

/-! ### A call alone -/

namespace Traffic

/-- One call on a handle that nobody else uses. -/
def alone (db : Database) (next : ConnectionId) (q : Request) : Traffic :=
  { handle := db, next, calls := fun _ => { request := q } }

end Traffic

/-- All connections of a handle. -/
def connections (db : Database) : List ConnectionId :=
  match db.pool with
  | some p => p.connections
  | none => []

def lent (db : Database) : List ConnectionId :=
  match db.pool with
  | some p => p.lent
  | none => []

theorem connections_eq {db : Database} {p : Pool} (h : db.pool = some p) :
    db.connections = p.connections := by rw [connections, h]

theorem lent_eq {db : Database} {p : Pool} (h : db.pool = some p) : db.lent = p.lent := by
  rw [lent, h]

variable {K Q R : Type}

/-- What an answer to a call says has been done on the file: a checkpoint, on the connection that
the call holds, or nothing. -/
inductive Ran (e : Storage K Q R) (c : Call) : Answer → e.State → e.State → Prop
  | checkpoint {on : ConnectionId} {r : Except SqlError CheckpointReport} {s s' : e.State} :
      c.phase = .checkpointing on → e.checkpoint s on c.checkpointMode r s' →
      Ran e c (.ofCheckpoint r) s s'
  | nothing {a : Answer} {s : e.State} : (∀ on, c.phase ≠ .checkpointing on) → Ran e c a s s

/-- Call 0 goes on to its end while no other call takes a turn, and the file follows the pool. -/
inductive Tends (e : Storage K Q R) : Traffic → e.State → List Answer →
    Except ConnectionError Product → Traffic → e.State → Prop
  | finished {s : Traffic} {σ : e.State} {r : Except ConnectionError Product} :
      (s.calls 0).phase = .finished r → Tends e s σ [] r s σ
  | told {s t s' : Traffic} {σ τ σ' : e.State} {a : Answer} {as : List Answer}
      {r : Except ConnectionError Product} (keep : Bool) : s.Serves 0 a t →
      Ran e (s.calls 0) a σ τ →
      Tends e (t.answered 0 keep a)
        (e.follow s.handle.connections (t.answered 0 keep a).handle.connections τ) as r s' σ' →
      Tends e s σ (a :: as) r s' σ'
  | aside {s m s' : Traffic} {σ σ' : e.State} {l : Label} {as : List Answer}
      {r : Except ConnectionError Product} : (s.calls 0).result? = none → s.Step l m →
      (∀ j a, l ≠ .turn j a) →
      Tends e m (e.follow s.handle.connections m.handle.connections σ) as r s' σ' →
      Tends e s σ as r s' σ'

variable {e : Storage K Q R} {s t m s' : Traffic} {σ τ σ' : e.State} {a : Answer}
  {as : List Answer} {r : Except ConnectionError Product}

theorem Tends.ends (h : Tends e s σ as r s' σ') : s.Ends 0 as r s' := by
  induction h with
  | finished hphase => exact .finished hphase
  | told keep hserves _ _ ih => exact .told keep hserves ih
  | aside _ hstep hl _ ih => exact .aside hstep hl ih

/-- Nobody has a connection but call 0, and the connections of the pool are at rest. -/
structure Attended (e : Storage K Q R) (s : Traffic) (σ : e.State) : Prop where
  others : ∀ j, j ≠ 0 → (s.calls j).phase = .entering
  lent : s.handle.lent = (s.calls 0).carries
  keeps : e.Keeps s.handle.connections s.next σ

/-- A step that leaves all calls alone and takes no connection from another pool. -/
theorem Attended.pool (he : e.Durable) (h : Attended e s σ) {p p' : Pool} {next : ConnectionId}
    {fresh : List ConnectionId} (hp : s.handle.pool = some p) (hfresh : fresh.Nodup)
    (hnew : ∀ c ∈ fresh, s.next ≤ c ∧ c < next) (hnext : s.next ≤ next)
    (hlent : p'.lent = p.lent) (hsub : p'.connections.Subperm (fresh ++ p.connections)) :
    Attended e { s.withPool p' with next }
      (e.follow s.handle.connections p'.connections σ) := by
  have hkeeps := h.keeps
  rw [connections_eq hp] at hkeeps ⊢
  exact ⟨h.others, (hlent.trans (lent_eq hp).symm).trans h.lent,
    hkeeps.follow he hfresh hnew hnext hsub⟩

theorem Attended.aside (he : e.Durable) (h : Attended e s σ) {l : Label}
    (hgoes : (s.calls 0).result? = none) (hstep : s.Step l m) (hl : ∀ j a, l ≠ .turn j a) :
    Attended e m (e.follow s.handle.connections m.handle.connections σ) := by
  have hvisits (i : Nat) : ¬s.Visits i := by
    rintro ⟨-, hi⟩
    by_cases h0 : i = 0
    · rw [h0] at hi
      rw [Call.result?, hi] at hgoes
      cases hgoes
    · rw [h.others i h0] at hi
      cases hi
  have hheld {p : Pool} {c : Nat} (hp : s.handle.pool = some p) (hc : c ∈ p.lent)
      (hapart : ∀ j, (s.calls j).phase ≠ .checkpointing c) : False := by
    rw [← lent_eq hp, h.lent] at hc
    have hgoes' := hgoes
    unfold Call.carries at hc
    unfold Call.result? at hgoes'
    cases hφ : (s.calls 0).phase with
    | checkpointing on =>
      rw [hφ] at hc
      rw [List.mem_singleton.mp hc] at hapart
      exact hapart 0 hφ
    | finished r =>
      rw [hφ] at hgoes'
      cases hgoes'
    | _ =>
      rw [hφ] at hc
      cases hc
  cases hstep with
  | @turn i a => exact absurd rfl (hl i a)
  | commit hp hc hapart => exact (hheld hp hc hapart).elim
  | giveUp keep hp hc hapart => exact (hheld hp hc hapart).elim
  | visit hvisit => exact (hvisits _ hvisit).elim
  | retire hvisit => exact (hvisits _ hvisit).elim
  | queue _ hp =>
    exact h.pool he hp .nil (by simp) (Nat.le_refl _) rfl (List.Subperm.refl _)
  | place hp hserve =>
    refine h.pool he hp .nil (by simp) (Nat.le_refl _) (Pool.places hserve).2 ?_
    rw [Pool.places_connections hserve]
    exact List.Subperm.refl _
  | renew hp hserve =>
    obtain ⟨hlent, hsub⟩ := Pool.renews hserve
    exact h.pool he hp .nil (by simp) (Nat.le_refl _) hlent hsub
  | @refill p hp _ =>
    exact h.pool he hp (by simp) (by simp) (Nat.le_succ _) rfl
      (p.addIdle_perm s.next).subperm

/-! ### Answers -/

namespace Traffic

variable {u : Traffic} {on : ConnectionId} {keep : Bool}

theorem release_lent (keep : Bool) (h : u.handle.lent = [on]) :
    (u.release keep on).handle.lent = [] ∧
      (u.release keep on).handle.connections.Subperm u.handle.connections := by
  cases hp : u.handle.pool with
  | none =>
    rw [Database.lent, hp] at h
    cases h
  | some p =>
    rw [lent_eq hp] at h
    rw [connections_eq hp]
    simp only [release, hp]
    split
    · obtain ⟨hlent, hconnections⟩ := Pool.giveBack_connections h
      exact ⟨hlent, hconnections ▸ List.Subperm.refl _⟩
    · exact Pool.forget_connections h

theorem closePool_lent (u : Traffic) :
    u.closePool.handle.lent = u.handle.lent ∧
      u.closePool.handle.connections.Subperm u.handle.connections := by
  cases hp : u.handle.pool with
  | none =>
    have hsame : u.closePool = u := by simp only [closePool, hp]
    rw [hsame]
    exact ⟨rfl, List.Subperm.refl _⟩
  | some p =>
    rw [lent_eq hp, connections_eq hp]
    simp only [closePool, hp]
    exact p.close_connections

theorem foldl_next (keep : Bool) (es : List Effect) (s : Traffic) :
    (es.foldl (fulfil keep) s).next = s.next := by
  induction es generalizing s with
  | nil => rfl
  | cons e es ih =>
    rw [List.foldl_cons, ih]
    cases e with
    | release c =>
      simp only [fulfil, release]
      split <;> rfl
    | closePool =>
      simp only [fulfil, closePool]
      split <;> rfl

/-- A call gives back what it has held, and the pool may be closed. -/
theorem foldl_lent (keep : Bool) {cs hands : List ConnectionId} {rest : List Effect}
    (h : u.handle.lent = cs ++ hands) (hcs : cs = [] ∨ ∃ on, cs = [on] ∧ hands = [])
    (hrest : rest = [] ∨ rest = [.closePool]) :
    ((cs.map Effect.release ++ rest).foldl (fulfil keep) u).handle.lent = hands ∧
      ((cs.map Effect.release ++ rest).foldl (fulfil keep) u).handle.connections.Subperm
        u.handle.connections := by
  have closes {v : Traffic} (hv : v.handle.lent = hands)
      (hsub : v.handle.connections.Subperm u.handle.connections) :
      (rest.foldl (fulfil keep) v).handle.lent = hands ∧
        (rest.foldl (fulfil keep) v).handle.connections.Subperm u.handle.connections := by
    rcases hrest with rfl | rfl
    · exact ⟨hv, hsub⟩
    · obtain ⟨hlent, hconnections⟩ := v.closePool_lent
      exact ⟨hlent.trans hv, hconnections.trans hsub⟩
  rcases hcs with rfl | ⟨on, rfl, rfl⟩
  · exact closes h (List.Subperm.refl _)
  · obtain ⟨hlent, hsub⟩ := release_lent keep h
    exact closes (v := u.release keep on) hlent hsub

end Traffic

/-- What the handle has after an answer, before the call gives anything back. -/
structure Brings (s t : Traffic) (a : Answer) (db : Database) : Prop where
  lent : db.lent = (s.calls 0).carries ++ a.hands
  fresh : ∃ fresh : List ConnectionId, fresh.Nodup ∧ (∀ c ∈ fresh, s.next ≤ c ∧ c < t.next) ∧
    db.connections.Subperm (fresh ++ s.handle.connections)
  next : s.next ≤ t.next

theorem Brings.same {db : Database} (h : Attended e s σ) (ha : a.hands = [])
    (hlent : db.lent = s.handle.lent) (hconnections : db.connections = s.handle.connections)
    (hnext : s.next ≤ t.next) : Brings s t a db := by
  refine ⟨by rw [hlent, h.lent, ha, List.append_nil], ⟨[], .nil, by simp, ?_⟩, hnext⟩
  rw [hconnections]
  exact List.Subperm.refl _

theorem Brings.of_serves (h : Attended e s σ) (hserves : s.Serves 0 a t) :
    Brings s t a ((s.calls 0).resume t.handle a).2.1 := by
  have hpool := (Call.resume_resumes t.handle hserves.awaits).pool
  have hheld := h.lent
  generalize ((s.calls 0).resume t.handle a).2.1 = db at hpool
  cases hserves with
  | entered | waited | unbuilt | checkpointed | uncheckpointed | drained | unlinked =>
    have hsame : db.pool = s.handle.pool := hpool
    refine .same h rfl ?_ ?_ (Nat.le_refl _)
    · rw [Database.lent, hsame, ← Database.lent]
    · rw [connections, hsame, ← connections]
  | refused _ _ hp =>
    refine .same h rfl ?_ ?_ (Nat.le_refl _)
    · exact (lent_eq hpool).trans (lent_eq hp).symm
    · exact (connections_eq hpool).trans (connections_eq hp).symm
  | built n limit minimum hp =>
    have hnone : (s.calls 0).carries = [] := by rw [Call.carries, hp]
    refine ⟨(lent_eq hpool).trans ?_, ⟨List.range' s.next n, List.nodup_range', fun c hc => ?_, ?_⟩,
      Nat.le_add_right ..⟩
    · rw [hnone]
      rfl
    · exact List.mem_range'_1.mp hc
    · rw [connections_eq hpool, Pool.connections, List.append_nil]
      exact (List.sublist_append_left _ _).subperm
  | @acquired c t hp hgets =>
    have hnone : s.handle.lent = [] := by rw [hheld, Call.carries, hp]
    have hcarries : (s.calls 0).carries = [] := by rw [Call.carries, hp]
    cases hgets with
    | idle hpool' hserve =>
      obtain ⟨-, hlent⟩ := Pool.lends hserve
      rw [lent_eq hpool'] at hnone
      refine ⟨?_, ⟨[], .nil, by simp, ?_⟩, Nat.le_refl _⟩
      · rw [lent_eq hpool, hlent, hnone, hcarries]
        rfl
      · rw [connections_eq hpool, connections_eq hpool']
        exact (Pool.lends_perm hserve).subperm
    | @opened p hpool' _ =>
      rw [lent_eq hpool'] at hnone
      refine ⟨?_, ⟨[s.next], by simp, by simp, ?_⟩, Nat.le_succ _⟩
      · rw [lent_eq hpool, Pool.opened, hnone, hcarries]
        rfl
      · rw [connections_eq hpool, connections_eq hpool']
        exact (p.opened_perm 0 s.next).subperm

/-- What has been done on the file leaves its contents alone, and its connections at rest. -/
theorem Attended.ran (he : e.Durable) (h : Attended e s σ) (hran : Ran e (s.calls 0) a σ τ) :
    e.committed τ = e.committed σ ∧ e.Keeps s.handle.connections s.next τ := by
  cases hran with
  | nothing => exact ⟨rfl, h.keeps⟩
  | @checkpoint on r _ _ hp hcheckpoint =>
    have hmem : on ∈ s.handle.connections := by
      have hlent : s.handle.lent = [on] := by rw [h.lent, Call.carries, hp]
      cases hpool : s.handle.pool with
      | none =>
        rw [Database.lent, hpool] at hlent
        cases hlent
      | some p =>
        rw [lent_eq hpool] at hlent
        rw [connections_eq hpool, Pool.connections, hlent]
        exact List.mem_append_right _ (List.mem_singleton_self on)
    obtain ⟨hlocal, hidle⟩ := he.checkpoint (h.keeps.rest on hmem) hcheckpoint
    exact ⟨hlocal.committed, h.keeps.of_local hlocal hidle⟩

theorem Call.carries_le (c : Call) (ha : c.phase.Awaits a) :
    c.carries = [] ∨ ∃ on, c.carries = [on] ∧ a.hands = [] := by
  generalize hφ : c.phase = φ at ha
  cases ha with
  | @checkpointed on | @uncheckpointed on => exact .inr ⟨on, by rw [carries, hφ], rfl⟩
  | _ => exact .inl (by rw [carries, hφ])

/-- An answer to call 0, with what has been done on the file. -/
theorem Attended.told (he : e.Durable) (h : Attended e s σ) (hserves : s.Serves 0 a t)
    (hran : Ran e (s.calls 0) a σ τ) (keep : Bool) :
    Attended e (t.answered 0 keep a)
      (e.follow s.handle.connections (t.answered 0 keep a).handle.connections τ) := by
  have hawaits := hserves.awaits
  have hcalls := hserves.adjusts.calls
  obtain ⟨hcarries, -, rest, hrest, heffects⟩ := Call.resume_resumes t.handle hawaits
  obtain ⟨hlent, ⟨fresh, hfresh, hnew, hsub⟩, hnext⟩ := Brings.of_serves h hserves
  obtain ⟨-, hkeeps⟩ := h.ran he hran
  rw [← hcalls] at hcarries hlent hsub heffects
  generalize hr : (t.calls 0).resume t.handle a = next at *
  obtain ⟨c, db, es⟩ := next
  simp only at hcarries hlent hsub heffects
  have hfoldl := Traffic.foldl_lent (u := t.become 0 c db) keep hlent
    (hcalls ▸ (s.calls 0).carries_le hawaits) hrest
  rw [← heffects] at hfoldl
  have hadjusts := Traffic.Adjusts.foldl keep es (t.become 0 c db)
  rw [Traffic.answered_eq hr]
  refine ⟨fun j hj => ?_, ?_, ?_⟩
  · rw [hadjusts.calls, ((t.become_calls 0 c db j).resolve_left fun h => hj h.1).2, hcalls]
    exact h.others j hj
  · rw [hfoldl.1, hadjusts.calls, Traffic.become_self, hcarries]
  · rw [Traffic.foldl_next]
    exact hkeeps.follow he hfresh hnew hnext (hfoldl.2.trans hsub)

theorem Tends.attended (he : e.Durable) (h : Tends e s σ as r s' σ') (hs : Attended e s σ) :
    Attended e s' σ' ∧ e.committed σ' = e.committed σ := by
  induction h with
  | finished => exact ⟨hs, rfl⟩
  | told keep hserves hran _ ih =>
    obtain ⟨hs', hcommitted⟩ := ih (hs.told he hserves hran keep)
    rw [he.follow_committed, (hs.ran he hran).1] at hcommitted
    exact ⟨hs', hcommitted⟩
  | aside hgoes hstep hl _ ih =>
    obtain ⟨hs', hcommitted⟩ := ih (hs.aside he hgoes hstep hl)
    rw [he.follow_committed] at hcommitted
    exact ⟨hs', hcommitted⟩

theorem Tends.phase (h : Tends e s σ as r s' σ') : (s'.calls 0).phase = .finished r := by
  induction h with
  | finished hphase => exact hphase
  | told _ _ _ _ ih | aside _ _ _ _ ih => exact ih

/-! ### Handles between calls -/

/-- A handle of the file that nobody uses: its connections are at rest. -/
structure Rests (e : Storage K Q R) (db : Database) (next : ConnectionId) (σ : e.State) :
    Prop where
  building : db.building = false
  lent : db.lent = []
  keeps : e.Keeps db.connections next σ

theorem Move.lends {wal : Bool} {path : String} {v : Visit} {after : Condition}
    (h : Move wal path v after) {on : Nat} (hv : v.result = .ok (.connection on)) :
    v.request = .acquire := by
  induction h with
  | lent => rfl
  | built _ _ _ ih => exact ih hv
  | unbuilt | shared | refused | absent | checkpointed | uncheckpointed | turnedAway => cases hv
  | closes _ _ hparting => cases hparting <;> cases hv

variable {db : Database} {q : Request} {next : ConnectionId}

/-- A call that is made alone follows the table, leaves the contents of the file as they are, and
the handle at rest. -/
theorem Rests.call (he : e.Durable) (h : Rests e db next σ) (hq : q ≠ .acquire)
    (htends : Tends e (.alone db next q) σ as r s' σ') :
    Traffic.Leads db q as r s'.handle ∧ Rests e s'.handle s'.next σ' ∧
      e.committed σ' = e.committed σ := by
  have hleads : Traffic.Leads db q as r s'.handle := htends.ends.leads rfl h.building
  obtain ⟨hattended, hcommitted⟩ := htends.attended he ⟨fun _ _ => rfl, h.lent, h.keeps⟩
  refine ⟨hleads, ⟨hleads.building, ?_, hattended.keeps⟩, hcommitted⟩
  rw [hattended.lent, Call.carries, htends.phase]
  cases r with
  | error => rfl
  | ok product =>
    cases product with
    | done | report => rfl
    | connection on => exact absurd (hleads.move.lends rfl) hq

/-! ### Handles that are closed for good -/

/-- A closed handle whose pool, if there ever was one, has no connection. -/
structure Over (db : Database) : Prop where
  closed : db.closed = true
  building : db.building = false
  pool : ∀ p, db.pool = some p → p.Over

theorem Over.connections (h : Over db) : db.connections = [] := by
  unfold Database.connections
  cases hp : db.pool with
  | none => rfl
  | some p =>
    have hover := h.pool p hp
    simp [Pool.connections, hover.idle, hover.lent]

theorem Over.alone (h : Over db) (next : ConnectionId) (q : Request) :
    (Traffic.alone db next q).Shut :=
  ⟨⟨h.closed, fun _ => by simp [Traffic.alone], fun _ _ => by simp [Traffic.alone]⟩,
    fun _ => by simp [Traffic.alone, Call.closing, Phase.pooled], h.pool⟩

theorem Traffic.Shut.connections (h : s.Shut) : s.handle.connections = [] ∧ s.handle.lent = [] := by
  unfold Database.connections Database.lent
  cases hp : s.handle.pool with
  | none => exact ⟨rfl, rfl⟩
  | some p =>
    have hover := h.pool p hp
    simp [Pool.connections, hover.idle, hover.lent]

/-- A handle that is closed for good gets no new connection. -/
theorem Traffic.Shut.next_eq {l : Label} (h : s.Shut) (hstep : s.Step l m) : m.next = s.next := by
  have hopening {i : Nat} {p : Pool} (hp : s.handle.pool = some p) (hi : i ∈ p.opening) :
      False := by
    rw [(h.pool p hp).opening] at hi
    cases hi
  cases hstep with
  | @turn i a t keep hserves =>
    rw [answered, foldl_next]
    cases hserves with
    | built _ _ _ hp => exact absurd hp (h.building _)
    | acquired _ hgets =>
      cases hgets with
      | idle => rfl
      | opened hp hi => exact (hopening hp hi).elim
    | entered | waited | unbuilt | refused | checkpointed | uncheckpointed | drained
    | unlinked => rfl
  | giveUp keep =>
    simp only [release]
    split <;> rfl
  | refill hp hmore => simp [Pool.wantsMore, (h.pool _ hp).closed] at hmore
  | visit _ hgets =>
    cases hgets with
    | idle => rfl
    | opened hp hi => exact (hopening hp hi).elim
  | commit | queue | place | renew | retire => rfl

theorem Tends.shut (he : e.Durable) (h : Tends e s σ as r s' σ') (hs : s.Shut)
    (ha : Attended e s σ) : s'.Shut ∧ s'.next = s.next ∧ σ' = σ := by
  induction h with
  | finished => exact ⟨hs, rfl, rfl⟩
  | @told s t s' σ τ σ' a as r keep hserves hran _ ih =>
    have hstep := Traffic.Step.turn keep hserves
    obtain ⟨-, hshut⟩ := hs.step hstep
    obtain ⟨hs', hnext, hσ⟩ := ih hshut (ha.told he hserves hran keep)
    refine ⟨hs', hnext.trans (hs.next_eq hstep), hσ.trans ?_⟩
    rw [hs.connections.1, hshut.connections.1, Storage.follow_self]
    cases hran with
    | nothing => rfl
    | checkpoint hp =>
      have hlent := ha.lent
      rw [hs.connections.2, Call.carries, hp] at hlent
      cases hlent
  | aside hgoes hstep hl _ ih =>
    obtain ⟨-, hshut⟩ := hs.step hstep
    obtain ⟨hs', hnext, hσ⟩ := ih hshut (ha.aside he hgoes hstep hl)
    refine ⟨hs', hnext.trans (hs.next_eq hstep), hσ.trans ?_⟩
    rw [hs.connections.1, hshut.connections.1, Storage.follow_self]

/-- A call on a handle that is closed for good does nothing to the file. -/
theorem Over.call (he : e.Durable) (h : Over db)
    (htends : Tends e (.alone db next q) σ as r s' σ') :
    Traffic.Leads db q as r s'.handle ∧ Over s'.handle ∧ s'.next = next ∧ σ' = σ := by
  have hshut := h.alone next q
  obtain ⟨hconnections, hlent⟩ := hshut.connections
  have hattended : Attended e (.alone db next q) σ := by
    refine ⟨fun _ _ => rfl, hlent, ?_⟩
    rw [hconnections]
    exact ⟨.nil, by simp, by simp⟩
  have hleads : Traffic.Leads db q as r s'.handle := htends.ends.leads rfl h.building
  obtain ⟨hshut', hnext, hσ⟩ := htends.shut he hshut hattended
  exact ⟨hleads, ⟨hshut'.closed, hleads.building, hshut'.pool⟩, hnext, hσ⟩

theorem Tends.closed (h : Tends e s σ as r s' σ') (hc : s.Closed 0) (hstage : s.Stage 0) :
    s'.Closed 0 ∧ s'.Stage 0 := by
  induction h with
  | finished => exact ⟨hc, hstage⟩
  | told keep hserves _ _ ih =>
    obtain ⟨hc', hstage'⟩ := hc.step (.turn keep hserves) hstage
    exact ih hc' hstage'
  | aside _ hstep _ _ ih =>
    obtain ⟨hc', hstage'⟩ := hc.step hstep hstage
    exact ih hc' hstage'

theorem Traffic.Closes.adjusts (h : s.Closes 0) (ha : s.Adjusts m) : m.Closes 0 := by
  refine ⟨by rw [ha.calls, h.request], by rw [ha.calls, h.phase], by rw [ha.closed, h.opened],
    fun hnone j => ?_⟩
  rw [ha.calls]
  exact h.quiet (ha.unpooled hnone) j

theorem Tends.closes (h : Tends e s σ as r s' σ') (hc : s.Closes 0) (ho : s.Orderly) :
    s'.Closed 0 ∧ s'.Stage 0 := by
  induction h with
  | finished hphase =>
    rw [hc.phase] at hphase
    cases hphase
  | told keep hserves _ hrest _ =>
    have hawaits := hserves.awaits
    rw [hc.phase] at hawaits
    cases hawaits
    obtain ⟨hclosed, hstage⟩ := hc.step ho (.turn keep hserves)
    exact hrest.closed hclosed hstage
  | aside _ hstep hl _ ih =>
    exact ih (hc.adjusts (hstep.adjusts hl))
      (hstep.preserves Traffic.Orderly.adjusts Traffic.Orderly.resumed ho)

/-- A call that closes a handle leaves it closed for good. -/
theorem Rests.closes (h : Rests e db next σ) (hq : q.closes = true) (hopen : db.closed = false)
    (htends : Tends e (.alone db next q) σ as r s' σ') : Over s'.handle := by
  have hcloses : (Traffic.alone db next q).Closes 0 :=
    ⟨hq, rfl, hopen, fun _ _ => by simp [Traffic.alone]⟩
  have horderly : (Traffic.alone db next q).Orderly :=
    ⟨by simp [Traffic.alone], by simp [Traffic.alone],
      fun _ _ => by simp [Traffic.alone, Call.closing, Phase.pooled]⟩
  obtain ⟨hclosed, hstage⟩ := htends.closes hcloses horderly
  rw [Traffic.Stage, htends.phase] at hstage
  have hleads : Traffic.Leads db q as r s'.handle := htends.ends.leads rfl h.building
  exact ⟨hclosed.closed, hleads.building, hstage⟩

end Database

end SingleWriter
