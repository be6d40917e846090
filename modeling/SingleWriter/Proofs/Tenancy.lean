import SingleWriter.Proofs.Site

/-! What holds between the operations on a path.  A store that is closed has a handle without any
connection, and nothing that is asked of it touches a file.  At most one store is open, its
connections are at rest, and the file that it works on holds what the writes have saved. -/

namespace SingleWriter

open Write (ConnectionId Transcript Replays)

variable {K Q R α : Type} {e : Storage K Q R}

/-! ### Handles -/

namespace Database

variable {s t s' : Traffic} {σ σ' : e.State} {as : List Answer} {db db' : Database} {q : Request}
  {a : Answer} {r : Except ConnectionError Product}

/-- A pool that was built stays. -/
theorem Tends.pooled (h : Tends e s σ as r s' σ') (hp : s.handle.pool.isSome = true) :
    s'.handle.pool.isSome = true := by
  induction h with
  | finished => exact hp
  | @told s t _ _ _ _ a _ _ keep hserves _ _ ih =>
    apply ih
    have hresumes := Call.resume_resumes t.handle hserves.awaits
    have hafter : ((s.calls 0).resume t.handle a).2.1.pool.isSome = true := by
      rw [hresumes.pool]
      unfold Answer.poolAfter
      split
      · rfl
      · exact hserves.adjusts.pooled hp
    rw [← hserves.adjusts.calls] at hafter
    exact Traffic.Adjusts.pooled (s := t.become 0 _ _) (.foldl keep _ _) hafter
  | aside _ hstep hl _ ih => exact ih ((hstep.adjusts hl).pooled hp)

theorem Traffic.Leads.opens (h : Traffic.Leads db q as r db') (hq : q.closes = false)
    (hopen : db.closed = false) : db'.closed = false := by
  have hclosed := h.move.closed
  rw [condition_eq_closed, condition_eq_closed] at hclosed
  rw [← Bool.not_eq_true, hclosed, hopen, hq]
  simp

theorem Move.connects {wal : Bool} {path : String} {v : Visit} {after : Condition}
    (h : Move wal path v after) (hq : v.request = .connect) (hv : v.result = .ok .done) :
    after = .connected := by
  cases h with
  | unbuilt | absent | uncheckpointed | refused | turnedAway => cases hv
  | built | shared | lent | checkpointed => rfl
  | closes hcloses =>
    obtain rfl := hq
    cases hcloses

theorem Traffic.Leads.connected (h : Traffic.Leads db .connect as (.ok .done) db') :
    db'.closed = false ∧ db'.pool.isSome = true := by
  have hconnected := (connected_iff db').mpr (h.move.connects rfl rfl)
  simpa [Database.connected, and_comm] using hconnected

theorem Alike.building (h : db.Alike db') : db'.building = db.building := by
  cases h <;> rfl

/-- A closed handle turns a write away. -/
theorem Offers.closed {a : Write.Answer α} (h : db.Offers a) (hover : Over db) :
    a = .refused .closed := by
  obtain ⟨s, s', i, as, r, halike, hcall, hends, rfl⟩ := h
  have hbuilding : s.handle.building = false := halike.building.trans hover.building
  have hleads := hends.leads (by rw [hcall]) hbuilding
  rw [hcall] at hleads
  have hcondition : s.handle.condition = .closed := by
    rw [← halike.condition]
    exact (condition_eq_closed db).mpr hover.closed
  obtain rfl : r = .error .closed := hleads.move.result_of_closed hcondition rfl
  rfl

theorem Over.offers (h : Over db) : db.Offers (.refused .closed : Write.Answer α) := by
  have hserves : Traffic.Serves (.alone db 0 .acquire) 0 .proceed (.alone db 0 .acquire) :=
    .entered rfl
  have hresumed : Call.resume { request := .acquire } db .proceed =
      ({ request := .acquire, phase := .finished (.error .closed) }, db, []) := by
    simp [Call.resume, Call.enter, h.closed, Call.finish]
  refine ⟨_, _, 0, _, .error .closed, .refl db, rfl, .told true hserves (.finished ?_), rfl⟩
  rw [Traffic.answered_eq hresumed]
  simp [Traffic.become]

/-- An open handle may lend a connection. -/
theorem offers_connection (path : String) (config : DatabaseConfig) (p : Pool)
    (c : ConnectionId) :
    Offers ⟨path, config, false, false, some p⟩ (.acquired c : Write.Answer α) := by
  let s : Traffic := .alone
    ⟨path, config, false, false, some { limit := 1, minimum := 1, idle := [c] }⟩ 0 .acquire
  have hserves : s.Serves 0 .proceed s := .entered rfl
  refine ⟨s, _, 0, _, .ok (.connection c), .built .., rfl, .told true hserves
    (.aside (.queue (i := 0) (.inl rfl) rfl) (by simp)
      (.told true (.acquired rfl (.idle rfl rfl)) (.finished rfl))), rfl⟩

end Database

/-! ### Stores between operations -/

namespace Tenant

variable {t t' : Tenant} {n n' : ConnectionId} {σ σ' : e.State}

/-- A store that nobody uses, with its file. -/
structure Fit (e : Storage K Q R) (n : ConnectionId) (σ : e.State) (t : Tenant) : Prop where
  pool : t.handle.pool.isSome = true
  lock : t.lock = {}
  rests : t.handle.closed = false → Database.Rests e t.handle n σ
  ended : t.handle.closed = true → Database.Over t.handle
  idle : t.handle.closed = true → t.store.checkpointer = none

/-- The file of a closed store does not matter to it. -/
theorem Fit.elsewhere (h : t.Fit e n σ) (hclosed : t.handle.closed = true) :
    t.Fit e n' σ' :=
  ⟨h.pool, h.lock, fun hopen => by simp [hclosed] at hopen, h.ended, h.idle⟩

/-- What comes of a store that was asked for something, and of its file, between which contents the
commits lie. -/
structure Becomes (e : Storage K Q R) (n : ConnectionId) (σ : e.State) (t : Tenant)
    (n' : ConnectionId) (σ' : e.State) (t' : Tenant) : Prop where
  file : t'.file = t.file
  fit : t'.Fit e n' σ'
  closed : t.handle.closed = true → t'.handle.closed = true ∧ n' = n ∧ σ' = σ

/-- A call on the handle that is not that of a writer. -/
theorem Fit.call (he : e.Durable) (h : t.Fit e n σ) (t' : Tenant) {q : Database.Request}
    {as : List Database.Answer} {a : Except ConnectionError Database.Product}
    {u : Database.Traffic} (hq : q ≠ .acquire)
    (hidle : q.closes = true → t.store.checkpointer = none) (hsame : t'.store = t.store)
    (hlock : t'.lock = t.lock) (hhandle : t'.handle = u.handle) (hfile : t'.file = t.file)
    (htends : Database.Tends e (.alone t.handle n q) σ as a u σ') :
    Database.Traffic.Leads t.handle q as a t'.handle ∧ t.Becomes e n σ u.next σ' t' ∧
      e.committed σ' = e.committed σ ∧ (q.closes = true → t'.handle.closed = true) := by
  have hpool : t'.handle.pool.isSome = true := hhandle ▸ htends.pooled h.pool
  have hlock' : t'.lock = {} := hlock.trans h.lock
  cases hclosed : t.handle.closed with
  | true =>
    obtain ⟨hleads, hover, hnext, hσ⟩ := (h.ended hclosed).call he htends
    rw [← hhandle] at hleads hover
    refine ⟨hleads, ⟨hfile, ⟨hpool, hlock', fun hopen => ?_, fun _ => hover, fun _ => ?_⟩,
      fun _ => ⟨hover.closed, hnext, hσ⟩⟩, by rw [hσ], fun _ => hover.closed⟩
    · simp [hover.closed] at hopen
    · rw [hsame, h.idle hclosed]
  | false =>
    obtain ⟨hleads, hrests, hcommitted⟩ := (h.rests hclosed).call he hq htends
    cases hcloses : q.closes with
    | true =>
      have hover := (h.rests hclosed).closes hcloses hclosed htends
      rw [← hhandle] at hleads hover
      refine ⟨hleads, ⟨hfile, ⟨hpool, hlock', fun hopen => ?_, fun _ => hover, fun _ => ?_⟩,
        fun hc => by simp [hclosed] at hc⟩, hcommitted, fun _ => hover.closed⟩
      · simp [hover.closed] at hopen
      · rw [hsame, hidle hcloses]
    | false =>
      rw [← hhandle] at hleads hrests
      have hopen := hleads.opens hcloses hclosed
      exact ⟨hleads, ⟨hfile, ⟨hpool, hlock', fun _ => hrests, fun hc => by simp [hopen] at hc,
        fun hc => by simp [hopen] at hc⟩, fun hc => by simp [hclosed] at hc⟩, hcommitted,
        fun hc => by cases hc⟩

/-! ### Writes -/

section

variable {s : Site e} {p : Pool} {w : Write.Workload Q R α} {ls : List (Write.Label α)}
  {z : Write.Scene e.toBackend α} {r : Except WriteError α}

/-- The store after a write. -/
def wrote (t : Tenant) (z : Write.Scene e.toBackend α) : Tenant :=
  { t with handle := { t.handle with pool := some z.pool }, lock := z.lock }

theorem Fit.initial (h : t.Fit e s.next (s.files t.file)) (hp : t.handle.pool = some p) :
    (s.scene t p w).Initial w := by
  have hkeeps : e.Keeps p.idle s.next (s.files t.file) := by
    cases hclosed : t.handle.closed with
    | true =>
      rw [((h.ended hclosed).pool p hp).idle]
      exact ⟨.nil, by simp, by simp⟩
    | false =>
      obtain ⟨hnodup, hlt, hrest⟩ := (h.rests hclosed).keeps
      rw [Database.connections_eq hp] at hnodup hlt hrest
      exact ⟨(List.nodup_append.mp hnodup).1, fun c hc => hlt c (List.mem_append_left _ hc),
        fun c hc => hrest c (List.mem_append_left _ hc)⟩
  exact ⟨fun _ => rfl, fun _ => rfl, hkeeps.nodup, hkeeps.lt, hkeeps.rest⟩

theorem Fit.write (he : e.Durable) (h : t.Fit e s.next (s.files t.file))
    (hp : t.handle.pool = some p) (hrun : (s.scene t p w).Run w ls z)
    (hsolo : Write.Scene.Solo ls) (hr : (z.calls 0).phase = .finished r) :
    t.Becomes e s.next (s.files t.file) z.next z.state (t.wrote z) := by
  have hinitial := h.initial (w := w) hp
  have hlock : z.lock = {} := hrun.unlocks hinitial h.lock hsolo hr
  cases hclosed : t.handle.closed with
  | true =>
    have hidle := hrun.idle hsolo hinitial ((h.ended hclosed).pool p hp)
    refine ⟨rfl, ⟨rfl, hlock, fun hopen => ?_, fun _ => ⟨hclosed, (h.ended hclosed).building, ?_⟩,
      fun _ => h.idle hclosed⟩, fun _ => ⟨hclosed, hidle.next, hidle.state⟩⟩
    · exact absurd (hclosed.symm.trans hopen) (by simp)
    · rintro p' ⟨⟩
      exact hidle.ended
  | false =>
    have hrests := h.rests hclosed
    have hlent₀ : p.lent = [] := by rw [← Database.lent_eq hp, hrests.lent]
    obtain ⟨hlent, hhoused⟩ := hrun.rests_pool he.toLawful hinitial hsolo hlent₀ hr
    have hconnections : (t.wrote z).handle.connections = z.pool.idle := by
      rw [Database.connections_eq (p := z.pool) rfl, Pool.connections, hlent, List.append_nil]
    refine ⟨rfl, ⟨rfl, hlock, fun _ => ⟨hrests.building, hlent, ?_⟩, fun hc => ?_, fun hc => ?_⟩,
      fun hc => ?_⟩
    · rw [hconnections]
      exact ⟨hhoused.idle_nodup, hhoused.idle_lt, hhoused.idle_rest⟩
    · exact absurd (hclosed.symm.trans hc) (by simp)
    · exact absurd (hclosed.symm.trans hc) (by simp)
    · exact absurd (hclosed.symm.trans hc) (by simp)

end

end Tenant

/-! ### Sites between operations -/

namespace Site

variable {s s' : Site e} {ts ts' : Transcript Q R} {k : Nat} {t t' : Tenant} {σ : e.State}
  {n : ConnectionId}

/-- The file at the path and that of an open store are in use. -/
def InUse (s : Site e) (f : Nat) : Prop :=
  s.file? = some f ∨ ∃ t ∈ s.tenants, t.handle.closed = false ∧ t.file = f

/-- At most one store is open, it works on the file at the path if there is one, and the file that
is in use holds what some statements make of a blank file. -/
structure Sound (s : Site e) (ts : Transcript Q R) : Prop where
  fit {k : Nat} {t : Tenant} : s.tenants[k]? = some t → t.Fit e s.next (s.files t.file)
  last {k : Nat} {t : Tenant} : s.tenants[k]? = some t → t.handle.closed = false →
    k + 1 = s.tenants.length
  one {f g : Nat} : s.InUse f → s.InUse g → f = g
  holds {f : Nat} : s.InUse f → Replays e.effect e.blank ts (e.committed (s.files f))

theorem Initial.sound (h : s.Initial) : s.Sound [] := by
  have hnone (k : Nat) (t : Tenant) : s.tenants[k]? ≠ some t := by simp [h.tenants]
  have hunused (f : Nat) : ¬s.InUse f := by
    rintro (hf | ⟨t, ht, -⟩)
    · rw [h.file?] at hf
      cases hf
    · rw [h.tenants] at ht
      cases ht
  exact ⟨fun h => absurd h (hnone _ _), fun h => absurd h (hnone _ _),
    fun h => absurd h (hunused _), fun h => absurd h (hunused _)⟩

theorem Sound.unlink (h : s.Sound ts) : { s with file? := none }.Sound ts := by
  have huse {f : Nat} (hf : { s with file? := none }.InUse f) : s.InUse f := by
    rcases hf with hf | hf
    · cases hf
    · exact .inr hf
  exact ⟨h.fit, h.last, fun hf hg => h.one (huse hf) (huse hg), fun hf => h.holds (huse hf)⟩

/-- The file of an open store is in use, and no other one. -/
theorem Sound.inUse_iff (h : s.Sound ts) (ht : s.tenants[k]? = some t)
    (hopen : t.handle.closed = false) (f : Nat) : s.InUse f ↔ f = t.file := by
  have huse : s.InUse t.file := .inr ⟨t, List.mem_of_getElem? ht, hopen, rfl⟩
  exact ⟨fun hf => h.one hf huse, fun hf => hf ▸ huse⟩

theorem leave_tenant {j : Nat} {u : Tenant} (hj : (s.leave k t' σ n).tenants[j]? = some u) :
    j = k ∧ u = t' ∨ j ≠ k ∧ s.tenants[j]? = some u := by
  rw [leave, List.getElem?_set] at hj
  split at hj
  · rename_i hkj
    split at hj
    · exact .inl ⟨hkj.symm, (Option.some.inj hj).symm⟩
    · cases hj
  · rename_i hkj
    exact .inr ⟨fun h => hkj h.symm, hj⟩

/-- An operation on one store. -/
theorem Sound.leave (h : s.Sound ts) (ht : s.tenants[k]? = some t)
    (hbecomes : t.Becomes e s.next (s.files t.file) n σ t')
    (hclosed : t.handle.closed = true → ts' = ts)
    (hopen : t.handle.closed = false → Replays e.effect e.blank ts' (e.committed σ)) :
    (s.leave k t' σ n).Sound ts' := by
  obtain ⟨hfile, hfit, hstays⟩ := hbecomes
  cases hc : t.handle.closed with
  | true =>
    obtain ⟨hclosed', hnext, hσ⟩ := hstays hc
    obtain rfl := hclosed hc
    have hfiles : (s.leave k t' σ n).files = s.files := by
      rw [Site.leave, hσ, ← hfile]
      exact Function.update_eq_self ..
    have huse {f : Nat} (hf : (s.leave k t' σ n).InUse f) : s.InUse f := by
      rcases hf with hf | ⟨u, hu, huopen, rfl⟩
      · exact .inl hf
      · obtain ⟨j, hj⟩ := List.getElem?_of_mem hu
        rcases leave_tenant hj with ⟨-, rfl⟩ | ⟨-, hj⟩
        · simp [hclosed'] at huopen
        · exact .inr ⟨u, List.mem_of_getElem? hj, huopen, rfl⟩
    refine ⟨fun {j u} hj => ?_, fun {j u} hj hu => ?_, fun hf hg => h.one (huse hf) (huse hg),
      fun {f} hf => by rw [hfiles]; exact h.holds (huse hf)⟩
    · rw [hfiles]
      rcases leave_tenant hj with ⟨-, rfl⟩ | ⟨-, hj⟩
      · exact hfit.elsewhere hclosed'
      · exact hnext ▸ h.fit hj
    · rcases leave_tenant hj with ⟨-, rfl⟩ | ⟨-, hj⟩
      · simp [hclosed'] at hu
      · exact (h.last hj hu).trans (List.length_set ..).symm
  | false =>
    have hself : (s.leave k t' σ n).files t'.file = σ := Function.update_self ..
    have hothers {j : Nat} {u : Tenant} (hj : s.tenants[j]? = some u) (hjk : j ≠ k) :
        u.handle.closed = true := by
      by_contra hu
      have hlast := h.last hj (by simpa using hu)
      have hlast' := h.last ht hc
      omega
    have huse {f : Nat} (hf : (s.leave k t' σ n).InUse f) : f = t'.file := by
      rw [hfile]
      rcases hf with hf | ⟨u, hu, huopen, rfl⟩
      · exact (h.inUse_iff ht hc f).mp (.inl hf)
      · obtain ⟨j, hj⟩ := List.getElem?_of_mem hu
        rcases leave_tenant hj with ⟨-, rfl⟩ | ⟨hjk, hj⟩
        · exact hfile
        · simp [hothers hj hjk] at huopen
    refine ⟨fun {j u} hj => ?_, fun {j u} hj hu => ?_,
      fun hf hg => (huse hf).trans (huse hg).symm, fun {f} hf => ?_⟩
    · rcases leave_tenant hj with ⟨-, rfl⟩ | ⟨hjk, hj⟩
      · rw [hself]
        exact hfit
      · exact (h.fit hj).elsewhere (hothers hj hjk)
    · rcases leave_tenant hj with ⟨rfl, -⟩ | ⟨hjk, hj⟩
      · exact (h.last ht hc).trans (List.length_set ..).symm
      · simp [hothers hj hjk] at hu
    · rw [huse hf, hself]
      exact hopen hc

end Site

end SingleWriter
