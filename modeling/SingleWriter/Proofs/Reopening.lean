import SingleWriter.Proofs.Winding

/-! What becomes of the writes on a path.  A new store sees all of them that have come to a value
since the file was created, and nothing else.  A store that was shut down turns writes and
checkpoints away, and may be shut down again. -/

namespace SingleWriter

open Write (ConnectionId Transcript Replays turnsOf)

variable {K Q R α : Type} {e : Storage K Q R}

namespace Site

variable {s m : Site e} {ts : Transcript Q R} {k : Nat} {t : Tenant} {σ : e.State}
  {n : ConnectionId} {ops : List (Operation Q R α)} {op : Operation Q R α}

/-! ### Openings -/

section

variable {created : Bool} {f : Nat} {config : StoreConfig} {now : Nat} {σ' : e.State}
  {u : Database.Traffic} {as : List Database.Answer}
  {a : Except ConnectionError Database.Product}

theorem unused_rests (path : String) (config : DatabaseConfig) (n : ConnectionId) (σ : e.State) :
    Database.Rests e { path, config } n σ :=
  ⟨rfl, rfl, .nil, by simp [Database.connections], by simp [Database.connections]⟩

/-- A file that is found or created holds what it held before, or nothing. -/
theorem Finds.holds (he : e.Durable) (hs : s.Sound ts) (h : s.Finds created f σ) :
    Replays e.effect e.blank (if created then [] else ts) (e.committed σ) := by
  cases h with
  | there hf => exact hs.holds (.inl hf)
  | created _ hσ =>
    rw [he.created hσ]
    exact .start

/-- What an opening makes of the files, whatever comes of it. -/
theorem Sound.found (hs : s.Sound ts) (hclosed : ∀ t ∈ s.tenants, t.handle.closed = true)
    (hσ : Replays e.effect e.blank (if created then [] else ts) (e.committed σ)) :
    (s.found created f σ n).Sound (if created then [] else ts) := by
  have hopen {t : Tenant} (ht : t ∈ s.tenants) (hc : t.handle.closed = false) : False := by
    simp [hclosed t ht] at hc
  have huse {g : Nat} (hg : (s.found created f σ n).InUse g) : g = f := by
    rcases hg with hg | ⟨t, ht, hc, -⟩
    · exact (Option.some.inj hg).symm
    · exact (hopen ht hc).elim
  refine ⟨fun ht => ?_, fun ht hc => (hopen (List.mem_of_getElem? ht) hc).elim,
    fun hf hg => (huse hf).trans (huse hg).symm, fun {g} hg => ?_⟩
  · exact (hs.fit ht).elsewhere (hclosed _ (List.mem_of_getElem? ht))
  · rw [huse hg]
    show Replays _ _ _ (e.committed (Function.update s.files f σ f))
    rwa [Function.update_self]

/-- A new store joins those that are closed. -/
theorem Sound.join (hs : s.Sound ts) (hclosed : ∀ t ∈ s.tenants, t.handle.closed = true)
    (hfile : s.file? = some t.file) (hfit : t.Fit e s.next (s.files t.file)) :
    { s with tenants := s.tenants ++ [t] }.Sound ts := by
  have hcases {j : Nat} {u : Tenant} (hu : (s.tenants ++ [t])[j]? = some u) :
      s.tenants[j]? = some u ∨ j = s.tenants.length ∧ u = t := by
    rw [List.getElem?_append] at hu
    split at hu
    · exact .inl hu
    · rw [List.getElem?_singleton] at hu
      split at hu
      · exact .inr ⟨by omega, (Option.some.inj hu).symm⟩
      · cases hu
  have hopen {t : Tenant} (ht : t ∈ s.tenants) (hc : t.handle.closed = false) : False := by
    simp [hclosed t ht] at hc
  have huse {g : Nat} (hg : { s with tenants := s.tenants ++ [t] }.InUse g) : g = t.file := by
    rcases hg with hg | ⟨u, hu, hc, rfl⟩
    · exact Option.some.inj (hg.symm.trans hfile)
    · rcases List.mem_append.mp hu with hu | hu
      · exact (hopen hu hc).elim
      · rw [List.mem_singleton.mp hu]
  refine ⟨fun hu => ?_, fun hu hc => ?_, fun hf hg => (huse hf).trans (huse hg).symm, fun hg => ?_⟩
  · rcases hcases hu with hu | ⟨-, rfl⟩
    · exact hs.fit hu
    · exact hfit
  · rcases hcases hu with hu | ⟨rfl, -⟩
    · exact (hopen (List.mem_of_getElem? hu) hc).elim
    · simp
  · rw [huse hg]
    exact hs.holds (.inl hfile)

end

/-! ### Operations -/

/-- A write on a store that is closed comes to an error. -/
theorem wrote_error {p : Pool} {w : Write.Workload Q R α} {ls : List (Write.Label α)}
    {z : Write.Scene e.toBackend α} {v : α} (h : t.Fit e s.next (s.files t.file))
    (hp : t.handle.pool = some p) (hrun : (s.scene t p w).Run w ls z)
    (hoffers : ∀ a ∈ turnsOf 0 ls, a.phase = .acquiring → t.handle.Offers a.answer)
    (hc : t.handle.closed = true) : (z.calls 0).phase ≠ .finished (.ok v) :=
  hrun.no_value (h.initial hp) fun a ha hphase => (hoffers a ha hphase).closed (h.ended hc)

theorem Step.sound (he : e.Durable) (h : m.Step op s) (hs : m.Sound (Operation.saved ops)) :
    s.Sound (Operation.saved (ops ++ [op])) ∧ ∀ k, m.Shut k → s.Shut k := by
  rw [Operation.saved_concat]
  have hstep := h
  cases h with
  | @opened created f config now u as σ σ' _ _ hclosed hfinds htends =>
    obtain ⟨hleads, hrests, hcommitted⟩ := (unused_rests _ _ _ σ).call he (by simp) htends
    obtain ⟨hopen, hpool⟩ := hleads.connected
    have hholds := hfinds.holds he hs
    rw [← hcommitted] at hholds
    have hfit : (Tenant.opened config now u.handle f).Fit e u.next
        ((m.found created f σ' u.next).files f) := by
      refine ⟨hpool, rfl, fun _ => ?_, fun hc => ?_, fun hc => ?_⟩
      · show Database.Rests e u.handle u.next (Function.update m.files f σ' f)
        rwa [Function.update_self]
      · exact absurd (hopen.symm.trans hc) (by simp)
      · exact absurd (hopen.symm.trans hc) (by simp)
    have hsound := (hs.found (n := u.next) hclosed hholds).join
      (t := .opened config now u.handle f) hclosed rfl hfit
    refine ⟨?_, fun j hj => ?_⟩
    · cases created <;> exact hsound
    · obtain ⟨t, ht, hc⟩ := hj
      obtain ⟨hlt, -⟩ := List.getElem?_eq_some_iff.mp ht
      exact ⟨t, (List.getElem?_append_left hlt).trans ht, hc⟩
  | @unopened created f config u as x σ σ' _ _ hclosed hfinds htends =>
    obtain ⟨-, -, hcommitted⟩ := (unused_rests _ _ _ σ).call he (by simp) htends
    have hholds := hfinds.holds he hs
    rw [← hcommitted] at hholds
    have hsound := hs.found (f := f) (n := u.next) hclosed hholds
    refine ⟨?_, fun _ => id⟩
    cases created <;> exact hsound
  | refused => exact ⟨hs, fun _ => id⟩
  | @wrote k t p w ls z r ht hp _ hrun hsolo hr hoffers =>
    have hfit := hs.fit ht
    have hbecomes := hfit.write he hp hrun hsolo hr
    refine ⟨hs.leave ht hbecomes (fun hc => ?_) (fun hc => ?_),
      leave_stays ht fun hc => (hbecomes.closed hc).1⟩
    · cases r with
      | ok v => exact absurd hr (wrote_error hfit hp hrun hoffers hc)
      | error => rfl
    · have hholds := hs.holds ((hs.inUse_iff ht hc _).mpr rfl)
      cases r with
      | ok v =>
        obtain ⟨-, hreplays⟩ := hrun.commits_value he.toLawful (hfit.initial hp) hsolo hr
        exact hholds.append hreplays
      | error x =>
        have hsame := hrun.commits_nothing he.toLawful (hfit.initial hp) hsolo hr
        show Replays _ _ _ (e.committed z.state)
        rw [hsame]
        exact hholds
  | checkpointed | ticked | shutDown =>
    obtain ⟨hsound, hspares⟩ := hstep.spares he hs rfl
    exact ⟨hsound, hspares.stays⟩

/-- What holds when some operations have come to their end. -/
structure Reached (s : Site e) (ops : List (Operation Q R α)) : Prop where
  sound : s.Sound (Operation.saved ops)
  lost : s.file? = none → Operation.lost ops = true
  shut {k : Nat} : (∃ remove r, .shutDown k remove r ∈ ops) → s.Shut k

theorem Reached.step (he : e.Durable) (hm : m.Reached ops) (h : m.Step op s) :
    s.Reached (ops ++ [op]) := by
  obtain ⟨hsound, hstays⟩ := h.sound he hm.sound
  refine ⟨hsound, fun hnone => ?_, ?_⟩
  · rw [Operation.lost_concat]
    cases h with
    | opened | unopened => cases hnone
    | refused => simp [Operation.loses, hm.lost hnone]
    | wrote | checkpointed | ticked => exact hm.lost hnone
    | @shutDown k remove r _ hwinds =>
      have hwound := hwinds.wound he hm.sound
      cases remove with
      | true => simp [Operation.loses]
      | false =>
        rw [hwound.there rfl] at hnone
        simp [Operation.loses, hm.lost hnone]
  · rintro k ⟨remove, r, hmem⟩
    rcases List.mem_append.mp hmem with hmem | hmem
    · exact hstays _ (hm.shut ⟨remove, r, hmem⟩)
    · obtain rfl := List.mem_singleton.mp hmem
      cases h with
      | shutDown hwinds => exact (hwinds.wound he hm.sound).shut

theorem Run.reached (he : e.Durable) {s₀ : Site e} (h : s₀.Initial) (hrun : s₀.Run ops s) :
    s.Reached ops := by
  induction hrun with
  | start => exact ⟨h.sound, fun _ => rfl, fun ⟨_, _, hmem⟩ => by cases hmem⟩
  | step _ hstep ih => exact ih.step he hstep

/-- What an operation comes to that follows others, `ops`. -/
structure Upheld (ops : List (Operation Q R α)) (m : Site e) (op : Operation Q R α)
    (s : Site e) : Prop where
  /-- Checkpoints and shutdowns change the contents of no file. -/
  upkeep : op.isUpkeep = true → ∀ f, e.committed (s.files f) = e.committed (m.files f)
  /-- After a shutdown, a write that nobody cancels makes one attempt, invokes no operation, tells
  no event and passes on that the handle is closed. -/
  write {k : Nat} {w : Write.Workload Q R α} {ls : List (Write.Label α)}
    {r : Except WriteError α} {work : Transcript Q R} : op = .wrote k w ls r work →
    (∃ remove x, .shutDown k remove x ∈ ops) → (∀ t ∈ turnsOf 0 ls, t.answer ≠ .cancelled) →
    r = .error (.connection .closed) ∧ Write.attempts (turnsOf 0 ls) = [1] ∧
      Write.invocations 0 ls = [] ∧ Write.events (turnsOf 0 ls) = []
  /-- A value is that of the operation, and `work` is what it has asked in its last run. -/
  value {k : Nat} {w : Write.Workload Q R α} {ls : List (Write.Label α)} {v : α}
    {work : Transcript Q R} : op = .wrote k w ls (.ok v) work →
    ∃ n p, w.operation 0 n p ∧ p.Follows work (.done (.ok v))
  checkpoint {k : Nat} {mode : String} {r : Except StoreError Database.Product} :
    op = .checkpointed k mode r → (∃ remove x, .shutDown k remove x ∈ ops) →
    r = .error (.connection .closed)
  shutDown {k : Nat} {r : Except StoreError Unit} : op = .shutDown k false r →
    r = .ok () ∧ s.file? = m.file?
  removed {k : Nat} : op = .shutDown k true (.ok ()) → s.file? = none
  /-- An opening creates the file if there is none, which is so only at first and after a removal,
  and the new store works on it. -/
  opened {created : Bool} : op = .opened created → (created = true ↔ m.file? = none) ∧
    (created = true → Operation.lost ops = true) ∧
    ∃ t, s.tenants = m.tenants ++ [t] ∧ t.handle.closed = false ∧ s.file? = some t.file ∧
      (created = false → m.file? = some t.file)
  /-- The file of an open store holds just what the writes have saved since it was created. -/
  sees {t : Tenant} : t ∈ s.tenants → t.handle.closed = false →
    Replays e.effect e.blank (Operation.saved (ops ++ [op])) (e.committed (s.files t.file))

/-- A store that is shut down still answers. -/
structure Answers (α : Type) (m : Site e) (k : Nat) : Prop where
  write (w : Write.Workload Q R α) {t : Tenant} : m.tenants[k]? = some t →
    w.policy = t.store.config.policy → ∃ ls work s,
      m.Step (.wrote k w ls (.error (.connection .closed)) work) s ∧
        ∀ t ∈ turnsOf 0 ls, t.answer ≠ .cancelled
  checkpoint (mode : String) : ∃ s,
    m.Step (.checkpointed k mode (.error (.connection .closed)) : Operation Q R α) s
  shutDown : ∃ s, m.Step (.shutDown k false (.ok ()) : Operation Q R α) s

theorem Reached.upheld (he : e.Durable) (hm : m.Reached ops) (h : m.Step op s) :
    Upheld ops m op s where
  upkeep := fun hop => (h.spares he hm.sound hop).2.committed
  write := by
    rintro k w ls r work rfl hshut hgoes
    obtain ⟨t, ht, hc⟩ := hm.shut hshut
    cases h with
    | wrote ht' hp _ hrun _ hr hoffers =>
      obtain rfl := Option.some.inj (ht.symm.trans ht')
      have hfit := hm.sound.fit ht
      obtain ⟨hresult, hmade, htold, hinvoked⟩ := hrun.turnedAway (hfit.initial hp) hr
        (fun a ha hphase => (hoffers a ha hphase).closed (hfit.ended hc)) hgoes
      exact ⟨hresult, hmade, hinvoked, htold⟩
  value := by
    rintro k w ls v work rfl
    cases h with
    | wrote ht hp _ hrun hsolo hr _ =>
      obtain ⟨⟨p, hop, hfollows⟩, -⟩ := hrun.commits_value he.toLawful
        ((hm.sound.fit ht).initial hp) hsolo hr
      exact ⟨_, p, hop, hfollows⟩
  checkpoint := by
    rintro k mode r rfl hshut
    obtain ⟨t, ht, hc⟩ := hm.shut hshut
    cases h with
    | @checkpointed _ t' _ _ _ a _ ht' htends =>
      obtain rfl := Option.some.inj (ht.symm.trans ht')
      obtain ⟨hleads, -⟩ := ((hm.sound.fit ht).ended hc).call he htends
      obtain rfl : a = .error .closed :=
        hleads.move.result_of_closed ((Database.condition_eq_closed _).mpr hc) rfl
      rfl
  shutDown := by
    rintro k r rfl
    cases h with
    | shutDown hwinds =>
      have hwound := hwinds.wound he hm.sound
      exact ⟨hwound.ok rfl, hwound.there rfl⟩
  removed := by
    rintro k rfl
    cases h with
    | shutDown hwinds => exact (hwinds.wound he hm.sound).gone rfl rfl
  opened := by
    rintro created rfl
    cases h with
    | opened _ _ _ hfinds htends =>
      obtain ⟨hleads, -⟩ := (unused_rests _ _ _ _).call he (by simp) htends
      obtain ⟨hopen, -⟩ := hleads.connected
      refine ⟨?_, fun hcreated => ?_, _, rfl, hopen, rfl, fun hcreated => ?_⟩
      · cases hfinds with
        | there hf => simp [hf]
        | created hf => simp [hf]
      · cases hfinds with
        | there => cases hcreated
        | created hf => exact hm.lost hf
      · cases hfinds with
        | there hf => exact hf
        | created => cases hcreated
  sees := fun ht hopen => (hm.step he h).sound.holds (.inr ⟨_, ht, hopen, rfl⟩)

/-! ### Closed stores -/

/-- A call that needs one answer only. -/
theorem tends_of_entered {db : Database} {q : Database.Request}
    {r : Except ConnectionError Database.Product}
    (h : ({ request := q } : Database.Call).resume db .proceed =
      ({ request := q, phase := .finished r }, db, [])) (n : ConnectionId) (σ : e.State) :
    ∃ u σ', Database.Tends e (.alone db n q) σ [.proceed] r u σ' := by
  refine ⟨_, _, .told true (.entered rfl) (.nothing (by simp [Database.Traffic.alone]))
    (.finished ?_)⟩
  rw [Database.Traffic.answered_eq (c := { request := q, phase := .finished r }) h]
  simp [Database.Traffic.become]

theorem Shut.write (hs : m.Sound ts) (ht : m.tenants[k]? = some t) (hc : t.handle.closed = true)
    (w : Write.Workload Q R α) (hw : w.policy = t.store.config.policy) :
    ∃ ls work s, m.Step (.wrote k w ls (.error (.connection .closed)) work) s ∧
      ∀ t ∈ turnsOf 0 ls, t.answer ≠ .cancelled := by
  have hfit := hs.fit ht
  obtain ⟨p, hp⟩ := Option.isSome_iff_exists.mp hfit.pool
  obtain ⟨ls, z, hrun, haway, hended⟩ := (hfit.initial (w := w) hp).turnedAway hfit.lock
  obtain ⟨hsolo, hrefused, hgoes⟩ := Write.Scene.turns_of_away haway
  refine ⟨ls, _, _, .wrote ht hp hw hrun hsolo hended fun a ha hphase => ?_, hgoes⟩
  rw [hrefused a ha hphase]
  exact (hfit.ended hc).offers

theorem Shut.checkpoint (ht : m.tenants[k]? = some t) (hc : t.handle.closed = true)
    (mode : String) :
    ∃ s, m.Step (.checkpointed k mode (.error (.connection .closed)) : Operation Q R α) s := by
  have hresume (mode : CheckpointMode) :
      ({ request := .checkpoint mode } : Database.Call).resume t.handle .proceed =
        ({ request := .checkpoint mode, phase := .finished (.error .closed) }, t.handle, []) := by
    simp [Database.Call.resume, Database.Call.enter, Database.openPool, hc, Database.Call.finish]
  obtain ⟨u, σ, htends⟩ :=
    tends_of_entered (e := e) (hresume (.parse mode)) m.next (m.files t.file)
  exact ⟨_, .checkpointed ht htends⟩

theorem Shut.shutDown (hs : m.Sound ts) (ht : m.tenants[k]? = some t)
    (hc : t.handle.closed = true) :
    ∃ s, m.Step (.shutDown k false (.ok ()) : Operation Q R α) s := by
  have hidle := (hs.fit ht).idle hc
  let d : Shutdown := { remove := false }
  let t' : Tenant := { t with store := (d.enter t.store).2 }
  let m' : Site e := m.leave k t' (m.files t.file) m.next
  have henter : (d.enter t.store).1 = d.close := by
    simp only [Shutdown.enter, Store.stop, hidle]
  have hresume : ({ request := .close } : Database.Call).resume t.handle .proceed =
      ({ request := .close, phase := .finished (.ok .done) }, t.handle, []) := by
    show ({ request := .close } : Database.Call).enter t.handle = _
    rw [Database.Call.enter_again rfl hc]
    rfl
  obtain ⟨u, σ, htends⟩ := tends_of_entered (e := e) hresume m'.next (m'.files t'.file)
  have hcalled : Winds k m' d.close (.ok ()) _ :=
    .called (c := { request := .close }) rfl (leave_self ht) htends (.kept (by simp))
      (.finished (by simp [d, Shutdown.result?, Shutdown.advance, Shutdown.close,
        Database.Call.result?, htends.phase]))
  exact ⟨_, .shutDown (.entered rfl ht (henter ▸ hcalled))⟩

theorem Reached.answers (hm : m.Reached ops) (hk : m.Shut k) : m.Answers α k := by
  obtain ⟨t, ht, hc⟩ := hk
  refine ⟨fun w u hu hw => ?_, fun mode => Shut.checkpoint ht hc mode,
    Shut.shutDown hm.sound ht hc⟩
  obtain rfl := Option.some.inj (ht.symm.trans hu)
  exact Shut.write hm.sound ht hc w hw

/-- Completed operations on one path, one after the other.  Checkpoints and shutdowns change no
contents.  After the first shutdown or removal of a store, each write on it that nobody cancels
makes one attempt, invokes no operation, tells no event and comes to the error that the handle is
closed; each checkpoint comes to the same error; and each shutdown succeeds.  An open store sees
just the writes that have come to a value since its file was created, which happens at first and
after a removal.  A removal through an old store takes nothing from a store that is open: it keeps
its file and the writes in it, and only the next store begins with an empty one. -/
theorem reopening_keeps_writes (he : e.Durable) {s₀ : Site e} (h : s₀.Initial)
    (hrun : s₀.Run ops m) :
    (∀ op s, m.Step op s → Upheld ops m op s) ∧
      ∀ k, (∃ remove r, .shutDown k remove r ∈ ops) → m.Answers α k := by
  have hm := hrun.reached he h
  exact ⟨fun op s hstep => hm.upheld he hstep, fun k hk => hm.answers (hm.shut hk)⟩

/-! ### A path -/

def unvisited : Site Write.Ledger.storage where
  path := "app.db"
  files := fun _ => {}

def defaults : StoreConfig := { path := "app.db" }

/-- Each write inserts a row. -/
def insertions : Write.Workload String Nat Nat :=
  { Write.Scene.insertions with policy := defaults.policy }

def firstPool : Pool := { limit := 1, minimum := 1, idle := [0] }

def firstTenant : Tenant :=
  .opened defaults 0 { path := "app.db", config := defaults.database, pool := some firstPool } 0

/-- A store is opened, its first write needs two attempts, and it is shut down.  Its last checkpoint
fails.  Another store is opened on the same file. -/
theorem reopening_keeps_insertion :
    ∃ (ops : List (Operation String Nat Nat)) (m : Site Write.Ledger.storage),
      unvisited.Initial ∧ unvisited.Run ops m ∧ Operation.saved ops = [("0", .ok 1)] ∧
        m.tenants.map (·.handle.closed) = [true, false] ∧ m.file? = some 0 ∧
        (m.files 0).rows = ["0"] ∧ (∀ op s, m.Step op s → Upheld ops m op s) ∧
        m.Answers Nat 0 := by
  have h : unvisited.Initial := ⟨rfl, rfl⟩
  have r := Run.start (Q := String) (R := Nat) (α := Nat) (s := unvisited)
  have r := r.step (@Step.opened _ _ _ _ _ _ _ _ defaults 0 _ _ _ _ rfl rfl (by simp [unvisited])
    (.created rfl rfl)
    (.told true (.entered rfl) (.nothing (by rintro _ ⟨⟩))
      (.told true (.built 1 1 1 rfl) (.nothing (by rintro _ ⟨⟩)) (.finished rfl))))
  have start {ops : List (Operation String Nat Nat)} {m : Site Write.Ledger.storage}
      (_ : unvisited.Run ops m) : (m.scene firstTenant firstPool insertions).Run insertions []
        (m.scene firstTenant firstPool insertions) := .start
  have z := start r
  have z := z.step (.turn true (.checked (i := 0) (a := .proceed) rfl (.inl rfl)))
  have z := z.step (.queue (i := 0) rfl)
  have z := z.step (.turn true (.lent (i := 0) rfl rfl))
  have z := z.step (.turn true (.begins (i := 0) (r := .error .locked) rfl (.inr ⟨rfl, rfl⟩)))
  have z := z.step (.turn true (.woken (i := 0) (a := .proceed) rfl (.inl rfl)))
  have z := z.step (.turn true (.checked (i := 0) (a := .proceed) rfl (.inl rfl)))
  have z := z.step (.queue (i := 0) rfl)
  have z := z.step (.turn true (.lent (i := 0) rfl rfl))
  have z := z.step (.turn true (.begins (i := 0) (r := .ok ()) rfl (.inl ⟨rfl, rfl, rfl⟩)))
  have z := z.step (.invoke (i := 0) rfl rfl rfl)
  have z := z.step (.ask (i := 0) (r := .ok 1) rfl rfl (.inl ⟨_, rfl, rfl, rfl⟩))
  have z := z.step (.turn true (.worked (i := 0) rfl rfl))
  have z := z.step (.turn true (.commit (i := 0) (r := .ok ()) rfl (.inl ⟨_, rfl, rfl, rfl⟩)))
  have hoffers (a : Write.Answer Nat) (ha : a = .acquired 0) : firstTenant.handle.Offers a :=
    ha ▸ Database.offers_connection ..
  have r := r.step (.wrote (k := 0) rfl rfl rfl z
    (by rintro (_ | j) hj; exacts [absurd rfl hj, rfl]) rfl (by
      repeat' refine List.forall_mem_cons.mpr ⟨?_, ?_⟩
      rotate_right
      · exact fun _ h => absurd h List.not_mem_nil
      all_goals
        first
        | exact fun _ => hoffers _ rfl
        | exact fun hphase => nomatch hphase))
  have r := r.step (@Step.shutDown _ _ _ _ _ _ 0 false _ _ (.entered rfl rfl
    (.called (c := { request := .close }) rfl rfl
      (.told true (.entered rfl) (.nothing (by rintro _ ⟨⟩))
        (.aside rfl (.queue (i := 0) (.inl rfl) rfl) (by simp)
          (.told true (.acquired rfl (.idle rfl rfl)) (.nothing (by rintro _ ⟨⟩))
            (.told true (.uncheckpointed .poolTimedOut rfl)
              (.checkpoint (r := .error .poolTimedOut) rfl rfl)
              (.told true (.drained rfl rfl rfl) (.nothing (by rintro _ ⟨⟩)) (.finished rfl))))))
      (.kept (by simp)) (.finished rfl))))
  have r := r.step (@Step.opened _ _ _ _ _ _ _ _ defaults 0 _ _ _ _ rfl rfl
    (List.forall_mem_singleton.mpr rfl) (.there rfl)
    (.told true (.entered rfl) (.nothing (by rintro _ ⟨⟩))
      (.told true (.built 1 1 1 rfl) (.nothing (by rintro _ ⟨⟩)) (.finished rfl))))
  obtain ⟨hupheld, hanswers⟩ := reopening_keeps_writes Write.Ledger.durable h r
  exact ⟨_, _, h, r, rfl, rfl, rfl, rfl, hupheld, hanswers 0 ⟨false, .ok (), by simp⟩⟩

end Site

end SingleWriter
