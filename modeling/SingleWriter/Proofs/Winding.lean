import SingleWriter.Proofs.Tenancy

/-! The upkeep of a path: checkpoints, shutdowns and removals.  They change the contents of no file,
whichever store they are asked of.  A shutdown that does not remove anything never fails and leaves
the file where it is; a removal that succeeds has deleted it. -/

namespace SingleWriter

open Write (ConnectionId Transcript)

variable {K Q R α : Type} {e : Storage K Q R}

theorem Checkpointer.wake_call {c c' : Checkpointer} {now : Nat} {stopping : Bool}
    {call : Database.Call} (h : c.wake now stopping = some c')
    (hphase : c'.phase = .checkpointing call) : call = { request := .checkpoint c.mode } := by
  unfold wake at h
  split at h
  · split at h
    · cases h
      cases hphase
    · split at h
      · cases h
        cases hphase
        rfl
      · cases h
  · cases h

/-! ### Removals -/

namespace Database

variable {wal : Bool} {path : String} {v : Visit} {after : Condition}

theorem Shutdown.keeps_file {found : Condition} {as : List Answer} (h : Shutdown wal found as)
    (x : Except IoError Unit) : .unlinked x ∉ as := by
  cases h <;> simp

/-- Closing leaves the file where it is. -/
theorem Move.keeps_file (h : Move wal path v after) (hv : v.request = .close)
    (x : Except IoError Unit) : .unlinked x ∉ v.answers := by
  obtain ⟨found, q, as, r⟩ := v
  obtain rfl : q = .close := hv
  cases h with
  | unbuilt _ hq | built _ hq | refused _ hq | turnedAway hq => cases hq
  | closes _ hshutdown hparting =>
    cases hparting
    simpa using hshutdown.keeps_file x

/-- A removal that succeeds has deleted the file. -/
theorem Move.deletes_file (h : Move wal path v after) (hv : v.request = .remove) {product : Product}
    (hr : v.result = .ok product) :
    .unlinked (.ok ()) ∈ v.answers ∧ ∀ x, .unlinked (.error x) ∉ v.answers := by
  obtain ⟨found, q, as, r⟩ := v
  obtain rfl : q = .remove := hv
  cases h with
  | unbuilt _ hq | built _ hq | refused _ hq | turnedAway hq => cases hq
  | closes _ hshutdown hparting =>
    cases hparting with
    | kept => cases hr
    | removed =>
      refine ⟨by simp, fun x => ?_⟩
      simpa using hshutdown.keeps_file (.error x)

end Database

namespace Shutdown

/-- The first step of a shutdown takes the periodic checkpoints from the store, if it had any. -/
theorem enter_stops (d : Shutdown) (store : Store) :
    (d.enter store).2.checkpointer = none ∧ (d.enter store).1.remove = d.remove ∧
      ((∃ task, (d.enter store).1.phase = .joining task) ∨
        (d.enter store).1.phase = .closing { request := .close }) := by
  cases h : store.checkpointer <;> simp [Shutdown.enter, Store.stop, h, Shutdown.close]

variable {d : Shutdown} {c call : Database.Call} {product : Database.Product}
  {a : Except ConnectionError Database.Product}

theorem call?_eq_some (h : d.call? = some c) : d.phase = .closing c ∨ d.phase = .removing c := by
  unfold call? at h
  split at h
  · cases h
    exact .inl ‹_›
  · cases h
    exact .inr ‹_›
  · cases h

/-- When the handle is closed, a removal goes on. -/
theorem advance_closing (hphase : d.phase = .closing c) (hr : call.result? = some (.ok product)) :
    (d.advance call).remove = d.remove ∧
      (d.remove = true → (d.advance call).phase = .removing { request := .remove }) ∧
      (d.remove = false → (d.advance call).phase = .finished (.ok ())) := by
  simp only [advance, hphase, hr]
  cases d.remove <;> simp

theorem advance_removing (hphase : d.phase = .removing c) (hr : call.result? = some a) :
    (d.advance call).remove = d.remove ∧
      (d.advance call).phase = .finished ((a.mapError .connection).map fun _ => ()) := by
  cases a <;> simp [advance, hphase, hr, Except.mapError, Except.map]

end Shutdown

namespace Site

variable {s m s' : Site e} {ts : Transcript Q R} {k : Nat} {t t' : Tenant} {σ : e.State}
  {n : ConnectionId} {d : Shutdown} {op : Operation Q R α}

theorem Unlinks.same {f? g? : Option Nat} {as : List Database.Answer} (h : Unlinks f? as g?)
    (has : ∀ x, .unlinked x ∉ as) : g? = f? := by
  cases h with
  | kept | failed => rfl
  | gone hmem => exact absurd hmem (has _)

theorem Sound.unlinked {f? : Option Nat} {as : List Database.Answer} (h : s.Sound ts)
    (hunlinks : Unlinks s.file? as f?) : { s with file? := f? }.Sound ts := by
  cases hunlinks with
  | kept | failed => exact h
  | gone => exact h.unlink

theorem Unlinks.deleted {f? g? : Option Nat} {as : List Database.Answer} (h : Unlinks f? as g?)
    (has : .unlinked (.ok ()) ∈ as) (hno : ∀ x, .unlinked (.error x) ∉ as) : g? = none := by
  cases h with
  | kept hkept => exact absurd has (hkept _)
  | gone => rfl
  | failed hmem => exact absurd hmem (hno _)

/-! ### Upkeep -/

/-- Store `k` is closed. -/
def Shut (s : Site e) (k : Nat) : Prop :=
  ∃ t, s.tenants[k]? = some t ∧ t.handle.closed = true

/-- No contents are changed, and what is closed stays closed. -/
structure Spares (s s' : Site e) : Prop where
  committed : ∀ f, e.committed (s'.files f) = e.committed (s.files f)
  stays : ∀ k, s.Shut k → s'.Shut k

theorem Spares.refl (s : Site e) : s.Spares s := ⟨fun _ => rfl, fun _ => id⟩

theorem Spares.trans (h : s.Spares m) (h' : m.Spares s') : s.Spares s' :=
  ⟨fun f => (h'.committed f).trans (h.committed f), fun k hk => h'.stays k (h.stays k hk)⟩

theorem leave_self (ht : s.tenants[k]? = some t) :
    (s.leave k t' σ n).tenants[k]? = some t' := by
  obtain ⟨hk, -⟩ := List.getElem?_eq_some_iff.mp ht
  simp [leave, hk]

theorem leave_stays (ht : s.tenants[k]? = some t)
    (hc : t.handle.closed = true → t'.handle.closed = true) (j : Nat) (hj : s.Shut j) :
    (s.leave k t' σ n).Shut j := by
  obtain ⟨u, hu, huc⟩ := hj
  by_cases hj : j = k
  · subst hj
    obtain rfl : u = t := Option.some.inj (hu.symm.trans ht)
    exact ⟨t', leave_self ht, hc huc⟩
  · refine ⟨u, ?_, huc⟩
    rw [leave, List.getElem?_set_ne (fun h => hj h.symm)]
    exact hu

/-- An operation on one store that changes no contents. -/
theorem Sound.upkeep (h : s.Sound ts) (ht : s.tenants[k]? = some t)
    (hbecomes : t.Becomes e s.next (s.files t.file) n σ t')
    (hσ : e.committed σ = e.committed (s.files t.file)) :
    (s.leave k t' σ n).Sound ts ∧ s.Spares (s.leave k t' σ n) := by
  refine ⟨h.leave ht hbecomes (fun _ => rfl) fun hopen => ?_, fun f => ?_,
    leave_stays ht fun hc => (hbecomes.closed hc).1⟩
  · rw [hσ]
    exact h.holds ((h.inUse_iff ht hopen _).mpr rfl)
  · show e.committed (Function.update s.files t'.file σ f) = _
    by_cases hf : f = t'.file
    · rw [hf, Function.update_self, hσ, hbecomes.file]
    · rw [Function.update_of_ne hf]

/-! ### Shutdowns -/

/-- How far a shutdown of a store has come. -/
def Sane (s : Site e) (d : Shutdown) (t : Tenant) : Prop :=
  match d.phase with
  | .entering => True
  | .joining _ => t.store.checkpointer = none
  | .closing c => c.request = .close ∧ t.store.checkpointer = none
  | .removing c => c.request = .remove ∧ d.remove = true ∧ t.store.checkpointer = none
  | .finished r => t.handle.closed = true ∧ (d.remove = false → r = .ok ()) ∧
      (d.remove = true → r = .ok () → s.file? = none)

/-- What a shutdown leaves behind. -/
structure Wound (k : Nat) (ts : Transcript Q R) (remove : Bool) (s : Site e)
    (r : Except StoreError Unit) (s' : Site e) : Prop where
  sound : s'.Sound ts
  spares : s.Spares s'
  shut : s'.Shut k
  ok : remove = false → r = .ok ()
  there : remove = false → s'.file? = s.file?
  gone : remove = true → r = .ok () → s'.file? = none

/-- One step of the shutdown `d` of store `k`, which goes on as `d'`. -/
structure Nears (k : Nat) (ts : Transcript Q R) (s : Site e) (d : Shutdown) (m : Site e)
    (d' : Shutdown) : Prop where
  sound : m.Sound ts
  spares : s.Spares m
  there : d.remove = false → m.file? = s.file?
  remove : d'.remove = d.remove
  sane : ∃ t, m.tenants[k]? = some t ∧ m.Sane d' t

theorem Wound.of_nears {d' : Shutdown} {r : Except StoreError Unit}
    (h : Wound k ts d'.remove m r s') (hnears : Nears k ts s d m d') :
    Wound k ts d.remove s r s' := by
  rw [hnears.remove] at h
  exact ⟨h.sound, hnears.spares.trans h.spares, h.shut, h.ok,
    fun hr => (h.there hr).trans (hnears.there hr), h.gone⟩

/-- A shutdown first takes the periodic checkpoints from the store. -/
theorem Sound.enters (hs : s.Sound ts) (ht : s.tenants[k]? = some t) :
    Nears k ts s d (s.leave k { t with store := (d.enter t.store).2 } (s.files t.file) s.next)
      (d.enter t.store).1 := by
  obtain ⟨hstops, hremove, hphase⟩ := d.enter_stops t.store
  have hfit := hs.fit ht
  have hbecomes : t.Becomes e s.next (s.files t.file) s.next (s.files t.file)
      { t with store := (d.enter t.store).2 } := by
    refine ⟨rfl, ⟨hfit.pool, hfit.lock, hfit.rests, hfit.ended, fun _ => ?_⟩,
      fun hc => ⟨hc, rfl, rfl⟩⟩
    exact hstops
  obtain ⟨hsound, hspares⟩ := hs.upkeep ht hbecomes rfl
  refine ⟨hsound, hspares, fun _ => rfl, hremove, _, leave_self ht, ?_⟩
  rcases hphase with ⟨task, hphase⟩ | hphase <;> rw [Sane, hphase]
  · exact hstops
  · exact ⟨rfl, hstops⟩

/-- When the periodic checkpoints have ended, the handle is closed. -/
theorem Sound.joins (hs : s.Sound ts) (ht : s.tenants[k]? = some t) {task : Nat}
    (hphase : d.phase = .joining task) (hd : s.Sane d t) (c : Checkpointer) :
    Nears k ts s d (s.leave k { t with periodic := some c } (s.files t.file) s.next) d.close := by
  rw [Sane, hphase] at hd
  have hfit := hs.fit ht
  have hbecomes : t.Becomes e s.next (s.files t.file) s.next (s.files t.file)
      { t with periodic := some c } :=
    ⟨rfl, ⟨hfit.pool, hfit.lock, hfit.rests, hfit.ended, hfit.idle⟩, fun hc => ⟨hc, rfl, rfl⟩⟩
  obtain ⟨hsound, hspares⟩ := hs.upkeep ht hbecomes rfl
  exact ⟨hsound, hspares, fun _ => rfl, rfl, _, leave_self ht, rfl, hd⟩

section Called

variable {c : Database.Call} {v : Database.Traffic} {as : List Database.Answer}
  {a : Except ConnectionError Database.Product} {f? : Option Nat}

/-- The handle is closed, and a removal goes on. -/
theorem Sound.closes (he : e.Durable) (hs : s.Sound ts) (ht : s.tenants[k]? = some t)
    (hphase : d.phase = .closing c) (hd : s.Sane d t)
    (htends : Database.Tends e (.alone t.handle s.next c.request) (s.files t.file) as a v σ)
    (hunlinks : Unlinks s.file? as f?) :
    Nears k ts s d { s.leave k { t with handle := v.handle } σ v.next with file? := f? }
      (d.advance (v.calls 0)) := by
  rw [Sane, hphase] at hd
  obtain ⟨hrequest, hidle⟩ := hd
  obtain ⟨hleads, hbecomes, hcommitted, hclosed⟩ := (hs.fit ht).call he
    { t with handle := v.handle } (by simp [hrequest]) (fun _ => hidle) rfl rfl rfl rfl htends
  obtain ⟨hsound, hspares⟩ := hs.upkeep ht hbecomes hcommitted
  obtain rfl : a = .ok .done := hleads.move.result_of_close hrequest
  obtain rfl : f? = s.file? := hunlinks.same (hleads.move.keeps_file hrequest)
  have hresult : (v.calls 0).result? = some (.ok .done) := by
    rw [Database.Call.result?, htends.phase]
  obtain ⟨hremove, hremoves, hends⟩ := Shutdown.advance_closing hphase hresult
  refine ⟨hsound, ⟨hspares.committed, hspares.stays⟩, fun _ => rfl, hremove, _, leave_self ht, ?_⟩
  cases hr : d.remove with
  | true =>
    rw [Sane, hremoves hr]
    exact ⟨rfl, hremove.trans hr, hidle⟩
  | false =>
    rw [Sane, hends hr]
    exact ⟨hclosed (by rw [hrequest]; rfl), fun _ => rfl, fun h => by simp [hremove, hr] at h⟩

/-- A removal ends with its call, which deletes the file if it succeeds. -/
theorem Sound.removes (he : e.Durable) (hs : s.Sound ts) (ht : s.tenants[k]? = some t)
    (hphase : d.phase = .removing c) (hd : s.Sane d t)
    (htends : Database.Tends e (.alone t.handle s.next c.request) (s.files t.file) as a v σ)
    (hunlinks : Unlinks s.file? as f?) :
    Nears k ts s d { s.leave k { t with handle := v.handle } σ v.next with file? := f? }
      (d.advance (v.calls 0)) := by
  rw [Sane, hphase] at hd
  obtain ⟨hrequest, hremove, hidle⟩ := hd
  obtain ⟨hleads, hbecomes, hcommitted, hclosed⟩ := (hs.fit ht).call he
    { t with handle := v.handle } (by simp [hrequest]) (fun _ => hidle) rfl rfl rfl rfl htends
  obtain ⟨hsound, hspares⟩ := hs.upkeep ht hbecomes hcommitted
  have hresult : (v.calls 0).result? = some a := by rw [Database.Call.result?, htends.phase]
  obtain ⟨hsame, hends⟩ := Shutdown.advance_removing hphase hresult
  refine ⟨hsound.unlinked hunlinks, ⟨hspares.committed, hspares.stays⟩,
    fun h => by simp [hremove] at h, hsame, _, leave_self (n := v.next) (σ := σ) ht, ?_⟩
  rw [Sane, hends]
  refine ⟨hclosed (by rw [hrequest]; rfl), fun h => by simp [hsame, hremove] at h,
    fun _ hr => ?_⟩
  cases a with
  | error => cases hr
  | ok product =>
    obtain ⟨hdeleted, hno⟩ := hleads.move.deletes_file hrequest rfl
    exact hunlinks.deleted hdeleted hno

end Called

theorem Winds.goes (he : e.Durable) {r : Except StoreError Unit} (h : Winds k s d r s')
    (hs : s.Sound ts) (ht : s.tenants[k]? = some t) (hd : s.Sane d t) :
    Wound k ts d.remove s r s' := by
  induction h generalizing t with
  | @finished s d r hr =>
    obtain hphase : d.phase = .finished r := by
      unfold Shutdown.result? at hr
      split at hr
      · cases hr
        assumption
      · cases hr
    rw [Sane, hphase] at hd
    obtain ⟨hclosed, hok, hgone⟩ := hd
    exact ⟨hs, .refl s, ⟨t, ht, hclosed⟩, hok, fun _ => rfl, hgone⟩
  | @entered s s' d u r hphase hu _ ih =>
    obtain rfl : t = u := Option.some.inj (ht.symm.trans hu)
    have hnears := hs.enters (d := d) ht
    obtain ⟨t', ht', hsane⟩ := hnears.sane
    exact (ih hnears.sound ht' hsane).of_nears hnears
  | @joined s s' d u c c' task now r hphase hu _ _ _ _ ih =>
    obtain rfl : t = u := Option.some.inj (ht.symm.trans hu)
    have hnears := hs.joins ht hphase hd c'
    obtain ⟨t', ht', hsane⟩ := hnears.sane
    exact (ih hnears.sound ht' hsane).of_nears hnears
  | @called s s' d u c v as a σ f? r hcall hu htends hunlinks _ ih =>
    obtain rfl : t = u := Option.some.inj (ht.symm.trans hu)
    have hnears : Nears k ts s d { s.leave k { t with handle := v.handle } σ v.next with
        file? := f? } (d.advance (v.calls 0)) := by
      rcases Shutdown.call?_eq_some hcall with hphase | hphase
      · exact hs.closes he ht hphase hd htends hunlinks
      · exact hs.removes he ht hphase hd htends hunlinks
    obtain ⟨t', ht', hsane⟩ := hnears.sane
    exact (ih hnears.sound ht' hsane).of_nears hnears

theorem Winds.wound (he : e.Durable) {remove : Bool} {r : Except StoreError Unit}
    (h : Winds k s { remove } r s') (hs : s.Sound ts) : Wound k ts remove s r s' := by
  obtain ⟨t, ht⟩ : ∃ t, s.tenants[k]? = some t := by
    generalize hd : ({ remove } : Shutdown) = d at h
    cases h with
    | finished hr =>
      rw [← hd] at hr
      cases hr
    | entered _ ht | joined _ ht | called _ ht => exact ⟨_, ht⟩
  exact h.goes he hs ht trivial

/-! ### Operations -/

/-- Checkpoints and shutdowns. -/
theorem Step.spares (he : e.Durable) (h : m.Step op s) (hm : m.Sound ts)
    (hop : op.isUpkeep = true) : s.Sound ts ∧ m.Spares s := by
  cases h with
  | opened | unopened | refused | wrote => cases hop
  | @checkpointed k t mode u as a σ ht htends =>
    obtain ⟨-, hbecomes, hcommitted, -⟩ := (hm.fit ht).call he
      { t with handle := u.handle } (by simp) (by simp [Database.Request.closes]) rfl rfl rfl rfl
      htends
    exact hm.upkeep ht hbecomes hcommitted
  | @ticked k t c c' call now u as a σ ht _ hwake hphase htends =>
    obtain rfl := Checkpointer.wake_call hwake hphase
    obtain ⟨-, hbecomes, hcommitted, -⟩ := (hm.fit ht).call he
      { t with handle := u.handle, periodic := some (c'.advance (u.calls 0)) } (by simp)
      (by simp [Database.Request.closes]) rfl rfl rfl rfl htends
    exact hm.upkeep ht hbecomes hcommitted
  | shutDown hwinds =>
    have hwound := hwinds.wound he hm
    exact ⟨hwound.sound, hwound.spares⟩

end Site

end SingleWriter
