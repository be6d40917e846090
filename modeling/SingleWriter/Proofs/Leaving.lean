import SingleWriter.Proofs.Household

/-! Calls that close a handle: they close it first, build no pool and wait for none, and a removal
comes to what the deletion of the files comes to (`Leaves.finishes`).  On a handle that is closed
such a call goes on at once. -/

namespace SingleWriter

namespace Database

/-- What a deletion of the files makes of a removal. -/
def Removal.result (x : Except IoError Unit) : Except ConnectionError Product :=
  (x.map fun _ => .done).mapError .io

/-! ### Calls that close the handle -/

section

variable {c : Call} {db : Database} {a : Answer}

theorem Resumed.closed {c' : Call} {db' : Database} {es : List Effect}
    (h : Resumed c db (c', db', es)) (hdb : db.closed = true) : db'.closed = true := by
  cases h with
  | goes | builds | built => exact hdb
  | closes => rfl

theorem Call.result?_eq_some {r : Except ConnectionError Product} :
    c.result? = some r ↔ c.phase = .finished r := by
  unfold result?
  cases c.phase <;> simp

/-- A call that closes a handle, on its way: it builds no pool and waits for none, and once it has
begun the handle is closed. -/
structure Call.Leaves (c : Call) (db : Database) : Prop where
  request : c.request.closes = true
  building : c.phase ≠ .building
  waiting : c.phase ≠ .waiting
  unlinking : c.phase = .unlinking → c.request = .remove
  closed : c.phase ≠ .entering → db.closed = true

/-- What an answer makes of a call that closes the handle. -/
structure Call.Goes (c : Call) (a : Answer) (next : Call × Database × List Effect) : Prop where
  request : next.1.request = c.request
  closed : next.2.1.closed = true
  building : next.1.phase ≠ .building
  waiting : next.1.phase ≠ .waiting
  unlinking : next.1.phase = .unlinking → c.request = .remove
  finished : ∀ r, next.1.phase = .finished r → c.request = .close ∧ r = .ok .done ∨
    c.request = .remove ∧ ∃ x, a = .unlinked x ∧ r = Removal.result x

theorem Call.goes_finish (hdb : db.closed = true) {r : Except ConnectionError Product}
    (hr : c.request = .close ∧ r = .ok .done ∨
      c.request = .remove ∧ ∃ x, a = .unlinked x ∧ r = Removal.result x)
    (es : List Effect) : c.Goes a (c.finish r, db, es) := by
  refine ⟨rfl, hdb, nofun, nofun, nofun, fun r' hr' => ?_⟩
  obtain rfl := Phase.finished.inj hr'
  exact hr

theorem Call.goes_afterClose (hc : c.request.closes = true) (hdb : db.closed = true) (a : Answer)
    (es : List Effect) : c.Goes a (c.afterClose, db, es) := by
  cases hrequest : c.request with
  | close =>
    rw [show c.afterClose = c.finish (.ok .done) by simp only [afterClose, hrequest]]
    exact goes_finish hdb (.inl ⟨hrequest, rfl⟩) es
  | remove =>
    rw [show c.afterClose = { c with phase := .unlinking } by simp only [afterClose, hrequest]]
    exact ⟨rfl, hdb, nofun, nofun, fun _ => hrequest, nofun⟩
  | connect | acquire | checkpoint mode =>
    rw [hrequest] at hc
    cases hc

theorem Call.goes_pooled (hdb : db.closed = true) {φ : Phase} (hφ : φ.pooled = true) (a : Answer)
    (es : List Effect) : c.Goes a ({ c with phase := φ }, db, es) := by
  cases φ with
  | acquiring | checkpointing on | draining =>
    exact ⟨rfl, hdb, nofun, nofun, nofun, nofun⟩
  | entering | waiting | building | unlinking | finished r => cases hφ

theorem Call.Leaves.goes (h : c.Leaves db) (ha : c.phase.Awaits a) :
    c.Goes a (c.resume db a) := by
  have hc := h.request
  have hclosed {φ : Phase} (hphase : c.phase = φ) (hφ : φ ≠ .entering) : db.closed = true :=
    h.closed (hphase ▸ hφ)
  generalize hphase : c.phase = φ at ha
  cases ha with
  | entered =>
    simp only [resume, hphase]
    cases hdb : db.closed with
    | true =>
      rw [c.enter_again hc hdb]
      exact goes_afterClose hc hdb _ _
    | false =>
      rcases c.enter_of_closes hc hdb with ⟨-, he⟩ | ⟨-, he | he⟩ <;> rw [he]
      · exact goes_afterClose hc rfl _ _
      · exact goes_pooled rfl rfl _ _
      · exact goes_pooled rfl rfl _ _
  | waited => exact absurd hphase h.waiting
  | built p => exact absurd hphase h.building
  | unbuilt e => exact absurd hphase h.building
  | acquired on =>
    simp only [resume, hphase, c.hold_of_closes hc]
    exact goes_pooled (hclosed hphase (by simp)) rfl _ _
  | refused e =>
    simp only [resume, hphase, c.refuse_of_closes hc]
    exact goes_pooled (hclosed hphase (by simp)) rfl _ _
  | checkpointed r | uncheckpointed e =>
    simp only [resume, hphase, c.afterCheckpoint_of_closes hc]
    exact goes_pooled (hclosed hphase (by simp)) rfl _ _
  | drained =>
    simp only [resume, hphase]
    exact goes_afterClose hc (hclosed hphase (by simp)) _ _
  | unlinked x =>
    have hdb := hclosed hphase (by simp)
    cases x <;>
    · simp only [resume, hphase]
      exact goes_finish hdb (.inr ⟨h.unlinking hphase, _, rfl, rfl⟩) _

end

namespace Traffic

variable {s s' : Traffic} {i : Nat} {a : Answer} {l : Label} {ls : List Label}

/-- A handle that is closed stays so. -/
theorem Step.closed (h : s.Step l s') (hs : s.handle.closed = true) : s'.handle.closed = true :=
  h.preserves (P := fun s => s.handle.closed = true) (fun ha hs => ha.closed.trans hs)
    (fun hr hs => hr.closed hs) hs

theorem Run.closed (h : s.Run ls s') (hs : s.handle.closed = true) : s'.handle.closed = true :=
  h.preserves (P := fun s => s.handle.closed = true) Step.closed hs

/-- Call `i` closes the handle. -/
def Leaves (s : Traffic) (i : Nat) : Prop := (s.calls i).Leaves s.handle

/-- A turn of a call that closes the handle. -/
theorem Leaves.turn (h : s.Leaves i) (hstep : s.Step (.turn i a) s') :
    ∃ next, (s.calls i).Goes a next ∧ s'.calls i = next.1 ∧ s'.handle.closed = true := by
  obtain ⟨t, keep, hserves, rfl⟩ := hstep.served
  have ha := hserves.adjusts
  have hgoes : (t.calls i).Goes a ((t.calls i).resume t.handle a) := by
    rw [ha.calls]
    -- What happens to the pool before the answer does not open the handle.
    apply Call.Leaves.goes _ hserves.awaits
    exact ⟨h.request, h.building, h.waiting, h.unlinking, fun hp => ha.closed.trans (h.closed hp)⟩
  refine ⟨_, ha.calls ▸ hgoes, ?_, (Adjusts.foldl keep _ _).closed.trans hgoes.closed⟩
  rw [answered_calls, Function.update_self, ha.calls]

theorem Leaves.step (h : s.Leaves i) (hstep : s.Step l s') :
    s'.Leaves i ∧ (s'.calls i).request = (s.calls i).request := by
  by_cases hl : ∃ a, l = .turn i a
  · obtain ⟨a, rfl⟩ := hl
    obtain ⟨next, hgoes, hcall, hclosed⟩ := h.turn hstep
    have hrequest := hgoes.request
    unfold Leaves
    rw [hcall]
    exact ⟨⟨hrequest ▸ h.request, hgoes.building, hgoes.waiting,
      fun hp => hrequest.trans (hgoes.unlinking hp), fun _ => hclosed⟩, hrequest⟩
  · have hcall : s'.calls i = s.calls i := hstep.calls_of_ne fun a ha => hl ⟨a, ha⟩
    refine ⟨?_, by rw [hcall]⟩
    unfold Leaves
    rw [hcall]
    exact ⟨h.request, h.building, h.waiting, h.unlinking, fun hp => hstep.closed (h.closed hp)⟩

/-- A call that closes the handle and has not begun. -/
theorem leaves_of_fresh {q : Request} (hcall : s.calls i = { request := q })
    (hq : q.closes = true) : s.Leaves i := by
  unfold Leaves
  rw [hcall]
  exact ⟨hq, nofun, nofun, nofun, fun h => absurd rfl h⟩

theorem Leaves.run (h : s.Leaves i) (hrun : s.Run ls s') :
    s'.Leaves i ∧ (s'.calls i).request = (s.calls i).request := by
  refine hrun.preserves (P := fun t => t.Leaves i ∧ (t.calls i).request = (s.calls i).request)
    (fun hstep ht => ?_) ⟨h, rfl⟩
  obtain ⟨hleaves, hrequest⟩ := ht.1.step hstep
  exact ⟨hleaves, hrequest.trans ht.2⟩

/-- The last turn of a call that closes the handle: the deletion, if the database is removed. -/
theorem Leaves.finishes (h : s.Leaves i) (hstep : s.Step l s')
    (hrunning : (s.calls i).result? = none) {r : Except ConnectionError Product}
    (hr : (s'.calls i).result? = some r) : s'.handle.closed = true ∧
      ((s.calls i).request = .close ∧ r = .ok .done ∨ (s.calls i).request = .remove ∧
        s.handle.closed = true ∧ ∃ x, l = .turn i (.unlinked x) ∧ r = Removal.result x) := by
  by_cases hl : ∃ a, l = .turn i a
  · obtain ⟨a, rfl⟩ := hl
    obtain ⟨next, hgoes, hcall, hclosed⟩ := h.turn hstep
    rw [hcall, Call.result?_eq_some] at hr
    refine ⟨hclosed, (hgoes.finished r hr).imp_right ?_⟩
    rintro ⟨hrequest, x, rfl, rfl⟩
    refine ⟨hrequest, Call.Leaves.closed h fun hentering => ?_, x, rfl, rfl⟩
    have hawaits := hstep.turned.1
    rw [hentering] at hawaits
    cases hawaits
  · rw [hstep.calls_of_ne fun a ha => hl ⟨a, ha⟩, hrunning] at hr
    cases hr

theorem Leaves.finishes_close (h : s.Leaves i) (hrequest : (s.calls i).request = .close)
    (hstep : s.Step l s') (hrunning : (s.calls i).result? = none)
    {r : Except ConnectionError Product} (hr : (s'.calls i).result? = some r) : r = .ok .done := by
  obtain ⟨-, ⟨-, rfl⟩ | ⟨hremove, -⟩⟩ := h.finishes hstep hrunning hr
  · rfl
  · rw [hrequest] at hremove
    cases hremove

theorem Leaves.finishes_remove (h : s.Leaves i) (hrequest : (s.calls i).request = .remove)
    (hstep : s.Step l s') (hrunning : (s.calls i).result? = none)
    {r : Except ConnectionError Product} (hr : (s'.calls i).result? = some r) :
    s.handle.closed = true ∧ s'.handle.closed = true ∧
      ∃ x, l = .turn i (.unlinked x) ∧ r = Removal.result x := by
  obtain ⟨hclosed', ⟨hclose, -⟩ | ⟨-, hclosed, hx⟩⟩ := h.finishes hstep hrunning hr
  · rw [hrequest] at hclose
    cases hclose
  · exact ⟨hclosed, hclosed', hx⟩

theorem Step.path (h : s.Step l s') : s'.handle.path = s.handle.path :=
  h.preserves (P := fun t => t.handle.path = s.handle.path) (fun ha hs => ha.path.trans hs)
    (fun hr hs => by cases hr <;> exact hs) rfl

theorem Run.path (h : s.Run ls s') : s'.handle.path = s.handle.path :=
  h.preserves (P := fun t => t.handle.path = s.handle.path)
    (fun hstep ht => hstep.path.trans ht) rfl

/-- The call that has closed the handle for good. -/
theorem Closed.shut (h : s.Closed i) (hstage : s.Stage i)
    (hthrough : (s.calls i).phase.through = true) : s.Shut := by
  refine ⟨h.toSealed, fun j => ?_, (stage_of_through hthrough).mp hstage⟩
  by_cases hj : j = i
  · rw [hj]
    exact Call.closing_of_through hthrough
  · exact h.sole j hj

theorem Closes.shut {m m' : Traffic} (h : m.Closes i) (ho : m.Orderly)
    (hstep : m.Step (.turn i .proceed) m') (hrun : m'.Run ls s)
    (hthrough : (s.calls i).phase.through = true) : s.Shut := by
  obtain ⟨hclosed, hstage⟩ := h.step ho hstep
  obtain ⟨hclosed', hstage'⟩ := hclosed.run hrun hstage
  exact hclosed'.shut hstage' hthrough

/-- A handle that has a pool keeps it. -/
theorem Step.pooled (h : s.Step l s') (hs : s.Orderly ∧ s.handle.pool.isSome = true) :
    s'.Orderly ∧ s'.handle.pool.isSome = true := by
  refine h.preserves (P := fun s => s.Orderly ∧ s.handle.pool.isSome = true)
    (fun ha hs => ⟨hs.1.adjusts ha, ha.pooled hs.2⟩) (fun hr hs => ⟨hs.1.resumed hr, ?_⟩) hs
  obtain ⟨ho, hsome⟩ := hs
  cases hr with
  | goes | builds | closes => exact hsome
  | built hbuilding =>
    rw [(ho.building hbuilding).1] at hsome
    cases hsome

theorem Run.pooled (h : s.Run ls s') (hs : s.Orderly ∧ s.handle.pool.isSome = true) :
    s'.Orderly ∧ s'.handle.pool.isSome = true :=
  h.preserves (P := fun s => s.Orderly ∧ s.handle.pool.isSome = true) Step.pooled hs

/-! ### Calls on a closed handle -/

/-- A call that closes a handle which is closed goes on at once. -/
theorem passes_closed {q : Request} (hclosed : s.handle.closed = true)
    (hcall : s.calls i = { request := q }) (hq : q.closes = true) :
    ∃ s', s.Step (.turn i .proceed) s' ∧ s'.calls i = Call.afterClose { request := q } := by
  have hserves : s.Serves i .proceed s := .entered (by rw [hcall])
  refine ⟨_, .turn true hserves, ?_⟩
  rw [answered_calls, Function.update_self, hcall]
  simp only [Call.resume]
  rw [Call.enter_again hq hclosed]

/-- Another removal goes straight to the files. -/
theorem removes_again (hclosed : s.handle.closed = true)
    (hcall : s.calls i = { request := .remove }) (x : Except IoError Unit) :
    ∃ m s', s.Step (.turn i .proceed) m ∧ m.Step (.turn i (.unlinked x)) s' ∧
      (s'.calls i).result? = some (Removal.result x) := by
  obtain ⟨m, hstep, hm⟩ := passes_closed hclosed hcall rfl
  refine ⟨m, _, hstep, .turn true (.unlinked x (by rw [hm]; rfl)), ?_⟩
  rw [answered_calls, Function.update_self, hm]
  cases x <;> rfl

end Traffic

end Database

end SingleWriter
