import SingleWriter.Proofs.Handle

/-! One call from its beginning to its end, while no other call takes a turn.  What such a call is
told and where it ends depends on its handle only as far as there is a pool or none: `At.next` goes
through a call answer by answer. -/

namespace SingleWriter.Database

/-! ### What a call does first -/

/-- Whether a request builds the pool if there is none. -/
def Request.opens : Request → Bool
  | .connect => true
  | .acquire => true
  | _ => false

theorem Request.closes_of_opens {q : Request} (h : q.opens = true) : q.closes = false := by
  cases q with
  | connect | acquire | checkpoint mode => rfl
  | close | remove => cases h

section

variable {c : Call} {db : Database}

theorem Call.enter_closed (h : c.request.closes = false) (hclosed : db.closed = true) :
    c.enter db = (c.finish (.error .closed), db, []) := by
  cases hrequest : c.request with
  | connect | acquire => simp only [enter, hrequest, hclosed, if_true]
  | checkpoint mode => simp only [enter, hrequest, openPool, hclosed, if_true]
  | close | remove =>
    rw [hrequest] at h
    cases h

theorem Call.enter_opens (h : c.request.opens = true) (hopen : db.closed = false) :
    c.enter db = ((c.usePool db).1, (c.usePool db).2, []) := by
  cases hrequest : c.request with
  | connect | acquire => simp only [enter, hrequest, hopen, Bool.false_eq_true, if_false]
  | close | remove | checkpoint =>
    rw [hrequest] at h
    cases h

theorem Call.enter_again (h : c.request.closes = true) (hclosed : db.closed = true) :
    c.enter db = (c.afterClose, db, []) := by
  cases hrequest : c.request with
  | close | remove => simp only [enter, hrequest, hclosed, if_true]
  | connect | acquire | checkpoint =>
    rw [hrequest] at h
    cases h

theorem Call.enter_unused (h : c.request.closes = true) (hopen : db.closed = false)
    (hpool : db.pool = none) : c.enter db = (c.afterClose, { db with closed := true }, []) := by
  rcases c.enter_of_closes h hopen with ⟨-, henter⟩ | ⟨⟨p, hp⟩, -⟩
  · exact henter
  · rw [hpool] at hp
    cases hp

theorem Call.enter_connected {p : Pool} (db : Database) (h : c.request.closes = true)
    (hopen : db.closed = false) (hpool : db.pool = some p) :
    (c.enter db).1 =
        { c with phase := if db.config.enableWal then .acquiring else .draining } ∧
      (c.enter db).2.1 = { db with closed := true } := by
  cases hrequest : c.request with
  | close | remove =>
    simp only [enter, hrequest, hopen, Bool.false_eq_true, if_false, hpool]
    split
    · exact ⟨rfl, rfl⟩
    · exact ⟨by rw [drain, hrequest], rfl⟩
  | connect | acquire | checkpoint =>
    rw [hrequest] at h
    cases h

end

/-! ### Handles that are alike to a call -/

/-- Two handles that differ at most in what is in their pools. -/
inductive Alike : Database → Database → Prop
  | unbuilt (path : String) (config : DatabaseConfig) (closed building : Bool) :
      Alike ⟨path, config, closed, building, none⟩ ⟨path, config, closed, building, none⟩
  | built (path : String) (config : DatabaseConfig) (closed building : Bool) (p p' : Pool) :
      Alike ⟨path, config, closed, building, some p⟩ ⟨path, config, closed, building, some p'⟩

/-- The answers that a call in this phase may get. -/
inductive Phase.Awaits : Phase → Answer → Prop
  | entered : Awaits .entering .proceed
  | waited : Awaits .waiting .proceed
  | built (p : Pool) : Awaits .building (.built p)
  | unbuilt (e : SqlError) : Awaits .building (.failed e)
  | acquired (on : Nat) : Awaits .acquiring (.acquired on)
  | refused (e : SqlError) : Awaits .acquiring (.failed e)
  | checkpointed {on : Nat} (r : CheckpointReport) : Awaits (.checkpointing on) (.report r)
  | uncheckpointed {on : Nat} (e : SqlError) : Awaits (.checkpointing on) (.failed e)
  | drained : Awaits .draining .proceed
  | unlinked (r : Except IoError Unit) : Awaits .unlinking (.unlinked r)

section

variable {db db' : Database} {c : Call}

theorem Alike.refl (db : Database) : db.Alike db := by
  obtain ⟨path, config, closed, building, _ | p⟩ := db
  · exact .unbuilt ..
  · exact .built ..

theorem Alike.trans {db'' : Database} (h : db.Alike db') (h' : db'.Alike db'') :
    db.Alike db'' := by
  cases h <;> cases h'
  · exact .unbuilt ..
  · exact .built ..

theorem Call.usePool_congr (h : db.Alike db') :
    (c.usePool db').1 = (c.usePool db).1 ∧ (c.usePool db).2.Alike (c.usePool db').2 := by
  cases h with
  | unbuilt => exact ⟨rfl, .refl _⟩
  | built path config closed building p p' =>
    simp only [usePool]
    split <;> exact ⟨rfl, .built ..⟩

theorem Call.enter_congr (h : db.Alike db') :
    (c.enter db').1 = (c.enter db).1 ∧ (c.enter db).2.1.Alike (c.enter db').2.1 := by
  cases h with
  | unbuilt => exact ⟨rfl, .refl _⟩
  | built path config closed building p p' =>
    cases hrequest : c.request with
    | connect | acquire =>
      cases closed with
      | true => simpa only [enter, hrequest] using ⟨rfl, .built ..⟩
      | false =>
        simp only [enter, hrequest, Bool.false_eq_true, if_false]
        exact usePool_congr (.built ..)
    | checkpoint mode =>
      cases closed <;> simpa only [enter, hrequest] using ⟨rfl, .built ..⟩
    | close | remove =>
      cases closed with
      | true => simpa only [enter, hrequest] using ⟨rfl, .built ..⟩
      | false =>
        simp only [enter, hrequest, Bool.false_eq_true, if_false]
        split <;> exact ⟨rfl, .built ..⟩

/-- An answer makes the same of a call, whatever is in the pool. -/
theorem Call.resume_congr (h : db.Alike db') {a : Answer} (ha : c.phase.Awaits a) :
    (c.resume db' a).1 = (c.resume db a).1 ∧ (c.resume db a).2.1.Alike (c.resume db' a).2.1 := by
  generalize hphase : c.phase = φ at ha
  cases ha with
  | entered =>
    simp only [resume, hphase]
    exact enter_congr h
  | waited =>
    simp only [resume, hphase]
    exact usePool_congr h
  | built p =>
    simp only [resume, hphase]
    refine usePool_congr ?_
    cases h <;> exact .built ..
  | unbuilt e =>
    simp only [resume, hphase]
    cases h with
    | unbuilt => exact ⟨rfl, .unbuilt ..⟩
    | built => exact ⟨rfl, .built ..⟩
  | acquired | refused | checkpointed | uncheckpointed | drained =>
    simp only [resume, hphase]
    exact ⟨trivial, h⟩
  | unlinked r =>
    cases r <;>
    · simp only [resume, hphase]
      exact ⟨trivial, h⟩

end

namespace Traffic

variable {s s' t m : Traffic} {i : Nat} {a : Answer} {as : List Answer}
  {r : Except ConnectionError Product} {c : Call} {db : Database}

theorem Adjusts.alike (h : s.Adjusts t) : s.handle.Alike t.handle := by
  obtain ⟨-, hpath, hconfig, hclosed, hbuilding, hnone, hsome⟩ := h
  generalize s.handle = db at *
  generalize t.handle = db' at *
  obtain ⟨path, config, closed, building, pool⟩ := db
  obtain ⟨path', config', closed', building', pool'⟩ := db'
  simp only at hpath hconfig hclosed hbuilding hnone hsome
  subst hpath hconfig hclosed hbuilding
  cases pool with
  | none =>
    rw [hnone rfl]
    exact .unbuilt ..
  | some p =>
    obtain ⟨p', rfl, -⟩ := hsome rfl
    exact .built ..

theorem Serves.awaits (h : s.Serves i a t) : (s.calls i).phase.Awaits a := by
  cases h with
  | entered hp | waited hp | built _ _ _ hp | unbuilt _ hp | acquired hp | refused _ hp
  | checkpointed _ hp | uncheckpointed _ hp | drained hp | unlinked _ hp =>
    rw [hp]
    constructor

/-- Call `i` goes on to its end while no other call takes a turn: the answers that it gets, and what
comes of it. -/
inductive Ends (i : Nat) :
    Traffic → List Answer → Except ConnectionError Product → Traffic → Prop
  | finished {s : Traffic} {r : Except ConnectionError Product} :
      (s.calls i).phase = .finished r → Ends i s [] r s
  | told {s t s' : Traffic} {a : Answer} {as : List Answer} {r : Except ConnectionError Product}
      (keep : Bool) : s.Serves i a t → Ends i (t.answered i keep a) as r s' →
      Ends i s (a :: as) r s'
  | aside {s m s' : Traffic} {l : Label} {as : List Answer}
      {r : Except ConnectionError Product} : s.Step l m → (∀ j a, l ≠ .turn j a) →
      Ends i m as r s' → Ends i s as r s'

theorem Step.adjusts {l : Label} (h : s.Step l m) (hl : ∀ j a, l ≠ .turn j a) : s.Adjusts m := by
  rcases h.turn_or_adjusts with ⟨j, a, -, -, rfl, -⟩ | ⟨-, hsame⟩
  · exact absurd rfl (hl j a)
  · exact hsame

/-- Call `i` is `c`, on a handle like `db`. -/
structure At (i : Nat) (c : Call) (db : Database) (s : Traffic) : Prop where
  call : s.calls i = c
  handle : db.Alike s.handle

theorem At.adjusts (h : s.At i c db) (ha : s.Adjusts t) : t.At i c db :=
  ⟨by rw [ha.calls, h.call], h.handle.trans ha.alike⟩

theorem At.awaits (h : s.At i c db) (hserves : s.Serves i a t) : c.phase.Awaits a :=
  h.call ▸ hserves.awaits

/-- An answer takes a call on as if its handle were `db`. -/
theorem At.served (h : s.At i c db) (hserves : s.Serves i a t) (keep : Bool) :
    (t.answered i keep a).At i (c.resume db a).1 (c.resume db a).2.1 := by
  have ht := h.adjusts hserves.adjusts
  obtain ⟨hcall, hhandle⟩ := Call.resume_congr ht.handle (h.awaits hserves)
  refine At.adjusts (s := t.become i _ _) ⟨?_, ?_⟩ (.foldl keep _ _)
  · rw [become_self, ht.call, hcall]
  · rw [ht.call]
    exact hhandle

theorem At.finished (h : s.At i c db) (hc : c.phase = .finished r') (hends : s.Ends i as r s') :
    as = [] ∧ r = r' ∧ db.Alike s'.handle := by
  induction hends with
  | finished hphase =>
    rw [h.call, hc] at hphase
    cases hphase
    exact ⟨rfl, rfl, h.handle⟩
  | told keep hserves =>
    have hawaits := h.awaits hserves
    rw [hc] at hawaits
    cases hawaits
  | aside hstep hl _ ih => exact ih (h.adjusts (hstep.adjusts hl))

/-- The next answer to a call that is not at its end. -/
theorem At.next (h : s.At i c db) (hc : ∀ r', c.phase ≠ .finished r') (hends : s.Ends i as r s') :
    ∃ (a : Answer) (as' : List Answer) (m : Traffic), as = a :: as' ∧ c.phase.Awaits a ∧
      m.At i (c.resume db a).1 (c.resume db a).2.1 ∧ m.Ends i as' r s' := by
  induction hends with
  | finished hphase =>
    rw [h.call] at hphase
    exact absurd hphase (hc _)
  | told keep hserves hrest =>
    exact ⟨_, _, _, rfl, h.awaits hserves, h.served hserves keep, hrest⟩
  | aside hstep hl _ ih => exact ih (h.adjusts (hstep.adjusts hl))

end Traffic

end SingleWriter.Database
