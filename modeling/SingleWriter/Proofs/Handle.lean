import SingleWriter.Proofs.Traffic

/-! One call on a handle.  `Resumed` says what an answer may make of a call and its handle, and
`Traffic.Step.preserves` turns it into an invariant rule.  The first invariant is that one call at
most builds the pool, and that none is closing an open handle. -/

namespace SingleWriter.Database

/-! ### One call -/

def Request.closes : Request → Bool
  | .close => true
  | .remove => true
  | _ => false

/-- Whether a call in this phase uses the pool. -/
def Phase.pooled : Phase → Bool
  | .acquiring => true
  | .checkpointing _ => true
  | .draining => true
  | _ => false

/-- Whether a call in this phase is through with the handle. -/
def Phase.through : Phase → Bool
  | .unlinking => true
  | .finished _ => true
  | _ => false

/-- Whether the call has closed the handle and is not through with the pool. -/
def Call.closing (c : Call) : Bool := c.request.closes && c.phase.pooled

/-- What an answer makes of a call and its handle. -/
inductive Resumed (c : Call) (db : Database) : Call × Database × List Effect → Prop
  | goes {c' : Call} {es : List Effect} : c'.request = c.request → c'.phase ≠ .building →
      (c'.phase = .waiting → db.closed = false ∨ c.phase = .waiting) →
      (c.closing = false → c'.closing = false) → Resumed c db (c', db, es)
  | builds : db.closed = false ∨ c.phase = .waiting → db.pool = none → db.building = false →
      Resumed c db ({ c with phase := .building }, { db with building := true }, [])
  | built {c' : Call} {pool : Option Pool} : c.phase = .building → c'.request = c.request →
      c'.phase ≠ .building → c'.closing = false →
      Resumed c db (c', { db with pool, building := false }, [])
  | closes {c' : Call} {es : List Effect} : c.request.closes = true → db.closed = false →
      c'.request = c.request → c'.phase ≠ .building →
      Resumed c db (c', { db with closed := true }, es)

section

variable {c : Call} {db : Database}

theorem Call.afterClose_request (c : Call) : c.afterClose.request = c.request := by
  unfold afterClose
  split <;> rfl

theorem Call.afterClose_through (c : Call) : c.afterClose.phase.through = true := by
  unfold afterClose
  split <;> rfl

theorem Phase.through_ends {φ : Phase} (h : φ.through = true) :
    φ ≠ .building ∧ φ ≠ .waiting ∧ φ.pooled = false := by
  cases φ with
  | unlinking | finished r => exact ⟨by simp, by simp, rfl⟩
  | entering | waiting | building | acquiring | checkpointing on | draining => cases h

theorem Call.closing_of_through (h : c.phase.through = true) : c.closing = false := by
  simp [closing, (Phase.through_ends h).2.2]

/-- A call may always come to its end. -/
theorem Resumed.through {c' : Call} (hrequest : c'.request = c.request)
    (h : c'.phase.through = true) (es : List Effect) : Resumed c db (c', db, es) :=
  .goes hrequest (Phase.through_ends h).1 (fun hc => absurd hc (Phase.through_ends h).2.1)
    fun _ => Call.closing_of_through h

theorem Resumed.finish (r : Except ConnectionError Product) (es : List Effect) :
    Resumed c db (c.finish r, db, es) := by
  refine .through ?_ ?_ es <;> rfl

/-- A call remains the request that it is. -/
theorem Resumed.request {next : Call × Database × List Effect} (h : Resumed c db next) :
    next.1.request = c.request := by
  cases h with
  | goes hrequest | built _ hrequest | closes _ _ hrequest => exact hrequest
  | builds => rfl

theorem Call.usePool_built (c : Call) (db : Database) {p : Pool} (h : db.pool = some p) :
    (c.usePool db).2 = db ∧ (c.usePool db).1.request = c.request ∧
      (c.usePool db).1.phase ≠ .building ∧ (c.usePool db).1.phase ≠ .waiting ∧
      (c.usePool db).1.closing = false := by
  simp only [usePool, h]
  split
  · rename_i hrequest
    exact ⟨rfl, rfl, by simp, by simp, by simp [closing, hrequest, Request.closes]⟩
  · exact ⟨rfl, rfl, by simp [finish], by simp [finish], by simp [closing, finish, Phase.pooled]⟩

theorem Call.usePool_resumed (h : db.closed = false ∨ c.phase = .waiting) :
    Resumed c db ((c.usePool db).1, (c.usePool db).2, []) := by
  cases hp : db.pool with
  | some p =>
    obtain ⟨hdb, hrequest, hbuilding, hwaiting, hclosing⟩ := c.usePool_built db hp
    rw [hdb]
    exact .goes hrequest hbuilding (fun h => absurd h hwaiting) (by simp [hclosing])
  | none =>
    have huse : c.usePool db =
        if db.building then ({ c with phase := .waiting }, db)
        else ({ c with phase := .building }, { db with building := true }) := by
      unfold usePool
      split
      · rename_i hpool
        rw [hp] at hpool
        cases hpool
      · rfl
    rw [huse]
    split
    · exact .goes rfl (by simp) (fun _ => h) (by simp [closing, Phase.pooled])
    · rename_i hb
      exact .builds h hp (by simpa using hb)

theorem Call.hold_of_closes (h : c.request.closes = true) (on : Nat) :
    c.hold on = { c with phase := .checkpointing on } := by
  unfold hold
  split
  · rename_i hrequest
    rw [hrequest] at h
    cases h
  · rfl

theorem Call.refuse_of_closes (h : c.request.closes = true) (e : SqlError) :
    c.refuse e = c.drain := by
  unfold refuse
  split <;> simp_all [Request.closes]

theorem Call.afterCheckpoint_of_closes (h : c.request.closes = true) (on : Nat)
    (r : Except SqlError CheckpointReport) :
    c.afterCheckpoint on r = (c.drain.1, .release on :: c.drain.2) := by
  unfold afterCheckpoint
  split <;> simp_all [Request.closes]

/-- A call that uses the pool goes on to use it. -/
theorem Resumed.pooled (h : c.phase.pooled = true) {φ : Phase} (hφ : φ.pooled = true)
    (es : List Effect) : Resumed c db ({ c with phase := φ }, db, es) := by
  refine .goes rfl ?_ (fun hwaits => ?_) (by simp [Call.closing, h, hφ])
  · rintro rfl
    cases hφ
  · rw [show φ = .waiting from hwaits] at hφ
    cases hφ

/-- What a call does first that closes the handle. -/
theorem Call.enter_of_closes (h : c.request.closes = true) (hopen : db.closed = false) :
    db.pool = none ∧ c.enter db = (c.afterClose, { db with closed := true }, []) ∨
      (∃ p, db.pool = some p) ∧
        (c.enter db = ({ c with phase := .acquiring }, { db with closed := true }, []) ∨
          c.enter db =
            ({ c with phase := .draining }, { db with closed := true }, [.closePool])) := by
  cases hrequest : c.request with
  | connect | acquire | checkpoint mode =>
    rw [hrequest] at h
    cases h
  | close | remove =>
    simp only [enter, hrequest, hopen, Bool.false_eq_true, if_false]
    split
    · rename_i hp
      exact .inl ⟨hp, rfl⟩
    · rename_i p hp
      refine .inr ⟨⟨p, hp⟩, ?_⟩
      split
      · exact .inl rfl
      · exact .inr (by rw [drain, hrequest])

theorem Call.enter_resumed (c : Call) (db : Database) : Resumed c db (c.enter db) := by
  cases hrequest : c.request with
  | checkpoint mode =>
    simp only [enter, hrequest]
    split
    · exact .goes hrequest.symm (by simp) (by simp) (by simp [closing, Request.closes])
    · exact .finish _ _
  | close | remove =>
    have hcloses : c.request.closes = true := by rw [hrequest]; rfl
    cases hopen : db.closed with
    | true =>
      simp only [enter, hrequest, hopen, if_true]
      exact .through c.afterClose_request c.afterClose_through _
    | false =>
      rcases c.enter_of_closes hcloses hopen with ⟨-, he⟩ | ⟨-, he | he⟩ <;> rw [he]
      · exact .closes hcloses hopen c.afterClose_request
          (Phase.through_ends c.afterClose_through).1
      · exact .closes hcloses hopen rfl (by simp)
      · exact .closes hcloses hopen rfl (by simp)
  | connect | acquire =>
    simp only [enter, hrequest]
    split
    · exact .finish _ _
    · rename_i hopen
      exact usePool_resumed (.inl (by simpa using hopen))

end

namespace Traffic

variable {s s' t : Traffic} {i : Nat} {a : Answer}

theorem Serves.resumed (h : s.Serves i a t) :
    Resumed (s.calls i) t.handle ((s.calls i).resume t.handle a) := by
  have hpooled {φ : Phase} (hp : (s.calls i).phase = φ) (hφ : φ.pooled = true) :
      (s.calls i).phase.pooled = true := by rw [hp, hφ]
  cases h with
  | entered hp =>
    simp only [Call.resume, hp]
    exact (s.calls i).enter_resumed s.handle
  | waited hp _ =>
    simp only [Call.resume, hp]
    exact Call.usePool_resumed (.inr hp)
  | built n limit minimum hp =>
    simp only [Call.resume, hp]
    obtain ⟨hdb, hrequest, hbuilding, -, hclosing⟩ := (s.calls i).usePool_built
      { s.handle with
        pool := some { limit, minimum, idle := List.range' s.next n }
        building := false } rfl
    rw [hdb]
    exact .built hp hrequest hbuilding hclosing
  | unbuilt e hp =>
    simp only [Call.resume, hp]
    exact .built hp rfl (by simp [Call.finish]) (by simp [Call.closing, Call.finish, Phase.pooled])
  | acquired hp _ =>
    simp only [Call.resume, hp, Call.hold]
    split
    · exact .finish _ _
    · exact .pooled (hpooled hp rfl) rfl _
  | refused e hp _ =>
    simp only [Call.resume, hp, Call.refuse]
    split
    · exact .pooled (hpooled hp rfl) rfl _
    · exact .pooled (hpooled hp rfl) rfl _
    · exact .finish _ _
  | checkpointed r hp | uncheckpointed e hp =>
    simp only [Call.resume, hp, Call.afterCheckpoint]
    split
    · exact .pooled (hpooled hp rfl) rfl _
    · exact .pooled (hpooled hp rfl) rfl _
    · exact .finish _ _
  | drained hp _ _ =>
    simp only [Call.resume, hp]
    exact .through (Call.afterClose_request _) (Call.afterClose_through _) _
  | unlinked r hp =>
    cases r <;>
    · simp only [Call.resume, hp]
      exact .finish _ _

/-- What every change of the pool and every answer to a call keep, every step keeps. -/
theorem Step.preserves {P : Traffic → Prop}
    (hadjusts : ∀ {s s' : Traffic}, s.Adjusts s' → P s → P s')
    (hresumed : ∀ {s : Traffic} {i : Nat} {c : Call} {db : Database} {es : List Effect},
      Resumed (s.calls i) s.handle (c, db, es) → P s → P (s.become i c db))
    {l : Label} (hstep : s.Step l s') (h : P s) : P s' := by
  rcases hstep.turn_or_adjusts with ⟨i, a, keep, t, -, hserves, rfl⟩ | ⟨-, hsame⟩
  · have hadjusted := hserves.adjusts
    have hgoes := hserves.resumed
    rw [← hadjusted.calls] at hgoes
    exact hadjusts (.foldl keep _ _) (hresumed hgoes (hadjusts hadjusted h))
  · exact hadjusts hsame h

/-! ### Handles in order -/

/-- At most one call builds the pool, and none is through with an open handle. -/
structure Orderly (s : Traffic) : Prop where
  building : ∀ {j}, (s.calls j).phase = .building →
    s.handle.pool = none ∧ s.handle.building = true
  alone : ∀ {j k}, (s.calls j).phase = .building → (s.calls k).phase = .building → j = k
  closing : s.handle.closed = false → ∀ j, (s.calls j).closing = false

theorem Initial.orderly (h : s.Initial) : s.Orderly := by
  refine ⟨fun {j} hj => ?_, fun {j k} hj => ?_, fun _ j => ?_⟩
  · rw [h.calls j] at hj
    cases hj
  · rw [h.calls j] at hj
    cases hj
  · simp [Call.closing, h.calls j, Phase.pooled]

theorem Orderly.adjusts (ha : s.Adjusts s') (h : s.Orderly) : s'.Orderly := by
  refine ⟨fun {j} hj => ?_, fun {j k} hj hk => ?_, fun hopen j => ?_⟩
  · rw [ha.calls] at hj
    obtain ⟨hpool, hbuilding⟩ := h.building hj
    exact ⟨ha.none hpool, by rw [ha.building, hbuilding]⟩
  · rw [ha.calls] at hj hk
    exact h.alone hj hk
  · rw [ha.closed] at hopen
    rw [ha.calls]
    exact h.closing hopen j

variable {c : Call} {db : Database} {es : List Effect}

theorem become_self (s : Traffic) (i : Nat) (c : Call) (db : Database) :
    (s.become i c db).calls i = c := Function.update_self ..

/-- A call of the traffic after call `i` has become `c`. -/
theorem become_calls (s : Traffic) (i : Nat) (c : Call) (db : Database) (j : Nat) :
    j = i ∧ (s.become i c db).calls j = c ∨
      j ≠ i ∧ (s.become i c db).calls j = s.calls j := by
  by_cases hj : j = i
  · exact .inl ⟨hj, by rw [hj, become_self]⟩
  · exact .inr ⟨hj, Function.update_of_ne hj _ _⟩

theorem Step.request {l : Label} (h : s.Step l s') (j : Nat) :
    (s'.calls j).request = (s.calls j).request := by
  refine h.preserves (P := fun t => (t.calls j).request = (s.calls j).request)
    (fun ha ht => ?_) (fun {t i c db _} hr ht => ?_) rfl
  · rw [ha.calls]
    exact ht
  · rcases t.become_calls i c db j with ⟨rfl, he⟩ | ⟨-, he⟩ <;> rw [he]
    · exact hr.request.trans ht
    · exact ht

theorem Orderly.resumed (hr : Resumed (s.calls i) s.handle (c, db, es)) (h : s.Orderly) :
    (s.become i c db).Orderly := by
  have hcases := s.become_calls i c db
  have old (hc : c.phase ≠ .building) {j : Nat}
      (hj : ((s.become i c db).calls j).phase = .building) :
      j ≠ i ∧ (s.calls j).phase = .building := by
    rcases hcases j with ⟨-, he⟩ | ⟨hne, he⟩ <;> rw [he] at hj
    · exact absurd hj hc
    · exact ⟨hne, hj⟩
  cases hr with
  | goes _ hc _ hclosing =>
    refine ⟨fun hj => h.building (old hc hj).2,
      fun hj hk => h.alone (old hc hj).2 (old hc hk).2, fun hopen j => ?_⟩
    rcases hcases j with ⟨-, he⟩ | ⟨-, he⟩ <;> rw [he]
    · exact hclosing (h.closing hopen i)
    · exact h.closing hopen j
  | builds _ hpool hfree =>
    have only {j : Nat} (hj : ((s.become i { s.calls i with phase := .building }
        { s.handle with building := true }).calls j).phase = .building) : j = i := by
      rcases hcases j with ⟨hji, -⟩ | ⟨-, he⟩
      · exact hji
      · rw [he] at hj
        have hbusy := (h.building hj).2
        rw [hfree] at hbusy
        cases hbusy
    refine ⟨fun _ => ⟨hpool, rfl⟩, fun hj hk => (only hj).trans (only hk).symm, fun hopen j => ?_⟩
    rcases hcases j with ⟨-, he⟩ | ⟨-, he⟩ <;> rw [he]
    · simp [Call.closing, Phase.pooled]
    · exact h.closing hopen j
  | built hbuilding _ hc hclosing =>
    refine ⟨fun hj => ?_, fun hj => ?_, fun hopen j => ?_⟩
    · exact absurd (h.alone (old hc hj).2 hbuilding) (old hc hj).1
    · exact absurd (h.alone (old hc hj).2 hbuilding) (old hc hj).1
    · rcases hcases j with ⟨-, he⟩ | ⟨-, he⟩ <;> rw [he]
      · exact hclosing
      · exact h.closing hopen j
  | closes _ _ _ hc =>
    refine ⟨fun hj => h.building (old hc hj).2,
      fun hj hk => h.alone (old hc hj).2 (old hc hk).2, fun hopen => ?_⟩
    cases hopen

theorem Run.orderly {s₀ : Traffic} {ls : List Label} (h : s₀.Orderly) (hrun : s₀.Run ls s) :
    s.Orderly := by
  induction hrun with
  | start => exact h
  | step _ hstep ih => exact hstep.preserves Orderly.adjusts Orderly.resumed ih

end Traffic

end SingleWriter.Database
