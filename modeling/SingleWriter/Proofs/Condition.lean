import SingleWriter.Proofs.Alone

/-! The conditions of a handle between calls: it is unconnected, connected or closed.  `Move` is the
table of what a call may be told and come to in each of these, and where it leaves the handle.  A
`Life` follows the table from the beginning on, and `Life.tally` says what it comes to. -/

namespace SingleWriter.Database

inductive Condition where
  | unconnected
  | connected
  | closed
deriving DecidableEq

def condition (db : Database) : Condition :=
  if db.closed then .closed else if db.pool.isSome then .connected else .unconnected

section

variable (db : Database)

theorem condition_eq_closed : db.condition = .closed ↔ db.closed = true := by
  unfold condition
  cases db.closed <;> cases db.pool <;> simp

theorem condition_eq_unconnected :
    db.condition = .unconnected ↔ db.closed = false ∧ db.pool = none := by
  unfold condition
  cases db.closed <;> cases db.pool <;> simp

theorem openPool_eq_closed : db.openPool = .error .closed ↔ db.condition = .closed := by
  unfold openPool condition
  cases db.closed <;> cases db.pool <;> simp

theorem openPool_eq_notInitialized :
    db.openPool = .error .notInitialized ↔ db.condition = .unconnected := by
  unfold openPool condition
  cases db.closed <;> cases db.pool <;> simp

theorem openPool_eq_ok (p : Pool) :
    db.openPool = .ok p ↔ db.condition = .connected ∧ db.pool = some p := by
  unfold openPool condition
  cases db.closed <;> cases db.pool <;> simp

theorem connected_iff : db.connected = true ↔ db.condition = .connected := by
  unfold connected condition
  cases db.closed <;> cases db.pool <;> simp

end

theorem Alike.condition {db db' : Database} (h : db.Alike db') : db.condition = db'.condition := by
  cases h <;> rfl

/-- A completed call: how it found the handle, what it asked for, what it was told on its way, and
what came of it. -/
structure Visit where
  found : Condition
  request : Request
  answers : List Answer
  result : Except ConnectionError Product

def Answer.built? : Answer → Option Pool
  | .built p => some p
  | _ => none

namespace Visit

/-- The pools that were built. -/
def pools (v : Visit) : List Pool := v.answers.filterMap Answer.built?

/-- Whether a call that closes the handle asks for a connection on which to empty the log. -/
def emptiesLog (v : Visit) : Bool :=
  v.request.closes && Call.checkpointMode { request := v.request } == .truncate &&
    match v.answers with
    | .proceed :: .acquired _ :: _ => true
    | .proceed :: .failed _ :: _ => true
    | _ => false

end Visit

/-! ### The table -/

/-- What a call is told while it closes the handle.  A connected handle with a log gets a last
checkpoint, whose failure changes nothing. -/
inductive Shutdown (wal : Bool) : Condition → List Answer → Prop
  | again : Shutdown wal .closed []
  | unused : Shutdown wal .unconnected []
  | plain : wal = false → Shutdown wal .connected [.proceed]
  | refused (e : SqlError) : wal = true → Shutdown wal .connected [.failed e, .proceed]
  | checkpointed (on : Nat) (r : CheckpointReport) : wal = true →
      Shutdown wal .connected [.acquired on, .report r, .proceed]
  | uncheckpointed (on : Nat) (e : SqlError) : wal = true →
      Shutdown wal .connected [.acquired on, .failed e, .proceed]

/-- What a call is told when the handle is closed, and what comes of it. -/
inductive Parting : Request → List Answer → Except ConnectionError Product → Prop
  | closed : Parting .close [] (.ok .done)
  | removed : Parting .remove [.unlinked (.ok ())] (.ok .done)
  | kept (e : IoError) : Parting .remove [.unlinked (.error e)] (.error (.io e))

/-- A completed call and the condition in which it leaves the handle, whose log is on or off and
whose file has this path. -/
inductive Move (wal : Bool) (path : String) : Visit → Condition → Prop
  | unbuilt {q : Request} (e : SqlError) : q.opens = true →
      Move wal path ⟨.unconnected, q, [.proceed, .failed e], .error (.ofOpening path e)⟩
        .unconnected
  /-- With the pool that it has built, a call goes on as on a connected handle. -/
  | built {q : Request} {as : List Answer} {r : Except ConnectionError Product} (p : Pool) :
      q.opens = true → Move wal path ⟨.connected, q, .proceed :: as, r⟩ .connected →
      Move wal path ⟨.unconnected, q, .proceed :: .built p :: as, r⟩ .connected
  | shared : Move wal path ⟨.connected, .connect, [.proceed], .ok .done⟩ .connected
  | lent (on : Nat) :
      Move wal path ⟨.connected, .acquire, [.proceed, .acquired on], .ok (.connection on)⟩
        .connected
  | refused {q : Request} (e : SqlError) : q.closes = false → q ≠ .connect →
      Move wal path ⟨.connected, q, [.proceed, .failed e], .error (.sql e)⟩ .connected
  | absent (mode : CheckpointMode) :
      Move wal path ⟨.unconnected, .checkpoint mode, [.proceed], .error .notInitialized⟩
        .unconnected
  | checkpointed (mode : CheckpointMode) (on : Nat) (r : CheckpointReport) :
      Move wal path
        ⟨.connected, .checkpoint mode, [.proceed, .acquired on, .report r], .ok (.report r)⟩
        .connected
  | uncheckpointed (mode : CheckpointMode) (on : Nat) (e : SqlError) :
      Move wal path
        ⟨.connected, .checkpoint mode, [.proceed, .acquired on, .failed e],
          .error (.checkpoint mode.name e)⟩
        .connected
  | turnedAway {q : Request} : q.closes = false →
      Move wal path ⟨.closed, q, [.proceed], .error .closed⟩ .closed
  | closes {q : Request} {found : Condition} {as as' : List Answer}
      {r : Except ConnectionError Product} : q.closes = true → Shutdown wal found as →
      Parting q as' r → Move wal path ⟨found, q, .proceed :: (as ++ as'), r⟩ .closed

/-- Completed calls that follow the table from a handle that was never used, and the condition in
which they leave it. -/
inductive Life (wal : Bool) (path : String) : List Visit → Condition → Prop
  | start : Life wal path [] .unconnected
  | move {vs : List Visit} {v : Visit} {after : Condition} : Life wal path vs v.found →
      Move wal path v after → Life wal path (vs ++ [v]) after

/-! ### What a life comes to -/

section

variable {wal : Bool} {path : String} {v : Visit} {vs : List Visit} {after : Condition}

/-- A call builds no pool, or it finds the handle unconnected and leaves it connected. -/
theorem Move.pools (h : Move wal path v after) :
    v.pools = [] ∧ (after = v.found ∨ after = .closed) ∨
      (∃ p, v.pools = [p]) ∧ v.found = .unconnected ∧ after = .connected := by
  cases h with
  | unbuilt | shared | lent | refused | absent | checkpointed | uncheckpointed | turnedAway =>
    exact .inl ⟨rfl, .inl rfl⟩
  | built p _ h =>
    refine .inr ⟨⟨p, ?_⟩, rfl, rfl⟩
    cases h <;> rfl
  | closes _ hshutdown hparting =>
    refine .inl ⟨?_, .inr rfl⟩
    cases hshutdown <;> cases hparting <;> rfl

/-- Just the calls that close a connected handle with a log empty the log. -/
theorem Move.emptiesLog (h : Move wal path v after) : v.emptiesLog = true ↔
    wal = true ∧ v.request.closes = true ∧ v.found = .connected := by
  cases h with
  | unbuilt _ hq | built _ hq => simp [Visit.emptiesLog, Request.closes_of_opens hq]
  | shared | lent | absent | checkpointed | uncheckpointed =>
    simp [Visit.emptiesLog, Request.closes]
  | refused _ hq | turnedAway hq => simp [Visit.emptiesLog, hq]
  | closes _ hshutdown hparting =>
    cases hshutdown with
    | again | unused =>
      refine iff_of_false ?_ (by simp)
      cases hparting <;> simp [Visit.emptiesLog]
    | plain hwal =>
      refine iff_of_false ?_ (by simp [hwal])
      cases hparting <;> simp [Visit.emptiesLog]
    | refused _ hwal | checkpointed _ _ hwal | uncheckpointed _ _ hwal =>
      cases hparting <;> exact iff_of_true rfl ⟨hwal, rfl, rfl⟩

theorem Move.closed (h : Move wal path v after) :
    after = .closed ↔ v.found = .closed ∨ v.request.closes = true := by
  cases h with
  | unbuilt _ hq | built _ hq => simp [Request.closes_of_opens hq]
  | shared | lent | absent | checkpointed | uncheckpointed => simp [Request.closes]
  | refused _ hq => simp [hq]
  | turnedAway | closes => simp [*]

theorem Move.result_of_close (h : Move wal path v after) (hv : v.request = .close) :
    v.result = .ok .done := by
  obtain ⟨found, q, as, r⟩ := v
  obtain rfl : q = .close := hv
  cases h with
  | unbuilt _ hq | built _ hq | refused _ hq | turnedAway hq => cases hq
  | closes _ _ hparting =>
    cases hparting
    rfl

theorem Move.result_of_closed (h : Move wal path v after) (hfound : v.found = .closed)
    (hv : v.request.closes = false) : v.result = .error .closed := by
  cases h with
  | unbuilt | built | shared | lent | refused | absent | checkpointed | uncheckpointed =>
    cases hfound
  | turnedAway => rfl
  | closes hq =>
    rw [show Request.closes _ = true from hq] at hv
    cases hv

theorem Move.notInitialized (h : Move wal path v after) : v.result = .error .notInitialized ↔
    v.found = .unconnected ∧ ∃ mode, v.request = .checkpoint mode := by
  cases h with
  | shared | lent | refused | checkpointed | uncheckpointed | turnedAway => simp
  | absent mode => simp
  | unbuilt e hq =>
    refine iff_of_false (fun h => ?_) ?_
    · cases e <;> cases h
    · rintro ⟨-, mode, rfl⟩
      cases hq
  | built _ hq h =>
    refine iff_of_false ?_ ?_
    · cases h <;> simp
    · rintro ⟨-, mode, rfl⟩
      cases hq
  | closes hq _ hparting =>
    refine iff_of_false ?_ ?_
    · cases hparting <;> simp
    · rintro ⟨-, mode, rfl⟩
      cases hq

theorem Life.move_of_mem (h : Life wal path vs after) (hv : v ∈ vs) :
    ∃ after', Move wal path v after' := by
  induction h with
  | start => cases hv
  | move _ hmove ih =>
    rcases List.mem_append.mp hv with hv | hv
    · exact ih hv
    · rw [List.mem_singleton.mp hv]
      exact ⟨_, hmove⟩

/-- What has happened in a life so far. -/
structure Tally (vs : List Visit) (now : Condition) : Prop where
  fresh : now = .unconnected → vs.flatMap Visit.pools = []
  once : (vs.flatMap Visit.pools).length ≤ 1
  unfolded : now ≠ .closed → vs.countP Visit.emptiesLog = 0
  folded : vs.countP Visit.emptiesLog ≤ 1

theorem Tally.move (h : Tally vs v.found) (hmove : Move wal path v after) :
    Tally (vs ++ [v]) after := by
  have hpools : (vs ++ [v]).flatMap Visit.pools = vs.flatMap Visit.pools ++ v.pools := by
    rw [List.flatMap_append, List.flatMap_singleton]
  have hcount : (vs ++ [v]).countP Visit.emptiesLog =
      vs.countP Visit.emptiesLog + if v.emptiesLog then 1 else 0 := by
    rw [List.countP_append, List.countP_singleton]
  refine ⟨fun hafter => ?_, ?_, fun hafter => ?_, ?_⟩
  · rw [hpools]
    rcases hmove.pools with ⟨hnone, hsame | hclosed⟩ | ⟨-, -, hconnected⟩
    · rw [h.fresh (hsame.symm.trans hafter), hnone, List.nil_append]
    · rw [hclosed] at hafter
      cases hafter
    · rw [hconnected] at hafter
      cases hafter
  · rw [hpools]
    rcases hmove.pools with ⟨hnone, -⟩ | ⟨⟨p, hone⟩, hfound, -⟩
    · rw [hnone, List.append_nil]
      exact h.once
    · rw [h.fresh hfound, hone]
      exact Nat.le_refl 1
  · rw [ne_eq, hmove.closed, not_or] at hafter
    have hno : v.emptiesLog = false := by
      rw [← Bool.not_eq_true, hmove.emptiesLog]
      exact fun hyes => hafter.2 hyes.2.1
    rw [hcount, hno, h.unfolded hafter.1]
    rfl
  · rw [hcount]
    split
    · rename_i hyes
      have hfound := (hmove.emptiesLog.mp hyes).2.2
      have hnone : vs.countP Visit.emptiesLog = 0 := h.unfolded (by simp [hfound])
      omega
    · exact h.folded

theorem Life.tally (h : Life wal path vs after) : Tally vs after := by
  induction h with
  | start => exact ⟨fun _ => rfl, Nat.zero_le _, fun _ => rfl, Nat.zero_le _⟩
  | move _ hmove ih => exact ih.move hmove

end

end SingleWriter.Database
