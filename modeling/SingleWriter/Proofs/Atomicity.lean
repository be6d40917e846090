import Mathlib.Data.List.Induction
import SingleWriter.Proofs.Connections

/-! One write leaves all of its effect or none.  It invokes its operation once in each attempt that
comes to it, and what is committed in the end is what the last of these runs has done, or nothing if
the write returns an error. -/

namespace SingleWriter.Write.Scene

variable {K Q R α : Type} {b : Backend K Q R} {w : Workload Q R α} {s s' s₀ m : Scene b α} {i : Nat}
  {ls : List (Label α)} {l : Label α}

/-! ### Invocations -/

/-- The attempt of call `i` may still come to its operation. -/
def Pending (s : Scene b α) (i : Nat) : Prop :=
  match (s.calls i).phase with
  | .beginning _ => True
  | .operating _ => s.left i = none
  | _ => False

/-- The last operation of call `i` was invoked in its current attempt and has not failed. -/
def Alive (s : Scene b α) (i : Nat) : Prop :=
  match (s.calls i).phase with
  | .operating _ => s.left i ≠ none
  | .committing _ _ => True
  | .finished (.ok _) => True
  | _ => False

/-- The attempts that come to their operation. -/
def invoking (trial : Nat → Trial α) (made : List Nat) : List Nat :=
  made.filter fun k => (trial k).invokes

/-- How the invocations of call `i` go with the attempts that it has made. -/
structure Counted (trial : Nat → Trial α) (s : Scene b α) (i : Nat) (made invoked : List Nat) :
    Prop where
  pending : s.Pending i → ∃ before, made = before ++ [(s.calls i).attempt] ∧
    invoked = invoking trial before
  passed : ¬s.Pending i → invoked = invoking trial made
  last : s.Alive i → invoked.getLast? = some (s.calls i).attempt

theorem invocations_concat (ls : List (Label α)) (l : Label α) :
    invocations i (ls ++ [l]) = invocations i ls ++ (l.invocationOf? i).toList := by
  cases h : l.invocationOf? i <;> simp [invocations, h]

section Counted

variable {trial : Nat → Trial α} {made invoked : List Nat}

theorem not_pending_of_bare (h : (s.calls i).phase.Bare) : ¬s.Pending i := by
  unfold Pending
  cases hp : (s.calls i).phase with
  | beginning | operating =>
    rw [hp] at h
    exact h.elim
  | _ => exact id

theorem not_alive_of_bare (h : (s.calls i).phase.Bare) : ¬s.Alive i := by
  unfold Alive
  cases hp : (s.calls i).phase with
  | finished r =>
    rw [hp] at h
    cases r with
    | ok => exact h.elim
    | error => exact id
  | operating | committing =>
    rw [hp] at h
    exact h.elim
  | _ => exact id

theorem invoking_concat_pos {k : Nat} (h : (trial k).invokes = true) :
    invoking trial (made ++ [k]) = invoking trial made ++ [k] := by
  simp [invoking, h]

theorem invoking_concat_neg {k : Nat} (h : (trial k).invokes = false) :
    invoking trial (made ++ [k]) = invoking trial made := by
  simp [invoking, h]

theorem Counted.of_bare (h : (s.calls i).phase.Bare) (hinvoked : invoked = invoking trial made) :
    s.Counted trial i made invoked :=
  ⟨fun hp => (not_pending_of_bare h hp).elim, fun _ => hinvoked,
    fun ha => (not_alive_of_bare h ha).elim⟩

theorem Counted.of_rollingBack {on : ConnectionId} {e : WriteError}
    (h : (s.calls i).phase = .rollingBack on e) (hinvoked : invoked = invoking trial made) :
    s.Counted trial i made invoked := by
  refine ⟨fun hp => ?_, fun _ => hinvoked, fun ha => ?_⟩
  · rw [Pending, h] at hp
    exact hp.elim
  · rw [Alive, h] at ha
    exact ha.elim

/-- A step that is no answer to call `i` leaves its operation as it is, goes on with it or invokes
it. -/
theorem Step.operates (h : s.Step w l s') (i : Nat) (hl : l.turnOf? i = none) :
    l.invocationOf? i = none ∧ (s'.left i = none ↔ s.left i = none) ∨
      l.invocationOf? i = some (s.calls i).attempt ∧ (∃ on, (s.calls i).phase = .operating on) ∧
        s.left i = none ∧ s'.left i ≠ none := by
  cases h with
  | @turn j a u keep hserves =>
    have hj : i ≠ j := by
      rintro rfl
      simp [Label.turnOf?] at hl
    have hleft : u.left = s.left := by cases hserves <;> rfl
    refine .inl ⟨rfl, ?_⟩
    rw [answered, (foldl_fulfil keep _ _).2.1, ← hleft]
    simp only [Function.update_of_ne hj]
  | @invoke j on p hp hleft =>
    by_cases hj : j = i
    · subst hj
      refine .inr ⟨by simp [Label.invocationOf?], ⟨on, hp⟩, hleft, ?_⟩
      simp only [Function.update_self]
      simp
    · refine .inl ⟨by simp [Label.invocationOf?, hj], ?_⟩
      simp only [Function.update_of_ne (Ne.symm hj)]
  | @ask j on q next r state hp hleft =>
    refine .inl ⟨rfl, ?_⟩
    by_cases hj : i = j
    · subst hj
      simp only [Function.update_self, hleft]
      simp
    · simp only [Function.update_of_ne hj]
  | lineUp | queue | place | renew | refill => exact .inl ⟨rfl, .rfl⟩

theorem Counted.same (h : s.Counted trial i made invoked) (hcalls : s'.calls i = s.calls i)
    (hleft : s'.left i = none ↔ s.left i = none) : s'.Counted trial i made invoked := by
  have hpending : s'.Pending i ↔ s.Pending i := by rw [Pending, Pending, hcalls, hleft]
  have halive : s'.Alive i ↔ s.Alive i := by rw [Alive, Alive, hcalls, ne_eq, ne_eq, hleft]
  refine ⟨fun hp => ?_, fun hp => h.passed fun hp' => hp (hpending.mpr hp'), fun ha => ?_⟩
  · rw [hcalls]
    exact h.pending (hpending.mp hp)
  · rw [hcalls]
    exact h.last (halive.mp ha)

theorem Counted.invoke (h : s.Counted trial i made invoked) {on : ConnectionId}
    (hp : (s.calls i).phase = .operating on) (hleft : s.left i = none)
    (hinvokes : (trial (s.calls i).attempt).invokes = true) (hcalls : s'.calls i = s.calls i)
    (hleft' : s'.left i ≠ none) :
    s'.Counted trial i made (invoked ++ [(s.calls i).attempt]) := by
  have hpending : s.Pending i := by rwa [Pending, hp]
  have hpending' : ¬s'.Pending i := by rwa [Pending, hcalls, hp]
  obtain ⟨before, rfl, rfl⟩ := h.pending hpending
  refine ⟨fun hp' => (hpending' hp').elim, fun _ => ?_, fun _ => ?_⟩
  · rw [invoking_concat_pos hinvokes]
  · rw [List.getLast?_concat, hcalls]

/-- A call that is not about to begin has invoked its operation in each attempt that comes to it. -/
theorem Counted.invoked_eq (h : s.Counted trial i made invoked)
    (hleft : ∀ on, (s.calls i).phase = .operating on → s.left i ≠ none) {φ : Phase α}
    (hp : (s.calls i).phase = φ) (hφ : φ.rank ≠ 5) : invoked = invoking trial made := by
  refine h.passed fun hpending => ?_
  unfold Pending at hpending
  cases hp' : (s.calls i).phase with
  | beginning on =>
    rw [← hp, hp'] at hφ
    exact hφ rfl
  | operating on =>
    rw [hp'] at hpending
    exact hleft on hp' hpending
  | _ =>
    rw [hp'] at hpending
    exact hpending

theorem made_same {a : Answer α} {φ : Phase α} (hp : (s.calls i).phase = φ) (hφ : φ.rank ≠ 6) :
    made ++ (s.turn w i a).made?.toList = made := by
  have hquiet : (s.turn w i a).made? = none := by
    unfold Turn.made? Scene.turn
    cases hp' : (s.calls i).phase with
    | acquiring =>
      rw [← hp, hp'] at hφ
      exact (hφ rfl).elim
    | _ => rfl
  rw [hquiet]
  exact List.append_nil _

theorem made_acquiring {a : Answer α} (hp : (s.calls i).phase = .acquiring) :
    made ++ (s.turn w i a).made?.toList = made ++ [(s.calls i).attempt] := by
  rw [Turn.made?, Scene.turn, hp]
  rfl

theorem Counted.turn (h : s.Counted trial i made invoked) {a : Answer α}
    (hgives : (trial (s.calls i).attempt).Gives (s.calls i).phase a)
    (hcalls : s'.calls i = (s.resumed w i a).1) (hleft' : s'.left i = none)
    (hleft : ∀ on, (s.calls i).phase = .operating on → s.left i ≠ none) :
    s'.Counted trial i (made ++ (s.turn w i a).made?.toList) invoked := by
  have hpassed {φ : Phase α} (hp : (s.calls i).phase = φ) (hφ : φ.rank ≠ 5) :
      invoked = invoking trial made := h.invoked_eq hleft hp hφ
  have hadvance := hgives.advance (p := w.policy) (m := w.moment i (s.calls i).attempt)
  rw [← resumed] at hadvance
  generalize s.resumed w i a = next at hadvance hcalls
  cases hadvance with
  | line hp | again hp | wake hp =>
    rw [made_same hp (by simp [Phase.rank])]
    exact .of_bare (by rw [hcalls]; trivial) (hpassed hp (by simp [Phase.rank]))
  | enter hp =>
    rcases hp with ⟨hp, _⟩ | hp <;>
    · rw [made_same hp (by simp [Phase.rank])]
      exact .of_bare (by rw [hcalls]; trivial) (hpassed hp (by simp [Phase.rank]))
  | stop hp =>
    rcases hp with hp | hp <;>
    · rw [made_same hp (by simp [Phase.rank])]
      exact .of_bare (by rw [hcalls]; trivial) (hpassed hp (by simp [Phase.rank]))
  | acquire hp _ =>
    rw [made_acquiring hp]
    refine ⟨fun _ => ⟨made, by rw [hcalls], hpassed hp (by simp [Phase.rank])⟩, fun hno => ?_,
      fun ha => ?_⟩
    · rw [Pending, hcalls] at hno
      exact (hno trivial).elim
    · rw [Alive, hcalls] at ha
      exact ha.elim
  | refuse hp hc =>
    rw [made_acquiring hp]
    refine .of_bare (by rw [hcalls]; exact Call.settle_bare ..) ?_
    rw [invoking_concat_neg (Trial.invokes_of_refused hc)]
    exact hpassed hp (by simp [Phase.rank])
  | start hp _ =>
    rw [made_same hp (by simp [Phase.rank])]
    refine ⟨fun _ => ?_, fun hno => ?_, fun ha => ?_⟩
    · rw [hcalls]
      exact h.pending (by rw [Pending, hp]; trivial)
    · rw [Pending, hcalls] at hno
      exact (hno hleft').elim
    · rw [Alive, hcalls] at ha
      exact (ha hleft').elim
  | halt hp hc =>
    rw [made_same hp (by simp [Phase.rank])]
    obtain ⟨before, rfl, rfl⟩ := h.pending (by rw [Pending, hp]; trivial)
    refine .of_bare (by rw [hcalls]; exact Call.settle_bare ..) ?_
    rw [invoking_concat_neg (Trial.invokes_of_begins hc)]
  | work hp _ =>
    rw [made_same hp (by simp [Phase.rank])]
    refine ⟨fun hp' => ?_, fun _ => hpassed hp (by simp [Phase.rank]), fun _ => ?_⟩
    · rw [Pending, hcalls] at hp'
      exact hp'.elim
    · rw [hcalls]
      exact h.last (by rw [Alive, hp]; exact hleft _ hp)
  | keep hp _ =>
    rw [made_same hp (by simp [Phase.rank])]
    refine ⟨fun hp' => ?_, fun _ => hpassed hp (by simp [Phase.rank]), fun _ => ?_⟩
    · rw [Pending, hcalls] at hp'
      exact hp'.elim
    · rw [hcalls]
      exact h.last (by rw [Alive, hp]; trivial)
  | undo hp _ | revert hp _ =>
    rw [made_same hp (by simp [Phase.rank])]
    exact .of_rollingBack (by rw [hcalls]) (hpassed hp (by simp [Phase.rank]))
  | restore hp _ | abandon hp _ =>
    rw [made_same hp (by simp [Phase.rank])]
    exact .of_bare (by rw [hcalls]; exact Call.settle_bare ..) (hpassed hp (by simp [Phase.rank]))

end Counted

theorem Label.no_invocation {t : Turn α} (h : l.turnOf? i = some t) : l.invocationOf? i = none := by
  cases l with
  | turn => rfl
  | invoked | aside => cases h

/-- The operation of a call is invoked once in each attempt that comes to it. -/
theorem Run.counted (h : s₀.Initial w) (hrun : s₀.Run w ls s) {trial : Nat → Trial α}
    (htrial : Agrees trial (turnsOf i ls)) :
    s.Counted trial i (attempts (turnsOf i ls)) (invocations i ls) := by
  induction hrun with
  | start => exact .of_bare (by rw [h.calls i]; trivial) rfl
  | @step ls l m s' hrun hstep ih =>
    rw [turnsOf_concat] at htrial
    have hbefore : Agrees trial (turnsOf i ls) := fun t ht => htrial t (List.mem_append_left _ ht)
    have ih := ih hbefore
    rw [turnsOf_concat, invocations_concat]
    rcases hstep.answers i with ⟨hl, hcalls⟩ | ⟨a, u, hl, hcalls, -, hleft', hleft⟩
    · rw [hl, Option.toList_none, List.append_nil]
      rcases hstep.operates i hl with ⟨hnone, hsame⟩ | ⟨hsome, ⟨on, hp⟩, hleft, hleft'⟩
      · rw [hnone, Option.toList_none, List.append_nil]
        exact ih.same hcalls hsame
      · obtain ⟨j, hj⟩ := (hrun.course h hbefore).standing
        have hstands := hj.stands
        rw [hp] at hstands
        obtain ⟨-, hc, hb⟩ := hstands
        rw [← hj.attempt] at hc hb
        rw [hsome]
        exact ih.invoke hp hleft (Trial.invokes_of_ok hc hb) hcalls hleft'
    · have hgives : (trial (m.calls i).attempt).Gives (m.calls i).phase a := by
        refine htrial (m.turn w i a) ?_
        rw [hl]
        exact List.mem_append_right _ (List.mem_singleton_self _)
      rw [hl, Label.no_invocation hl, Option.toList_some, attempts_concat, Option.toList_none,
        List.append_nil]
      exact ih.turn hgives hcalls hleft' hleft

/-! ### Parts of a run -/

theorem Run.last (h : s₀.Run w (ls ++ [l]) s) : ∃ m, s₀.Run w ls m ∧ m.Step w l s := by
  generalize hls : ls ++ [l] = ls' at h
  cases h with
  | start => simp at hls
  | step hrun hstep =>
    obtain ⟨rfl, hl⟩ := List.append_inj' hls rfl
    obtain rfl : l = _ := by simpa using hl
    exact ⟨_, hrun, hstep⟩

theorem Run.split {ls' : List (Label α)} (h : s₀.Run w (ls ++ ls') s) :
    ∃ m, s₀.Run w ls m ∧ m.Run w ls' s := by
  induction ls' using List.reverseRecOn generalizing s with
  | nil => exact ⟨s, by simpa using h, .start⟩
  | append_singleton ls' l ih =>
    rw [← List.append_assoc] at h
    obtain ⟨n, hrun, hstep⟩ := h.last
    obtain ⟨m, hm, hn⟩ := ih hrun
    exact ⟨m, hm, hn.step hstep⟩

theorem Run.stays (hrun : m.Run w ls s) {r : Except WriteError α}
    (h : (m.calls i).phase = .finished r) :
    (s.calls i).phase = .finished r ∧ invocations i ls = [] := by
  induction hrun with
  | start => exact ⟨h, rfl⟩
  | @step ls l n s' _ hstep ih =>
    obtain ⟨hn, hnone⟩ := ih
    refine ⟨by rw [(hstep.stays hn).1, hn], ?_⟩
    rw [invocations_concat, hnone]
    rcases hstep.answers i with ⟨hl, -⟩ | ⟨a, u, hl, -⟩
    · rcases hstep.operates i hl with ⟨hno, -⟩ | ⟨-, ⟨on, hp⟩, -⟩
      · rw [hno]
        rfl
      · rw [hn] at hp
        cases hp
    · rw [Label.no_invocation hl]
      rfl

theorem Serial.nil {k k' : K} (h : s.Serial w k [] k') : k' = k := by
  generalize ho : ([] : List Nat) = order at h
  cases h with
  | start => rfl
  | next => simp at ho

theorem Serial.single {k k' : K} (h : s.Serial w k [i] k') : Replays b.effect k (s.work i) k' := by
  generalize ho : [i] = order at h
  cases h with
  | start => cases ho
  | @next order j v k₁ k₂ hbefore _ _ hreplays =>
    obtain ⟨horder, hj⟩ := List.append_inj' (show [] ++ [i] = order ++ [j] from ho) rfl
    obtain rfl : i = j := by simpa using hj
    rw [← horder] at hbefore
    rw [hbefore.nil] at hreplays
    exact hreplays

/-! ### Atomic writes -/

/-- What a write that is over has done in a run in which nothing else was committed. -/
structure Atomic (w : Workload Q R α) (s₀ : Scene b α) (ls : List (Label α)) (s : Scene b α)
    (i : Nat) (r : Except WriteError α) : Prop where
  /-- A value is that of the last run of the operation, and exactly this run is committed. -/
  value : ∀ v, r = .ok v → ∃ k p, (invocations i ls).getLast? = some k ∧ w.operation i k p ∧
    p.Follows (s.work i) (.done (.ok v)) ∧
    Replays b.effect (b.committed s₀.state) (s.work i) (b.committed s.state)
  /-- A write that fails commits nothing. -/
  error : ∀ e, r = .error e → b.committed s.state = b.committed s₀.state
  /-- The attempts come to what their first failing steps say, the rollback aside, and the result
  and the events follow from that.  The operation is invoked in the attempts that begin a
  transaction. -/
  trials : ∃ trial, Agrees trial (turnsOf i ls) ∧
    Ended w.policy (w.name i) (w.moment i) trial r (attempts (turnsOf i ls))
      (events (turnsOf i ls)) ∧
    invocations i ls = invoking trial (attempts (turnsOf i ls))
  increasing : (invocations i ls).Pairwise (· < ·)
  within : ∀ k ∈ invocations i ls, 1 ≤ k ∧ k ≤ w.policy.maxAttempts
  /-- Nothing is invoked after a commit that has worked. -/
  stops : ∀ before t after, ls = before ++ .turn i t :: after → t.commits = true →
    invocations i after = []
  /-- Every connection that the write has got is freed, once. -/
  frees : (turnsOf i ls).filterMap Turn.acquired? = (turnsOf i ls).flatMap Turn.frees
  /-- A connection that is freed was lent, and is not lent any more unless it was so before the run.
  It is at rest without a transaction, or it is closed and nobody gets it again. -/
  rests : ∀ before t after on, ls = before ++ .turn i t :: after → on ∈ t.frees →
    ∃ n m : Scene b α, s₀.Run w before n ∧ n.Step w (.turn i t) m ∧ m.Run w after s ∧
      on ∈ n.pool.lent ∧ (on ∉ s₀.pool.lent → on ∉ m.pool.lent) ∧
      (on ∈ m.pool.idle ∧ b.stance m.state on = .idle ∧ .discard on ∉ t.effects ∨
        n.Closes on m ∧ ∀ l ∈ after, ¬l.Acquires on)

section Atomic

variable {r : Except WriteError α}

theorem ended_made {p : RetryPolicy} {name : String} {moment : Nat → Moment}
    {trial : Nat → Trial α} {made : List Nat} {told : List Event}
    (h : Ended p name moment trial r made told) :
    ∃ k, k ≤ p.maxAttempts ∧ made = List.range' 1 k := by
  cases h with
  | value hk => exact ⟨_, hk, rfl⟩
  | fatal hk => exact ⟨_, hk, rfl⟩
  | exhausted hk => exact ⟨_, Nat.le_of_eq hk, rfl⟩
  | cancelled hk => exact ⟨_, Nat.le_of_lt hk, rfl⟩

/-- When no other call has committed, the commits are those of call `i`, at most one. -/
theorem Ordered.alone {k : K} (h : s.Ordered w k ls)
    (hothers : ∀ j, j ≠ i → j ∉ commitOrder ls) :
    commitOrder ls = [] ∧ (∀ v, (s.calls i).phase ≠ .finished (.ok v)) ∨ commitOrder ls = [i] := by
  have hall (j : Nat) (hj : j ∈ commitOrder ls) : j = i := by
    by_contra hne
    exact hothers j hne hj
  have hnodup := h.nodup
  have hmem := h.mem_iff i
  generalize commitOrder ls = order at hall hnodup hmem
  match order with
  | [] => exact .inl ⟨rfl, fun v hv => by simpa using hmem.mpr ⟨v, hv⟩⟩
  | [j] => exact .inr (by rw [hall j (List.mem_singleton_self j)])
  | j :: j' :: rest =>
    rw [hall j (by simp), hall j' (by simp)] at hnodup
    simp at hnodup

theorem Run.stops (hb : b.Lawful) (h : s₀.Initial w) (hrun : s₀.Run w ls s)
    {before after : List (Label α)} {t : Turn α} (hls : ls = before ++ .turn i t :: after)
    (ht : t.commits = true) : invocations i after = [] := by
  rw [List.append_cons] at hls
  subst hls
  obtain ⟨m, hm, hafter⟩ := hrun.split
  obtain ⟨n, hn, hstep⟩ := hm.last
  have hcommitted : (Label.turn i t).committed? = some i := by rw [Label.committed?, ht]; rfl
  rcases (h.sound.run hb hn).step_commits hb hstep with ⟨j, hj, hcommits⟩ | ⟨hnone, -⟩
  · rw [hcommitted] at hj
    cases hj
    obtain ⟨v, hv⟩ := hcommits.value
    exact (hafter.stays hv).2
  · rw [hcommitted] at hnone
    cases hnone

theorem Run.rests (hb : b.Lawful) (h : s₀.Initial w) (hrun : s₀.Run w ls s)
    {before after : List (Label α)} {t : Turn α} {on : ConnectionId}
    (hls : ls = before ++ .turn i t :: after) (hon : on ∈ t.frees) :
    ∃ n m : Scene b α, s₀.Run w before n ∧ n.Step w (.turn i t) m ∧ m.Run w after s ∧
      on ∈ n.pool.lent ∧ (on ∉ s₀.pool.lent → on ∉ m.pool.lent) ∧
      (on ∈ m.pool.idle ∧ b.stance m.state on = .idle ∧ .discard on ∉ t.effects ∨
        n.Closes on m ∧ ∀ l ∈ after, ¬l.Acquires on) := by
  rw [List.append_cons] at hls
  subst hls
  obtain ⟨m, hm, hafter⟩ := hrun.split
  obtain ⟨n, hn, hstep⟩ := hm.last
  have hlent := (hn.lent hb h).mem (hstep.freed hon).1
  refine ⟨n, m, hn, hstep, hafter, hlent, ?_⟩
  rcases (h.sound.run hb hn).frees hb hstep hon with hrest | ⟨hcloses, hgone⟩
  · have hheld (j : Nat) : ¬m.Holds j on := fun hj =>
      (h.sound.run hb hm).held_apart hj hrest.1
    exact ⟨(hm.lent hb h).not_mem hheld, .inl hrest⟩
  · exact ⟨(hm.lent hb h).not_mem hgone.held, .inr ⟨hcloses, (hgone.run hafter).1⟩⟩

/-- A write that is over has done all that its value says or nothing at all. -/
theorem write_atomic (hb : b.Lawful) (h : s₀.Initial w) (hrun : s₀.Run w ls s)
    (hr : (s.calls i).phase = .finished r) (hothers : ∀ j, j ≠ i → j ∉ commitOrder ls) :
    Atomic w s₀ ls s i r := by
  have hordered := hrun.ordered hb h
  obtain ⟨trial, htrial⟩ := hrun.trials i
  have hcourse := hrun.course h htrial
  have hended := hcourse.ended hr
  have hcounted := hrun.counted h htrial
  have hpending : ¬s.Pending i := by
    rw [Pending, hr]
    exact id
  have hinvoked := hcounted.passed hpending
  obtain ⟨n, hn, hmade⟩ := ended_made hended
  refine ⟨fun v hv => ?_, fun e he => ?_, ⟨trial, htrial, hended, hinvoked⟩, ?_, fun k hk => ?_,
    fun before t after hls ht => hrun.stops hb h hls ht, ?_,
    fun before t after on hls hon => hrun.rests hb h hls hon⟩
  · subst hv
    have horder : commitOrder ls = [i] := by
      rcases hordered.alone hothers with ⟨-, hno⟩ | horder
      · exact absurd hr (hno v)
      · exact horder
    have hserial := hordered.serial
    rw [horder] at hserial
    obtain ⟨p, hop, hfollows⟩ : s.Worked w i v := by
      have hi := (h.sound.run hb hrun).engaged i
      rw [Engaged, hr] at hi
      exact hi
    exact ⟨_, p, hcounted.last (by rw [Alive, hr]; trivial), hop, hfollows, hserial.single⟩
  · subst he
    have hserial := hordered.serial
    rcases hordered.alone hothers with ⟨horder, -⟩ | horder
    · rw [horder] at hserial
      exact hserial.nil
    · obtain ⟨v, hv⟩ := (hordered.mem_iff i).mp (by rw [horder]; exact List.mem_singleton_self i)
      rw [hr] at hv
      cases hv
  · rw [hinvoked, hmade]
    exact (List.pairwise_lt_range' ..).filter _
  · rw [hinvoked, hmade] at hk
    have hk' := (List.mem_filter.mp hk).1
    rw [List.mem_range'_1] at hk'
    omega
  · rw [hcourse.connections, Call.connection?, hr]
    simp

/-- A commit and its rollback fail, so the connection is discarded; the second attempt commits. -/
theorem write_atomic_insertion :
    ∃ (ls : List (Label Nat)) (s : Scene Ledger.backend Nat),
      empty.Run insertions ls s ∧ (s.calls 0).phase = .finished (.ok 1) ∧
        invocations 0 ls = [1, 2] ∧ s.state.rows = ["0"] ∧
        Atomic insertions empty ls s 0 (.ok 1) := by
  have r := Run.start (w := insertions) (s := empty)
  have r := r.step (.turn true (.checked (i := 0) (a := .proceed) rfl (.inl rfl)))
  have r := r.step (.queue (i := 0) rfl)
  have r := r.step (.place (i := 0) rfl)
  have r := r.step (.turn true (.opened (i := 0) rfl (by decide)))
  have r := r.step (.turn true (.begins (i := 0) (r := .ok ()) rfl (.inl ⟨rfl, rfl, rfl⟩)))
  have r := r.step (.invoke (i := 0) rfl rfl rfl)
  have r := r.step (.ask (i := 0) (r := .ok 1) rfl rfl (.inl ⟨_, rfl, rfl, rfl⟩))
  have r := r.step (.turn true (.worked (i := 0) rfl rfl))
  have r := r.step (.turn true (.commit (i := 0) (r := .error .locked) rfl (.inr ⟨rfl, rfl⟩)))
  have r := r.step (.turn true (.rollback (i := 0) (r := .error .locked) rfl (.inr ⟨rfl, rfl⟩)))
  have r := r.step (.turn true (.woken (i := 0) (a := .proceed) rfl (.inl rfl)))
  have r := r.step (.turn true (.checked (i := 0) (a := .proceed) rfl (.inl rfl)))
  have r := r.step (.queue (i := 0) rfl)
  have r := r.step (.place (i := 0) rfl)
  have r := r.step (.turn true (.opened (i := 0) rfl (by decide)))
  have r := r.step (.turn true (.begins (i := 0) (r := .ok ()) rfl (.inl ⟨rfl, rfl, rfl⟩)))
  have r := r.step (.invoke (i := 0) rfl rfl rfl)
  have r := r.step (.ask (i := 0) (r := .ok 1) rfl rfl (.inl ⟨_, rfl, rfl, rfl⟩))
  have r := r.step (.turn true (.worked (i := 0) rfl rfl))
  have r := r.step (.turn true (.commit (i := 0) (r := .ok ()) rfl (.inl ⟨_, rfl, rfl, rfl⟩)))
  refine ⟨_, _, r, rfl, rfl, rfl,
    write_atomic Ledger.lawful empty_initial r rfl fun j hj hmem => ?_⟩
  exact hj (List.mem_singleton.mp hmem)

end Atomic

end SingleWriter.Write.Scene
