import SingleWriter.Proofs.Atomicity
import SingleWriter.Proofs.Exclusion
import SingleWriter.Proofs.Retries
import SingleWriter.Proofs.Storage
import SingleWriter.Proofs.Traffic

/-! A write on a coordinator that nobody else uses.  It leaves the lock free and no connection lent,
and commits what its value says or nothing.  On a pool that is closed for good it does nothing to
the engine, and when it is told that the handle is closed it is over at once. -/

namespace SingleWriter.Write

/-! ### One call -/

section

variable {α : Type}

theorem Course.untouched {p : RetryPolicy} {name : String} {moment : Nat → Moment}
    {trial : Nat → Trial α} {c : Call α} (h : Course p name moment trial c []) :
    c = { operation := name } := by
  generalize hts : ([] : List (Turn α)) = ts at h
  cases h with
  | start => rfl
  | turn => simp at hts

/-- A call waits for the lock only if the writes take turns. -/
theorem Advance.lines {p : RetryPolicy} {m : Moment} {t : Trial α} {c : Call α} {a : Answer α}
    {next : Call α × List Effect} (h : Advance p m t c a next) (hn : next.1.phase = .locking) :
    p.strategy = .mutex := by
  have hconclude {first : List Effect} {o : Except WriteError α}
      (h : (Call.conclude p first (c.settle p m o)).1.phase = .locking) : False := by
    cases o with
    | ok v => cases h
    | error e =>
      simp only [Call.conclude, Call.settle, Call.fail] at h
      split at h
      · cases h
      · split at h <;> cases h
  cases h with
  | line _ hs => exact hs
  | refuse | halt | keep | restore | abandon => exact (hconclude hn).elim
  | enter | stop | acquire | start | work | undo | revert | again | wake => cases hn

end

namespace Scene

variable {K Q R α : Type} {b : Backend K Q R} {w : Workload Q R α} {s s' s₀ u : Scene b α}
  {ls : List (Label α)} {l : Label α} {a : Answer α} {i : Nat}

/-- All turns are those of call 0. -/
def Solo (ls : List (Label α)) : Prop := ∀ j, j ≠ 0 → turnsOf j ls = []

theorem Solo.of_concat (h : Solo (ls ++ [l])) :
    Solo ls ∧ ∀ j, j ≠ 0 → l.turnOf? j = none := by
  have hboth (j : Nat) (hj : j ≠ 0) : turnsOf j ls = [] ∧ l.turnOf? j = none := by
    have hnil := h j hj
    rw [turnsOf_concat, List.append_eq_nil_iff] at hnil
    exact ⟨hnil.1, by simpa using hnil.2⟩
  exact ⟨fun j hj => (hboth j hj).1, fun j hj => (hboth j hj).2⟩

/-- A call that has had no turn is as it was. -/
theorem Run.untouched (h : s₀.Initial w) (hrun : s₀.Run w ls s) (hi : turnsOf i ls = []) :
    s.calls i = { operation := w.name i } := by
  obtain ⟨trial, htrial⟩ := hrun.trials i
  have hcourse := hrun.course h htrial
  rw [hi] at hcourse
  exact Course.untouched hcourse

theorem Run.alone (h : s₀.Initial w) (hrun : s₀.Run w ls s) (hsolo : Solo ls) {j : Nat}
    (hj : j ≠ 0) (r : Except WriteError α) : (s.calls j).phase ≠ .finished r := by
  rw [hrun.untouched h (hsolo j hj)]
  simp

/-! ### What a lone write commits -/

/-- A write that has come to a value has committed what the last run of its operation has done. -/
theorem Run.commits_value (hb : b.Lawful) (h : s₀.Initial w) (hrun : s₀.Run w ls s)
    (hsolo : Solo ls) {v : α} (hv : (s.calls 0).phase = .finished (.ok v)) :
    s.Worked w 0 v ∧ Replays b.effect (b.committed s₀.state) (s.work 0) (b.committed s.state) := by
  have hordered := hrun.ordered hb h
  have hothers (j : Nat) (hj : j ≠ 0) : j ∉ commitOrder ls := by
    intro hmem
    obtain ⟨v', hv'⟩ := (hordered.mem_iff j).mp hmem
    exact hrun.alone h hsolo hj _ hv'
  have horder : commitOrder ls = [0] := by
    rcases hordered.alone hothers with ⟨-, hno⟩ | horder
    · exact absurd hv (hno v)
    · exact horder
  have hworked : s.Worked w 0 v := by
    have hi := (h.sound.run hb hrun).engaged 0
    rw [Engaged, hv] at hi
    exact hi
  have hserial := hordered.serial
  rw [horder] at hserial
  exact ⟨hworked, hserial.single⟩

/-- A write that has come to an error has committed nothing. -/
theorem Run.commits_nothing (hb : b.Lawful) (h : s₀.Initial w) (hrun : s₀.Run w ls s)
    (hsolo : Solo ls) {x : WriteError} (hx : (s.calls 0).phase = .finished (.error x)) :
    b.committed s.state = b.committed s₀.state := by
  have hordered := hrun.ordered hb h
  have hnone : commitOrder ls = [] := by
    rw [List.eq_nil_iff_forall_not_mem]
    intro j hj
    obtain ⟨v, hv⟩ := (hordered.mem_iff j).mp hj
    by_cases h0 : j = 0
    · rw [h0, hx] at hv
      cases hv
    · exact hrun.alone h hsolo h0 _ hv
  have hserial := hordered.serial
  rw [hnone] at hserial
  exact hserial.nil

/-! ### Connections -/

/-- A lone write that is over leaves the pool without a connection that is lent, and its connections
at rest. -/
theorem Run.rests_pool (hb : b.Lawful) (h : s₀.Initial w) (hrun : s₀.Run w ls s)
    (hsolo : Solo ls) (hlent : s₀.pool.lent = []) {r : Except WriteError α}
    (hr : (s.calls 0).phase = .finished r) : s.pool.lent = [] ∧ s.Housed := by
  have hfree (on : ConnectionId) (j : Nat) : ¬s.Holds j on := by
    by_cases hj : j = 0
    · simp [hj, Holds, Call.connection?, hr]
    · simp [Holds, Call.connection?, hrun.untouched h (hsolo j hj)]
  refine ⟨List.eq_nil_iff_forall_not_mem.mpr fun on => ?_, (h.sound.run hb hrun).toHoused⟩
  exact (hrun.lent hb h).not_mem (hfree on) (by simp [hlent])

/-! ### Closed pools -/

/-- Nothing happens on a pool that is closed for good. -/
structure Idle (s₀ s : Scene b α) : Prop where
  ended : s.pool.Over
  lent : s.pool.lent = (s.calls 0).connection?.toList
  state : s.state = s₀.state
  next : s.next = s₀.next

theorem Idle.connection (h : s₀.Idle s) : (s.calls 0).connection? = none := by
  have hlent := h.lent
  rw [h.ended.lent] at hlent
  simpa using hlent.symm

theorem Idle.unserved (h : s₀.Idle s) {g : Pool.Grant} {p : Pool}
    (hserve : s.pool.serve? i = some (g, p)) : False := by
  have hclosed := Pool.open_of_serve? hserve
  rw [h.ended.closed] at hclosed
  cases hclosed

theorem Idle.answered (h : s₀.Idle s) (hserves : s.Serves 0 a u) (keep : Bool) :
    s₀.Idle (u.answered w 0 keep a) := by
  have hnone := h.connection
  have hheld {on : ConnectionId} (hon : s.Holds 0 on) : False := by
    rw [Holds, hnone] at hon
    cases hon
  obtain ⟨hu, hstate, hnext, hgot⟩ : u.pool.Over ∧ u.state = s.state ∧ u.next = s.next ∧
      Turn.acquired? (s.turn w 0 a) = none := by
    cases hserves with
    | checked _ ha | woken _ ha => exact ⟨h.ended, rfl, rfl, by rcases ha with rfl | rfl <;> rfl⟩
    | entered | left => exact ⟨h.ended, rfl, rfl, rfl⟩
    | refused => exact ⟨Pool.Step.over (.withdraw 0) h.ended, rfl, rfl, rfl⟩
    | lent _ hserve => exact (h.unserved hserve).elim
    | opened _ hmem =>
      rw [h.ended.opening] at hmem
      cases hmem
    | begins hp | worked hp | commit hp | rollback hp => exact (hheld (holds_of_phase hp rfl)).elim
  obtain ⟨t, ht⟩ := hserves.gives
  have hadvance := ht.advance (p := w.policy) (m := w.moment 0 (s.calls 0).attempt)
  obtain ⟨hfreed, hgives⟩ : (s.resumed w 0 a).2.filterMap Effect.frees? = [] ∧
      (s.resumed w 0 a).1.connection?.toList = [] := by
    have hconnections : (s.calls 0).connection?.toList ++ (s.turn w 0 a).acquired?.toList =
        (s.resumed w 0 a).2.filterMap Effect.frees? ++
          (s.resumed w 0 a).1.connection?.toList := hadvance.connections
    rw [hnone, hgot] at hconnections
    exact List.append_eq_nil_iff.mp hconnections.symm
  have hsame : u.calls = s.calls := by cases hserves <;> rfl
  have hresumed : u.resumed w 0 a = s.resumed w 0 a := by rw [resumed, hsame, ← resumed]
  have hcalls := (hserves.answered (w := w) keep).1
  rw [Scene.answered, hresumed] at hcalls ⊢
  obtain ⟨hstate', hpool'⟩ := foldl_fulfil_quiet keep (List.filterMap_eq_nil_iff.mp hfreed)
    { u with
      calls := Function.update u.calls 0 (s.resumed w 0 a).1
      left := Function.update u.left 0 none }
  refine ⟨by rw [hpool']; exact hu, ?_, hstate'.trans (hstate.trans h.state), ?_⟩
  · rw [hpool', hcalls, Function.update_self, hgives]
    exact hu.lent
  · rw [(foldl_fulfil keep _ _).2.2.2]
    exact hnext.trans h.next

theorem Run.idle (hrun : s₀.Run w ls s) (hsolo : Solo ls) (h : s₀.Initial w)
    (hover : s₀.pool.Over) : s₀.Idle s := by
  induction hrun with
  | start => exact ⟨hover, by rw [hover.lent, h.calls 0]; rfl, rfl, rfl⟩
  | @step ls l m s' hrun hstep ih =>
    obtain ⟨hsolo', hl⟩ := hsolo.of_concat
    have ih := ih hsolo'
    have hworks {j : Nat} {on : ConnectionId} (hp : (m.calls j).phase = .operating on) : False := by
      by_cases hj : j = 0
      · have hnone := ih.connection
        rw [hj] at hp
        rw [Call.connection?, hp] at hnone
        cases hnone
      · rw [hrun.untouched h (hsolo' j hj)] at hp
        cases hp
    cases hstep with
    | @turn i a t keep hserves =>
      by_cases hi : i = 0
      · subst hi
        exact ih.answered hserves keep
      · simpa [Label.turnOf?] using hl i hi
    | invoke hp => exact (hworks hp).elim
    | ask hp => exact (hworks hp).elim
    | lineUp => exact ⟨ih.ended, ih.lent, ih.state, ih.next⟩
    | queue => exact ⟨Pool.Step.over (.queue _) ih.ended, ih.lent, ih.state, ih.next⟩
    | place hserve | renew hserve => exact (ih.unserved hserve).elim
    | refill hmore => simp [Pool.wantsMore, ih.ended.closed] at hmore

/-! ### Closed handles -/

/-- Each attempt of a write on a closed handle is refused. -/
theorem closed_trials {trial : Nat → Trial α} (htrial : Agrees trial (turnsOf 0 ls))
    (hclosed : ∀ t ∈ turnsOf 0 ls, t.phase = .acquiring → t.answer = .refused .closed) {k : Nat}
    (hk : k ∈ attempts (turnsOf 0 ls)) : (trial k).connection = .error .closed := by
  obtain ⟨t, ht, hmade⟩ := List.mem_filterMap.mp hk
  obtain ⟨hphase, rfl⟩ : t.phase = .acquiring ∧ t.attempt = k := by
    unfold Turn.made? at hmade
    split at hmade
    · rename_i hphase
      exact ⟨hphase, Option.some.inj hmade⟩
    · cases hmade
  have hgives := htrial t ht
  rw [hphase, Trial.Gives, hclosed t ht hphase] at hgives
  cases hc : (trial t.attempt).connection with
  | ok on =>
    rw [hc] at hgives
    cases hgives
  | error e =>
    rw [hc] at hgives
    cases hgives
    rfl

/-- A write on a closed handle does not come to a value. -/
theorem Run.no_value (h : s₀.Initial w) (hrun : s₀.Run w ls s) {v : α}
    (hclosed : ∀ t ∈ turnsOf 0 ls, t.phase = .acquiring → t.answer = .refused .closed) :
    (s.calls 0).phase ≠ .finished (.ok v) := by
  intro hv
  obtain ⟨trial, htrial⟩ := hrun.trials 0
  have hended := (hrun.course h htrial).ended hv
  have hrefused {k : Nat} := closed_trials (k := k) htrial hclosed
  generalize attempts (turnsOf 0 ls) = made at *
  generalize events (turnsOf 0 ls) = told at *
  cases hended with
  | @value k v _ hrepeats hv =>
    rw [Trial.outcome_of_refused (hrefused (k := k + 1) (by rw [List.mem_range'_1]; omega))] at hv
    cases hv

/-- A write that is told in each attempt that the handle is closed, and that is not cancelled, makes
one attempt and passes the error on. -/
theorem Run.turnedAway (h : s₀.Initial w) (hrun : s₀.Run w ls s) {r : Except WriteError α}
    (hr : (s.calls 0).phase = .finished r)
    (hclosed : ∀ t ∈ turnsOf 0 ls, t.phase = .acquiring → t.answer = .refused .closed)
    (hgoes : ∀ t ∈ turnsOf 0 ls, t.answer ≠ .cancelled) :
    r = .error (.connection .closed) ∧ attempts (turnsOf 0 ls) = [1] ∧
      events (turnsOf 0 ls) = [] ∧ invocations 0 ls = [] := by
  obtain ⟨trial, htrial⟩ := hrun.trials 0
  have hcourse := hrun.course h htrial
  have hended := hcourse.ended hr
  have hinvoked := (hrun.counted h htrial).passed (by rw [Pending, hr]; exact id)
  have hrefused {k : Nat} := closed_trials (k := k) htrial hclosed
  have houtcome {k : Nat} (hk : k ∈ attempts (turnsOf 0 ls)) :
      (trial k).outcome = .error (.connection .closed) := Trial.outcome_of_refused (hrefused hk)
  have hfinal {k : Nat} (hk : k ∈ attempts (turnsOf 0 ls)) : ¬(trial k).Passes := by
    rintro ⟨e, he, htransient⟩
    rw [houtcome hk] at he
    cases he
    cases htransient
  have hmade : attempts (turnsOf 0 ls) = [1] → invocations 0 ls = [] := by
    intro hone
    have hno := Trial.invokes_of_refused (hrefused (k := 1) (by rw [hone]; simp))
    rw [hinvoked, hone, invoking]
    simp [hno]
  have hlog : ∀ name k, .cancelled name k ∉ events (turnsOf 0 ls) := by
    intro name k hmem
    obtain ⟨t, ht, hcancelled⟩ := hcourse.answer_of_cancelled hmem
    exact hgoes t ht hcancelled
  generalize attempts (turnsOf 0 ls) = made at *
  generalize events (turnsOf 0 ls) = told at *
  have hfirst {k : Nat} (hrepeats : Repeats trial k) (hk : made = List.range' 1 (k + 1)) :
      k = 0 := by
    by_contra hne
    exact hfinal (k := 1) (by rw [hk, List.mem_range'_1]; omega)
      (hrepeats 1 (Nat.le_refl 1) (by omega))
  cases hended with
  | @value k v _ hrepeats hv =>
    rw [houtcome (k := k + 1) (by rw [List.mem_range'_1]; omega)] at hv
    cases hv
  | @fatal k e _ hrepeats he =>
    obtain rfl := hfirst hrepeats rfl
    rw [houtcome (k := 0 + 1) (by simp)] at he
    cases he
    exact ⟨rfl, rfl, rfl, hmade rfl⟩
  | @exhausted k e _ hrepeats =>
    exact (hfinal (k := 1) (by rw [List.mem_range'_1]; omega)
      (hrepeats 1 (Nat.le_refl 1) (by omega))).elim
  | @cancelled k => exact absurd (by simp) (hlog (w.name 0) k)

/-! ### The lock -/

/-- Nobody but call 0 waits for the lock, and nobody at all if the engine queues the writes. -/
structure Unshared (w : Workload Q R α) (s : Scene b α) : Prop where
  mutex : (s.calls 0).phase = .locking → w.policy.strategy = .mutex
  native : w.policy.strategy = .nativeQueuing → s.lock.holder = none
  line : s.lock.line = [] ∨ s.lock.line = [0] ∧ (s.calls 0).phase = .locking

theorem foldl_fulfil_line (keep : Bool) (es : List Effect) (s : Scene b α) :
    (es.foldl (fulfil keep) s).lock.line = s.lock.line := by
  induction es generalizing s with
  | nil => rfl
  | cons x es ih =>
    rw [List.foldl_cons, ih]
    cases x with
    | release c => cases keep <;> rfl
    | discard c | unlock | emit e => rfl

theorem Unshared.served (h : s.Unshared w) (hserves : s.Serves 0 a u) : u.lock.line = [] := by
  have hline (hp : (s.calls 0).phase ≠ .locking) : s.lock.line = [] :=
    h.line.resolve_right fun hl => hp hl.2
  cases hserves with
  | entered _ htake =>
    obtain ⟨-, -, htaken⟩ := Lock.take?_eq_some htake
    rcases h.line with hl | ⟨hl, -⟩
    · rw [hl] at htaken
      cases htaken
    · rw [hl] at htaken
      exact (List.cons.inj htaken).2.symm
  | left =>
    rcases h.line with hl | ⟨hl, -⟩ <;> simp [Lock.leave, hl]
  | checked hp | lent hp | opened hp | refused hp | begins hp | worked hp | commit hp | rollback hp
  | woken hp => exact hline (by simp [hp])

theorem Unshared.answered (h : s.Unshared w) (hserves : s.Serves 0 a u) (keep : Bool) :
    (u.answered w 0 keep a).Unshared w := by
  obtain ⟨t, ht⟩ := hserves.gives
  have hadvance := ht.advance (p := w.policy) (m := w.moment 0 (s.calls 0).attempt)
  obtain ⟨hcalls, hholder⟩ := hserves.answered (w := w) keep
  refine ⟨fun hp => ?_, fun hnative => ?_, .inl ?_⟩
  · rw [hcalls, Function.update_self] at hp
    exact hadvance.lines hp
  · rw [hholder]
    split
    · rfl
    · rcases hserves.holder with ⟨hsame, -⟩ | ⟨⟨hwaits, -⟩, -⟩
      · rw [hsame, h.native hnative]
      · rw [h.mutex hwaits] at hnative
        cases hnative
  · rw [Scene.answered, foldl_fulfil_line]
    exact h.served (u := u) hserves

theorem Run.unshared (h : s₀.Initial w) (hlock : s₀.lock = {}) (hrun : s₀.Run w ls s)
    (hsolo : Solo ls) : s.Unshared w := by
  induction hrun with
  | start =>
    refine ⟨fun hp => ?_, fun _ => by rw [hlock], .inl (by rw [hlock])⟩
    rw [h.calls 0] at hp
    cases hp
  | @step ls l m s' hrun hstep ih =>
    obtain ⟨hsolo', hl⟩ := hsolo.of_concat
    have ih := ih hsolo'
    cases hstep with
    | @turn i a t keep hserves =>
      by_cases hi : i = 0
      · subst hi
        exact ih.answered hserves keep
      · simpa [Label.turnOf?] using hl i hi
    | @lineUp i hp =>
      obtain rfl : i = 0 := by
        by_contra hi
        rw [hrun.untouched h (hsolo' i hi)] at hp
        cases hp
      refine ⟨ih.mutex, fun hnative => ?_, .inr ⟨?_, hp⟩⟩
      · rw [Lock.holder_enqueue, ih.native hnative]
      · rcases ih.line with hline | ⟨hline, -⟩ <;> simp [Lock.enqueue, hline]
    | invoke | ask | queue | place | renew | refill => exact ⟨ih.mutex, ih.native, ih.line⟩

theorem Run.guarded (hp : w.policy.strategy = .mutex) (h : s₀.Guarded) (hrun : s₀.Run w ls s) :
    s.Guarded := by
  induction hrun with
  | start => exact h
  | step _ hstep ih => exact ih.step hp hstep

/-- Outside its attempts a lone write leaves the lock to whoever wants it. -/
theorem Run.unheld (h : s₀.Initial w) (hlock : s₀.lock = {}) (hrun : s₀.Run w ls s)
    (hsolo : Solo ls) (hout : (s.calls 0).attempting = false) : s.lock.holder = none := by
  cases hs : w.policy.strategy with
  | nativeQueuing => exact (hrun.unshared h hlock hsolo).native hs
  | mutex =>
    have hfirst : s₀.Guarded := by
      intro i
      rw [hlock, h.calls i]
      simp [Call.attempting, Call.connection?]
    rw [Option.eq_none_iff_forall_not_mem]
    intro i hi
    have hin := (hrun.guarded hs hfirst i).mp hi
    by_cases h0 : i = 0
    · rw [h0, hout] at hin
      cases hin
    · rw [hrun.untouched h (hsolo i h0)] at hin
      cases hin

/-- A lone write that waits for the lock is next. -/
theorem Run.next_in_line (h : s₀.Initial w) (hlock : s₀.lock = {}) (hrun : s₀.Run w ls s)
    (hsolo : Solo ls) (hp : (s.calls 0).phase = .locking) : s.lock.enqueue 0 = ⟨none, [0]⟩ := by
  have hline := (hrun.unshared h hlock hsolo).line
  have hholder := hrun.unheld h hlock hsolo (by simp [Call.attempting, Call.connection?, hp])
  rcases hline with hline | ⟨hline, -⟩
  · simp [Lock.enqueue, hline, hholder]
  · generalize s.lock = l at hline hholder
    cases l
    cases hline
    cases hholder
    rfl

/-- A lone write that is over leaves the lock free. -/
theorem Run.unlocks (h : s₀.Initial w) (hlock : s₀.lock = {}) (hrun : s₀.Run w ls s)
    (hsolo : Solo ls) {r : Except WriteError α} (hr : (s.calls 0).phase = .finished r) :
    s.lock = {} := by
  have hline : s.lock.line = [] :=
    (hrun.unshared h hlock hsolo).line.resolve_right fun hl => by simp [hr] at hl
  have hholder := hrun.unheld h hlock hsolo (by simp [Call.attempting, Call.connection?, hr])
  generalize s.lock = l at hline hholder
  cases l
  cases hline
  cases hholder
  rfl

/-! ### A write that is turned away -/

/-- What a write may be told when the handle is closed and nobody cancels it. -/
def Away : Label α → Prop
  | .turn i t => i = 0 ∧ t.answer ≠ .cancelled ∧
      (t.phase = .acquiring → t.answer = .refused .closed)
  | _ => True

theorem turns_of_away (h : ∀ l ∈ ls, Away l) : Solo ls ∧
    (∀ t ∈ turnsOf 0 ls, t.phase = .acquiring → t.answer = .refused .closed) ∧
      ∀ t ∈ turnsOf 0 ls, t.answer ≠ .cancelled := by
  have haway {i : Nat} {l : Label α} {t : Turn α} (hl : l ∈ ls) (ht : l.turnOf? i = some t) :
      i = 0 ∧ t.answer ≠ .cancelled ∧ (t.phase = .acquiring → t.answer = .refused .closed) := by
    have hsays := h l hl
    unfold Label.turnOf? at ht
    split at ht
    · split at ht
      · rename_i hi
        cases ht
        exact hi ▸ hsays
      · cases ht
    · cases ht
  refine ⟨fun j hj => ?_, fun t ht => ?_, fun t ht => ?_⟩
  · rw [List.eq_nil_iff_forall_not_mem]
    intro t ht
    obtain ⟨l, hl, ht⟩ := List.mem_filterMap.mp ht
    exact hj (haway hl ht).1
  · obtain ⟨l, hl, ht⟩ := List.mem_filterMap.mp ht
    exact (haway hl ht).2.2
  · obtain ⟨l, hl, ht⟩ := List.mem_filterMap.mp ht
    exact (haway hl ht).2.1

/-- An answer that has nothing done takes the call to its next phase and does nothing else. -/
theorem answered_of_bare {c : Call α} (hr : s.resumed w i a = (c, [])) (keep : Bool) :
    s.answered w i keep a =
      { s with
        calls := Function.update s.calls i c
        left := Function.update s.left i none } := by
  rw [Scene.answered, hr]
  rfl

theorem Run.refused (hrun : s₀.Run w ls s) (hls : ∀ l ∈ ls, Away l)
    (hp : (s.calls 0).phase = .acquiring) :
    ∃ ls' s', s₀.Run w ls' s' ∧ (∀ l ∈ ls', Away l) ∧
      (s'.calls 0).phase = .finished (.error (.connection .closed)) := by
  have hserves := Serves.refused (e := .closed) hp
  refine ⟨_, _, hrun.step (.turn true hserves), ?_, ?_⟩
  · rw [List.forall_mem_append]
    exact ⟨hls, by simp [Away, turn, hp]⟩
  · rw [(hserves.answered (w := w) true).1, Function.update_self]
    simp only [resumed, Call.resume, hp, Call.conclude,
      Call.fail_fatal (e := .connection .closed) rfl]

theorem Run.locked (hrun : s₀.Run w ls s) (hls : ∀ l ∈ ls, Away l)
    (hp : (s.calls 0).phase = .locking) (hlock : s.lock = {}) :
    ∃ ls' s', s₀.Run w ls' s' ∧ (∀ l ∈ ls', Away l) ∧ (s'.calls 0).phase = .acquiring := by
  have hresumed : s.resumed w 0 .proceed = ({ s.calls 0 with phase := .acquiring }, []) := by
    simp only [resumed, Call.resume, hp]
  have htakes : (s.lock.enqueue 0).take? 0 = some ⟨some 0, []⟩ := by rw [hlock]; rfl
  have hserves : Serves { s with lock := s.lock.enqueue 0 } 0 .proceed
    { s with lock := ⟨some 0, []⟩ } := .entered hp htakes
  refine ⟨_, _, (hrun.step (.lineUp hp)).step (.turn true hserves), ?_, ?_⟩
  · rw [List.forall_mem_append, List.forall_mem_append]
    exact ⟨⟨hls, by simp [Away]⟩, by simp [Away, turn, hp]⟩
  · rw [(hserves.answered (w := w) true).1, Function.update_self]
    exact congrArg (·.1.phase) hresumed

/-- On a handle that is closed a write comes to its end. -/
theorem Initial.turnedAway (h : s₀.Initial w) (hlock : s₀.lock = {}) :
    ∃ ls s, s₀.Run w ls s ∧ (∀ l ∈ ls, Away l) ∧
      (s.calls 0).phase = .finished (.error (.connection .closed)) := by
  have hchecking : (s₀.calls 0).phase = .checking := by rw [h.calls 0]
  have hchecked : s₀.Serves 0 .proceed s₀ := .checked hchecking (.inl rfl)
  have hrun := Run.start.step (.turn (w := w) true hchecked)
  have haway : ∀ l ∈ [] ++ [Label.turn 0 (s₀.turn w 0 .proceed)], Away l := by
    simp [Away, turn, hchecking]
  cases hs : w.policy.strategy with
  | nativeQueuing =>
    have hresumed : s₀.resumed w 0 .proceed =
        ({ s₀.calls 0 with phase := .acquiring }, []) := by
      simp only [resumed, Call.resume, hchecking, hs]
    rw [answered_of_bare hresumed] at hrun
    exact hrun.refused haway (by simp)
  | mutex =>
    have hresumed : s₀.resumed w 0 .proceed =
        ({ s₀.calls 0 with phase := .locking }, []) := by
      simp only [resumed, Call.resume, hchecking, hs]
    rw [answered_of_bare hresumed] at hrun
    obtain ⟨ls, s, hrun, haway, hacquiring⟩ := hrun.locked haway (by simp) hlock
    exact hrun.refused haway hacquiring

end Scene

end SingleWriter.Write
