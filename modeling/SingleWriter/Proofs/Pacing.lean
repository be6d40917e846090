import Mathlib.Algebra.BigOperators.Intervals
import SingleWriter.Proofs.Backoff
import SingleWriter.Proofs.Jitter
import SingleWriter.Proofs.Retries

/-! How a write spends its time.  Attempts and waits alternate: a wait follows each attempt that
fails in a way that may pass, and none follows the last.  What a wait takes is what its event told,
so the policy bounds the time of the whole write from below and the time asked for from above. -/

namespace SingleWriter

/-- The wait that an event tells of. -/
def Event.delay? : Event → Option Duration
  | .retrying _ _ _ delay _ => some delay
  | _ => none

theorem Duration.ofNanos_mono {m n : Nat} (h : m ≤ n) : ofNanos m ≤ ofNanos n := by
  rw [le_def, nanos_ofNanos, nanos_ofNanos]
  exact min_le_min_right _ h

/-- What the roundings may add to a quarter of a wait. -/
def Duration.slack (d : Duration) : ℚ := d.nanos / 4 / 2 ^ 50 + 1

theorem Duration.slack_nonneg (d : Duration) : 0 ≤ d.slack := by
  simp only [slack]
  positivity

theorem Duration.slack_mono {d e : Duration} (h : d ≤ e) : d.slack ≤ e.slack := by
  have hcast : (d.nanos : ℚ) ≤ e.nanos := Nat.cast_le.mpr h
  simp only [slack]
  linarith

namespace RetryPolicy

variable (p : RetryPolicy) (a : ℕ) (j : Signed64)

theorem baseDelay_le_backoffDelay : p.baseDelay ≤ p.backoffDelay a j := by
  have hbase := p.baseDelay_le_baseBackoff a
  have hdelay := p.baseBackoff_le_backoffDelay a j
  rw [Duration.le_def] at hbase hdelay ⊢
  exact le_trans hbase hdelay

theorem backoffDelay_le_slack : ((p.backoffDelay a j).nanos : ℚ) ≤
    5 / 4 * (p.baseBackoff a).nanos + (p.baseBackoff a).slack := by
  have hle := le_trans (p.backoffDelay_le a j) (min_le_left _ _)
  simp only [Duration.slack]
  linarith

theorem backoffDelay_le_longest : ((p.backoffDelay a j).nanos : ℚ) ≤
    5 / 4 * (max p.baseDelay p.maxDelay).nanos + (max p.baseDelay p.maxDelay).slack := by
  have hbase : ((p.baseBackoff a).nanos : ℚ) ≤ (max p.baseDelay p.maxDelay).nanos :=
    Nat.cast_le.mpr (p.baseBackoff_le a)
  have hslack := Duration.slack_mono (p.baseBackoff_le a)
  have hle := p.backoffDelay_le_slack a j
  linarith

end RetryPolicy

namespace Write

/-- What takes a write its time. -/
inductive Spell where
  | attempt (number : Nat)
  | wait (delay : Duration)
deriving DecidableEq

def Spell.number? : Spell → Option Nat
  | .attempt number => some number
  | .wait _ => none

def Spell.delay? : Spell → Option Duration
  | .wait delay => some delay
  | .attempt _ => none

section

variable {α : Type}

/-- The attempt that a turn begins, or the wait that it ends. -/
def Turn.spell? (t : Turn α) : Option Spell :=
  match t.phase with
  | .acquiring => some (.attempt t.attempt)
  | .backingOff d => some (.wait d)
  | _ => none

def spells (ts : List (Turn α)) : List Spell := ts.filterMap Turn.spell?

def waits (ts : List (Turn α)) : List Duration := (spells ts).filterMap Spell.delay?

theorem spells_concat (ts : List (Turn α)) (t : Turn α) :
    spells (ts ++ [t]) = spells ts ++ t.spell?.toList := by
  cases ht : t.spell? <;> simp [spells, ht]

theorem waits_concat (ts : List (Turn α)) (t : Turn α) :
    waits (ts ++ [t]) = waits ts ++ (t.spell?.bind Spell.delay?).toList := by
  rw [waits, spells_concat, List.filterMap_append, ← waits]
  cases t.spell? with
  | none => rfl
  | some s => cases hs : s.delay? <;> simp [hs]

theorem attempts_eq_numbers (ts : List (Turn α)) :
    attempts ts = (spells ts).filterMap Spell.number? := by
  rw [spells, List.filterMap_filterMap, attempts]
  congr 1
  funext t
  simp only [Turn.made?, Turn.spell?]
  cases t.phase <;> rfl

/-- The time that a phase takes at least. -/
def Phase.pause : Phase α → Nat
  | .backingOff d => d.nanos
  | _ => 0

/-- Whether the current attempt has begun. -/
def Phase.begun : Phase α → Bool
  | .checking => false
  | .locking => false
  | .acquiring => false
  | _ => true

end

/-! ### Attempts and waits -/

section

variable {α : Type} (p : RetryPolicy) (moment : Nat → Moment)

/-- The first `k` attempts, each with the wait after it. -/
def rounds (k : Nat) : List Spell :=
  (List.range' 1 k).flatMap fun i => [.attempt i, .wait (p.backoffDelay i (moment i).jitter)]

theorem rounds_succ (k : Nat) :
    rounds p moment (k + 1) = rounds p moment k ++ [.attempt (k + 1),
      .wait (p.backoffDelay (k + 1) (moment (k + 1)).jitter)] := by
  rw [rounds, List.range'_1_concat, List.flatMap_append, Nat.add_comm 1 k]
  simp [rounds]

/-- The first `k` waits. -/
def delays (k : Nat) : List Duration :=
  (List.range' 1 k).map fun i => p.backoffDelay i (moment i).jitter

theorem delays_succ (k : Nat) :
    delays p moment (k + 1) =
      delays p moment k ++ [p.backoffDelay (k + 1) (moment (k + 1)).jitter] := by
  rw [delays, List.range'_1_concat, List.map_append, Nat.add_comm 1 k]
  rfl

theorem rounds_delays (k : Nat) :
    (rounds p moment k).filterMap Spell.delay? = delays p moment k := by
  rw [rounds, delays, List.filterMap_flatMap, List.map_eq_flatMap]
  rfl

theorem rounds_numbers (k : Nat) :
    (rounds p moment k).filterMap Spell.number? = List.range' 1 k := by
  rw [rounds, List.filterMap_flatMap]
  exact List.flatMap_singleton' _

theorem getElem?_delays {k i : Nat} {d : Duration} (h : (delays p moment k)[i]? = some d) :
    d = p.backoffDelay (i + 1) (moment (i + 1)).jitter := by
  obtain ⟨hi, rfl⟩ := List.getElem?_eq_some_iff.mp h
  simp [delays, Nat.add_comm 1 i]

theorem sum_baseBackoff_le (k : Nat) :
    ∑ i ∈ Finset.Ico 1 (k + 1), (p.baseBackoff i).nanos ≤
      ((delays p moment k).map Duration.nanos).sum := by
  induction k with
  | zero => exact Nat.zero_le _
  | succ k ih =>
    have hlast := p.baseBackoff_le_backoffDelay (k + 1) (moment (k + 1)).jitter
    rw [Duration.le_def] at hlast
    rw [Finset.sum_Ico_succ_top (Nat.le_add_left 1 k), delays_succ, List.map_append,
      List.sum_append, List.map_singleton, List.sum_singleton]
    exact Nat.add_le_add ih hlast

theorem sum_delays_le (k : Nat) :
    (((delays p moment k).map Duration.nanos).sum : ℚ) ≤
      k * (5 / 4 * (max p.baseDelay p.maxDelay).nanos + (max p.baseDelay p.maxDelay).slack) := by
  induction k with
  | zero => simp [delays]
  | succ k ih =>
    have hlast := p.backoffDelay_le_longest (k + 1) (moment (k + 1)).jitter
    rw [delays_succ, List.map_append, List.sum_append, List.map_singleton, List.sum_singleton,
      Nat.cast_add, Nat.cast_succ, add_one_mul]
    exact add_le_add ih hlast

/-- The spells of a call in attempt `j + 1` that is not cancelled. -/
structure Paced (c : Call α) (ts : List (Turn α)) (j : Nat) : Prop where
  attempt : c.attempt = j + 1
  spent : spells ts = rounds p moment j ++ if c.phase.begun then [.attempt (j + 1)] else []
  waiting : ∀ d, c.phase = .backingOff d → d = p.backoffDelay (j + 1) (moment (j + 1)).jitter

variable {p moment} {c : Call α} {ts : List (Turn α)} {j : Nat} {m : Moment}

theorem Call.settle_begun (o : Except WriteError α) : (c.settle p m o).1.phase.begun = true := by
  obtain ⟨φ, told, h, -, ⟨r, rfl, -⟩ | rfl⟩ := c.settle_cases p m o <;>
  · rw [h]
    rfl

theorem Call.settle_delay {o : Except WriteError α} {d : Duration}
    (h : (c.settle p m o).1.phase = .backingOff d) : d = p.backoffDelay c.attempt m.jitter := by
  obtain ⟨φ, told, hsettle, -, ⟨r, rfl, -⟩ | rfl⟩ := c.settle_cases p m o
  · rw [hsettle] at h
    cases h
  · rw [hsettle] at h
    exact (Phase.backingOff.inj h).symm

theorem Paced.settle (h : Paced p moment c ts j) {t : Turn α} (o : Except WriteError α)
    (ht : spells (ts ++ [t]) = rounds p moment j ++ [.attempt (j + 1)]) :
    Paced p moment (c.settle p (moment c.attempt) o).1 (ts ++ [t]) j := by
  refine ⟨(c.settle_attempt ..).trans h.attempt, ?_, fun d hd => ?_⟩
  · rw [ht, Call.settle_begun, if_pos rfl]
  · rw [← h.attempt]
    exact Call.settle_delay hd

theorem Paced.spent_of_finished (h : Paced p moment c ts j) {r : Except WriteError α}
    (hr : c.phase = .finished r) : spells ts = rounds p moment j ++ [.attempt (j + 1)] := by
  have hbegun : c.phase.begun = true := by rw [hr]; rfl
  rw [h.spent, if_pos hbegun]

theorem Paced.waits_of_finished (h : Paced p moment c ts j) {r : Except WriteError α}
    (hr : c.phase = .finished r) : waits ts = delays p moment j := by
  rw [waits, h.spent_of_finished hr, List.filterMap_append, rounds_delays]
  exact List.append_nil _

theorem Paced.turn (h : Paced p moment c ts j) {trial : Nat → Trial α} {a : Answer α}
    (ha : (trial c.attempt).Gives c.phase a) (hnot : a ≠ .cancelled) :
    ∃ j', Paced p moment (c.resume p (moment c.attempt) a).1
      (ts ++ [⟨c.attempt, c.phase, a, (c.resume p (moment c.attempt) a).2⟩]) j' := by
  have hspent := h.spent
  have hadvance := ha.advance (p := p) (m := moment c.attempt)
  generalize c.resume p (moment c.attempt) a = next at hadvance ⊢
  -- a phase that takes no time leaves the spells as they are
  have quiet {φ : Phase α} (hb : φ.begun = c.phase.begun) (hφ : ∀ d, φ ≠ .backingOff d)
      {t : Turn α} (ht : t.spell? = none) :
      Paced p moment { c with phase := φ } (ts ++ [t]) j :=
    ⟨h.attempt, by rw [spells_concat, ht, hb]; simpa using hspent, fun d hd => absurd hd (hφ d)⟩
  have settled (first : List Effect) (o : Except WriteError α) (hb : c.phase.begun = true)
      {t : Turn α} (ht : t.spell? = none) :
      Paced p moment (Call.conclude p first (c.settle p (moment c.attempt) o)).1 (ts ++ [t]) j := by
    refine h.settle o ?_
    rw [spells_concat, ht, hspent, hb]
    simp
  have attempted {t : Turn α} (hp : c.phase = .acquiring)
      (ht : t.spell? = some (.attempt c.attempt)) :
      spells (ts ++ [t]) = rounds p moment j ++ [.attempt (j + 1)] := by
    rw [spells_concat, ht, hspent, hp, h.attempt]
    simp [Phase.begun]
  cases hadvance with
  | stop _ | wake _ => exact absurd rfl hnot
  | line hp _ => exact ⟨j, quiet (by rw [hp]; rfl) (by simp) (by simp [Turn.spell?, hp])⟩
  | enter hp =>
    rcases hp with ⟨hp, -⟩ | hp <;>
      exact ⟨j, quiet (by rw [hp]; rfl) (by simp) (by simp [Turn.spell?, hp])⟩
  | start hp _ | work hp _ | undo hp _ | revert hp _ =>
    exact ⟨j, quiet (by rw [hp]; rfl) (by simp) (by simp [Turn.spell?, hp])⟩
  | acquire hp _ =>
    exact ⟨j, h.attempt, attempted hp (by simp [Turn.spell?, hp]), fun d hd => by simp at hd⟩
  | refuse hp _ => exact ⟨j, h.settle _ (attempted hp (by simp [Turn.spell?, hp]))⟩
  | halt hp _ | keep hp _ | restore hp _ | abandon hp _ =>
    exact ⟨j, settled _ _ (by rw [hp]; rfl) (by simp [Turn.spell?, hp])⟩
  | again hp =>
    refine ⟨j + 1, congrArg (· + 1) h.attempt, ?_, fun d hd => by simp at hd⟩
    rw [spells_concat, hspent, rounds_succ, hp, ← h.waiting _ hp]
    simp [Phase.begun, Turn.spell?]

end

/-! ### The whole write -/

section

variable {α : Type} {p : RetryPolicy} {name : String} {moment : Nat → Moment}
  {trial : Nat → Trial α}

theorem filterMap_retried (k : Nat) :
    (retried p name moment trial k).filterMap Event.delay? = delays p moment k := by
  rw [retried, delays, List.filterMap_map, ← List.filterMap_eq_map]
  rfl

/-- What a write that was not cancelled told of its waits. -/
theorem Ended.waits {r : Except WriteError α} {made : List Nat} {told : List Event}
    (h : Ended p name moment trial r made told) (hnot : ∀ n k, Event.cancelled n k ∉ told) :
    ∃ k < p.maxAttempts, made = List.range' 1 (k + 1) ∧ Repeats trial k ∧
      told.filterMap Event.delay? = delays p moment k ∧
      ∀ n i elapsed, .recovered n i elapsed ∈ told → elapsed = (moment (k + 1)).elapsed := by
  have hretried {k : Nat} {n : String} {i : Nat} {elapsed : Duration} :
      Event.recovered n i elapsed ∉ retried p name moment trial k := by
    simp [retried, retrying]
  cases h with
  | value hk hrep _ =>
    refine ⟨_, hk, rfl, hrep, ?_, fun n i elapsed hmem => ?_⟩
    · rw [List.filterMap_append, filterMap_retried, recovery]
      split <;> simp [Event.delay?]
    · rcases List.mem_append.mp hmem with hmem | hmem
      · exact absurd hmem hretried
      · simp only [recovery] at hmem
        split at hmem <;> simp_all
  | fatal hk hrep _ _ =>
    exact ⟨_, hk, rfl, hrep, filterMap_retried _, fun n i elapsed hmem => absurd hmem hretried⟩
  | exhausted hk hrep _ =>
    refine ⟨_, by omega, rfl, fun i h1 hi => hrep i h1 (by omega), ?_, fun n i elapsed hmem => ?_⟩
    · rw [List.filterMap_append, filterMap_retried]
      simp [Event.delay?]
    · rcases List.mem_append.mp hmem with hmem | hmem
      · exact absurd hmem hretried
      · simp at hmem
  | cancelled => exact absurd (List.mem_append_right _ (List.mem_singleton_self _)) (hnot name _)

namespace Setting

/-- The times at which a write comes to its phases, in nanoseconds since the call.  A wait takes at
least its delay, and the time that a write tells is read when its last attempt is over. -/
structure OnTime (s : Setting α) (time : Nat → Nat) : Prop where
  mono : Monotone time
  waits : ∀ t d, (s.call t).phase = .backingOff d → time t + d.nanos ≤ time (t + 1)
  tells : ∀ t r, (∀ r', (s.call t).phase ≠ .finished r') → (s.call (t + 1)).phase = .finished r →
    .ofNanos (time (t + 1)) ≤ (s.moment (s.call (t + 1)).attempt).elapsed

variable {s : Setting α} {time : Nat → Nat}

theorem paced (s : Setting α) (t : Nat) :
    ∃ j, Paced s.policy s.moment (s.uncancelled.call t) (s.uncancelled.turns t) j := by
  induction t with
  | zero => exact ⟨0, rfl, rfl, fun d hd => by cases hd⟩
  | succ t ih =>
    by_cases h : ∀ r, (s.uncancelled.call t).phase ≠ .finished r
    · obtain ⟨j, hj⟩ := ih
      rw [call, turns, history_succ h]
      exact hj.turn (answer_gives h) (answer_uncancelled t _)
    · obtain ⟨r, hr⟩ : ∃ r, (s.uncancelled.call t).phase = .finished r := by simpa using h
      rw [call, turns, history_stays hr (Nat.le_succ t)]
      exact ih

/-- The time that the waits of a write take together. -/
def asleep (s : Setting α) (t : Nat) : Nat := ((Write.waits (s.turns t)).map Duration.nanos).sum

theorem asleep_succ (s : Setting α) (t : Nat) :
    s.asleep (t + 1) = s.asleep t + (s.call t).phase.pause := by
  by_cases h : ∀ r, (s.call t).phase ≠ .finished r
  · rw [asleep, turns, history_succ h, waits_concat, List.map_append, List.sum_append]
    cases (s.call t).phase <;> rfl
  · obtain ⟨r, hr⟩ : ∃ r, (s.call t).phase = .finished r := by simpa using h
    rw [asleep, turns, history_stays hr (Nat.le_succ t), hr]
    rfl

theorem asleep_mono (s : Setting α) : Monotone s.asleep := by
  apply monotone_nat_of_le_succ
  intro t
  rw [asleep_succ]
  exact Nat.le_add_right ..

theorem OnTime.asleep_le (h : s.OnTime time) (t : Nat) : s.asleep t ≤ time t := by
  induction t with
  | zero => exact Nat.zero_le _
  | succ t ih =>
    rw [asleep_succ]
    cases hp : (s.call t).phase with
    | backingOff d => exact le_trans (Nat.add_le_add_right ih _) (h.waits t d hp)
    | checking | locking | acquiring | beginning _ | operating _ | committing _ _
    | rollingBack _ _ | finished _ => exact le_trans ih (h.mono (Nat.le_add_right t 1))

theorem finishes_first (s : Setting α) : ∃ n r, (s.call (n + 1)).phase = .finished r ∧
    ∀ t, t ≤ n → ∀ r', (s.call t).phase ≠ .finished r' := by
  classical
  obtain ⟨r, hr⟩ := Nat.find_spec s.finishes
  have hfirst (t : Nat) (ht : t < Nat.find s.finishes) := Nat.find_min s.finishes ht
  cases hn : Nat.find s.finishes with
  | zero =>
    rw [hn] at hr
    cases hr
  | succ n =>
    rw [hn] at hr hfirst
    exact ⟨n, r, hr, fun t ht r' h => hfirst t (Nat.lt_succ_of_le ht) ⟨r', h⟩⟩

/-- A write that nothing but its waits takes time, with these draws. -/
def drawn (p : RetryPolicy) (draw : Nat → Signed64) (trial : Nat → Trial α) : Setting α where
  policy := p
  moment k :=
    { jitter := draw k
      elapsed := .ofNanos
        (((delays p (fun i => { jitter := draw i }) (k - 1)).map Duration.nanos).sum) }
  trial := trial

theorem onTime_drawn (p : RetryPolicy) (draw : Nat → Signed64) (trial : Nat → Trial α) :
    (drawn p draw trial).uncancelled.OnTime (drawn p draw trial).uncancelled.asleep where
  mono := asleep_mono _
  waits t d hp := by
    rw [asleep_succ, hp]
    exact Nat.le_refl _
  tells t r _ hr := by
    obtain ⟨j, hj⟩ := (drawn p draw trial).paced (t + 1)
    rw [hj.attempt, asleep, hj.waits_of_finished hr]
    exact Nat.le_refl _

/-- Two attempts that find the database locked, and a third that works. -/
def flaky : Setting Unit :=
  drawn { maxRetries := 3 } (fun _ => .finite false (.ofRatio 1 2)) fun k =>
    { connection := .ok 0
      begins := .ok ()
      operation := if k ≤ 2 then .error (.other "database is locked") else .ok ()
      commit := .ok ()
      rollback := .ok () }

theorem flaky_ends : flaky.uncancelled.EndsWith (.ok ()) [1, 2, 3]
    (events (flaky.uncancelled.turns 17)) := by
  have hover : (flaky.uncancelled.call 17).phase = .finished (.ok ()) := rfl
  exact endsWith_of_finished hover

/-- A write without a token, from the call to its end after answer `n`.  It makes `k` attempts and
waits once after each of them but the last; each wait is the one that its event tells, at least the
wait without jitter and at most a quarter more, the roundings apart.  Neither the write nor the time
that it tells is shorter than the waits without jitter together, and the policy alone bounds the sum
of the waits. -/
theorem waits_paced (s : Setting α) (h : s.uncancelled.OnTime time) : ∃ n k r,
    (s.uncancelled.call n).phase = .finished r ∧
    (∀ t < n, ∀ r', (s.uncancelled.call t).phase ≠ .finished r') ∧
    (1 ≤ k ∧ k ≤ s.policy.maxAttempts) ∧
    attempts (s.uncancelled.turns n) = List.range' 1 k ∧
    (∀ i, 1 ≤ i → i < k → (s.trial i).Passes) ∧
    spells (s.uncancelled.turns n) = rounds s.policy s.moment (k - 1) ++ [.attempt k] ∧
    (waits (s.uncancelled.turns n)).length = k - 1 ∧
    waits (s.uncancelled.turns n) =
      (events (s.uncancelled.turns n)).filterMap Event.delay? ∧
    (∀ i d, (waits (s.uncancelled.turns n))[i]? = some d →
      s.policy.baseBackoff (i + 1) ≤ d ∧ s.policy.baseDelay ≤ d ∧
        (d.nanos : ℚ) ≤ 5 / 4 * (s.policy.baseBackoff (i + 1)).nanos +
          (s.policy.baseBackoff (i + 1)).slack) ∧
    ∑ i ∈ Finset.Ico 1 k, (s.policy.baseBackoff i).nanos ≤ time n ∧
    (∀ name made elapsed, .recovered name made elapsed ∈ events (s.uncancelled.turns n) →
      .ofNanos (∑ i ∈ Finset.Ico 1 k, (s.policy.baseBackoff i).nanos) ≤ elapsed) ∧
    (((waits (s.uncancelled.turns n)).map Duration.nanos).sum : ℚ) ≤
      (s.policy.maxAttempts - 1) *
        (5 / 4 * (max s.policy.baseDelay s.policy.maxDelay).nanos +
          (max s.policy.baseDelay s.policy.maxDelay).slack) := by
  obtain ⟨n, r, hr, hfirst⟩ := s.uncancelled.finishes_first
  obtain ⟨j, hj⟩ := s.paced (n + 1)
  obtain ⟨k, hk, hmade, hrep, htold, helapsed⟩ :=
    ((s.uncancelled.course (n + 1)).ended hr).waits (not_cancelled _)
  have hspells := hj.spent_of_finished hr
  have hwaits := hj.waits_of_finished hr
  obtain rfl : k = j := by
    rw [attempts_eq_numbers, hspells, List.filterMap_append, rounds_numbers] at hmade
    simpa [Spell.number?] using (congrArg List.length hmade).symm
  have hasleep := h.asleep_le (n + 1)
  rw [asleep, hwaits] at hasleep
  have htotal := le_trans (sum_baseBackoff_le s.policy s.moment k) hasleep
  have hsum := sum_delays_le s.policy s.moment k
  refine ⟨n + 1, k + 1, r, hr, fun t ht => hfirst t (Nat.le_of_lt_succ ht),
    ⟨Nat.le_add_left 1 k, hk⟩, hmade, fun i h1 hi => hrep i h1 (Nat.le_of_lt_succ hi), hspells,
    ?_, ?_, ?_, htotal, ?_, ?_⟩
  · rw [hwaits, delays, List.length_map, List.length_range']
    rfl
  · exact hwaits.trans htold.symm
  · intro i d hd
    rw [hwaits] at hd
    obtain rfl := getElem?_delays _ _ hd
    exact ⟨s.policy.baseBackoff_le_backoffDelay _ _, s.policy.baseDelay_le_backoffDelay _ _,
      s.policy.backoffDelay_le_slack _ _⟩
  · intro name made elapsed hmem
    have htells := h.tells n r (hfirst n (Nat.le_refl n)) hr
    rw [hj.attempt] at htells
    rw [helapsed name made elapsed hmem]
    exact Nat.le_trans (Duration.ofNanos_mono htotal) htells
  · have hmost : (k : ℚ) ≤ s.policy.maxAttempts - 1 := by
      have hcast : ((k + 1 : ℕ) : ℚ) ≤ s.policy.maxAttempts := Nat.cast_le.mpr hk
      push_cast at hcast
      linarith
    rw [hwaits]
    refine le_trans hsum (mul_le_mul_of_nonneg_right hmost ?_)
    have := (max s.policy.baseDelay s.policy.maxDelay).slack_nonneg
    positivity

theorem waits_paced_flaky : ∃ n, (flaky.uncancelled.call n).phase = .finished (.ok ()) ∧
    attempts (flaky.uncancelled.turns n) = [1, 2, 3] ∧
    300000000 ≤ flaky.uncancelled.asleep n := by
  obtain ⟨n, k, r, hr, -, -, hmade, -, -, -, -, -, htotal, -⟩ :=
    waits_paced flaky (onTime_drawn ..)
  obtain ⟨rfl, hthree, -⟩ := (endsWith_of_finished hr).unique flaky_ends
  obtain rfl : k = 3 := by
    have := congrArg List.length (hmade.symm.trans hthree)
    simpa using this
  exact ⟨n, hr, hthree, le_trans (by decide +kernel) htotal⟩

end Setting

end

end Write

end SingleWriter
