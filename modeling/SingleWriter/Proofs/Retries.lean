import SingleWriter.Proofs.Setting

/-! What a write without a token comes to.  The first attempt that does not fail in a way that may
pass decides it; when there is none within the budget, the last error is wrapped.  The attempts, the
events and the result follow from the outcomes of the attempts, and a counter of 32 bits is enough
for every policy. -/

namespace SingleWriter.Write

section

variable {α : Type}

theorem Call.settle_not_cancelled (c : Call α) (p : RetryPolicy) (m : Moment)
    (o : Except WriteError α) (name : String) (k : Nat) :
    Event.cancelled name k ∉ (c.settle p m o).2.filterMap Effect.event? := by
  obtain ⟨φ, told, h, hnot, -⟩ := c.settle_cases p m o
  rw [h, List.filterMap_map]
  simpa [Effect.event?] using hnot name k

theorem Advance.answer_of_cancelled {p : RetryPolicy} {m : Moment} {t : Trial α} {c : Call α}
    {a : Answer α} {next : Call α × List Effect} (h : Advance p m t c a next) {name : String}
    {k : Nat} (he : Event.cancelled name k ∈ next.2.filterMap Effect.event?) :
    a = .cancelled := by
  have hsettle (first : List Effect) (hfirst : first.filterMap Effect.event? = [])
      (o : Except WriteError α) :
      Event.cancelled name k ∉
        (Call.conclude p first (c.settle p m o)).2.filterMap Effect.event? := by
    rw [filterMap_conclude p hfirst]
    exact c.settle_not_cancelled p m o name k
  cases h with
  | line | enter | acquire | start | work | undo | revert | again => simp at he
  | stop | wake => rfl
  | refuse | halt | keep | restore | abandon => exact absurd he (hsettle _ rfl _)

theorem Course.answer_of_cancelled {p : RetryPolicy} {name : String} {moment : Nat → Moment}
    {trial : Nat → Trial α} {c : Call α} {ts : List (Turn α)}
    (h : Course p name moment trial c ts) {name' : String} {k : Nat}
    (he : Event.cancelled name' k ∈ events ts) : ∃ t ∈ ts, t.answer = .cancelled := by
  induction h with
  | start => simp at he
  | turn _ ha ih =>
    rw [events_concat, List.mem_append] at he
    rcases he with he | he
    · obtain ⟨t, ht, hc⟩ := ih he
      exact ⟨t, by simp [ht], hc⟩
    · exact ⟨_, List.mem_append_right _ (List.mem_singleton_self _),
        ha.advance.answer_of_cancelled he⟩

end

namespace Setting

variable {α : Type} (s : Setting α)

/-- The same write without a token. -/
def uncancelled : Setting α := { s with token := .never }

def retries (k : Nat) : List Event := retried s.policy s.name s.moment s.trial k

/-- Attempt `k` is the first within the budget that does not fail in a way that may pass. -/
def Decides (k : Nat) : Prop :=
  1 ≤ k ∧ k ≤ s.policy.maxAttempts ∧ ¬(s.trial k).Passes ∧
    ∀ i, 1 ≤ i → i < k → (s.trial i).Passes

/-- The attempt counter as a word of 32 bits. -/
def counter : Nat → UInt32
  | 0 => 1
  | t + 1 => if (s.call (t + 1)).attempt = (s.call t).attempt then counter t else counter t + 1

variable {s}

theorem answer_of_mem_turns {t : Nat} {x : Turn α} (hx : x ∈ s.turns t) :
    ∃ u, x.answer = s.answer u (s.call u) := by
  induction t with
  | zero => simp [turns, history] at hx
  | succ t ih =>
    by_cases h : ∀ r, (s.call t).phase ≠ .finished r
    · rw [turns, history_succ h] at hx
      rcases List.mem_append.mp hx with hx | hx
      · exact ih hx
      · exact ⟨t, by simp at hx; rw [hx]⟩
    · obtain ⟨r, hr⟩ : ∃ r, (s.call t).phase = .finished r := by simpa using h
      rw [turns, history_stays hr (Nat.le_succ t)] at hx
      exact ih hx

theorem answer_uncancelled (t : Nat) (c : Call α) : s.uncancelled.answer t c ≠ .cancelled := by
  unfold answer
  cases hp : c.phase with
  | checking | locking | backingOff d | finished r => simp [uncancelled, Token.never]
  | acquiring =>
    simp only
    cases (s.uncancelled.trial c.attempt).connection <;> simp [Answer.ofConnection]
  | operating on =>
    simp only
    cases (s.uncancelled.trial c.attempt).operation <;> simp [Answer.ofOperation]
  | beginning on | committing on v | rollingBack on e =>
    simp only [Answer.ofStatement]
    split <;> simp

theorem not_cancelled (t : Nat) (name : String) (k : Nat) :
    Event.cancelled name k ∉ events (s.uncancelled.turns t) := by
  intro h
  obtain ⟨x, hx, hc⟩ := (s.uncancelled.course t).answer_of_cancelled h
  obtain ⟨u, hu⟩ := answer_of_mem_turns hx
  exact answer_uncancelled u _ (hu.symm.trans hc)

theorem Decides.unique {k j : Nat} (hk : s.Decides k) (hj : s.Decides j) : k = j := by
  rcases Nat.lt_trichotomy k j with hlt | heq | hgt
  · exact absurd (hj.2.2.2 k hk.1 hlt) hk.2.2.1
  · exact heq
  · exact absurd (hk.2.2.2 j hj.1 hgt) hj.2.2.1

theorem attempt_le (t : Nat) : (s.call t).attempt ≤ s.policy.maxAttempts := by
  obtain ⟨j, hj⟩ := (s.course t).standing
  have := hj.attempt
  have := hj.within
  omega

theorem decides_succ {j : Nat} (hj : j < s.policy.maxAttempts) (hrep : Repeats s.trial j)
    (hlast : ¬(s.trial (j + 1)).Passes) : s.Decides (j + 1) :=
  ⟨by omega, hj, hlast, fun i h1 hi => hrep i h1 (by omega)⟩

theorem not_passes_of_ok {k : Nat} {v : α} (h : (s.trial k).outcome = .ok v) :
    ¬(s.trial k).Passes := by
  rintro ⟨e, he, -⟩
  rw [h] at he
  cases he

theorem not_passes_of_fatal {k : Nat} {e : WriteError} (h : (s.trial k).outcome = .error e)
    (hfatal : e.isTransient = false) : ¬(s.trial k).Passes := by
  rintro ⟨e', he, hpass⟩
  rw [h] at he
  cases he
  rw [hfatal] at hpass
  cases hpass

/-- A write without a token ends with the attempt that decides it, or with its budget. -/
theorem uncancelled_ends (s : Setting α) :
    (∃ k v, s.Decides k ∧ (s.trial k).outcome = .ok v ∧
      s.uncancelled.EndsWith (.ok v) (List.range' 1 k)
        (s.retries (k - 1) ++ recovery s.name s.moment k)) ∨
    (∃ k e, s.Decides k ∧ (s.trial k).outcome = .error e ∧
      s.uncancelled.EndsWith (.error e) (List.range' 1 k) (s.retries (k - 1))) ∨
    ((∀ k, ¬s.Decides k) ∧ ∃ e, (s.trial s.policy.maxAttempts).outcome = .error e ∧
      s.uncancelled.EndsWith (.error (.exhausted s.name s.policy.maxAttempts e))
        (List.range' 1 s.policy.maxAttempts)
        (s.retries (s.policy.maxAttempts - 1) ++
          [.exhausted s.name s.policy.maxAttempts e.message])) := by
  obtain ⟨t, r, hr⟩ := s.uncancelled.finishes
  have hends := endsWith_of_finished hr
  have hended : Ended s.policy s.name s.moment s.trial r _ _ := (s.uncancelled.course t).ended hr
  have hnot := s.not_cancelled t
  generalize attempts (s.uncancelled.turns t) = made at hends hended
  generalize events (s.uncancelled.turns t) = told at hends hended hnot
  cases hended with
  | value hj hrep ho =>
    exact .inl ⟨_, _, decides_succ hj hrep (not_passes_of_ok ho), ho, hends⟩
  | fatal hj hrep ho hfatal =>
    exact .inr (.inl ⟨_, _, decides_succ hj hrep (not_passes_of_fatal ho hfatal), ho, hends⟩)
  | exhausted hj hrep ho =>
    rw [← hj]
    exact .inr (.inr ⟨fun k hk => hk.2.2.1 (hrep k hk.1 (hj ▸ hk.2.1)), _, ho, hends⟩)
  | cancelled =>
    exact absurd (List.mem_append_right _ (List.mem_singleton_self _)) (hnot s.name _)

theorem attempt_succ (t : Nat) :
    (s.call (t + 1)).attempt = (s.call t).attempt ∨
      (s.call (t + 1)).attempt = (s.call t).attempt + 1 := by
  by_cases h : ∀ r, (s.call t).phase ≠ .finished r
  · rw [call_succ h, next]
    have hgives := answer_gives h
    generalize s.answer t (s.call t) = a at hgives ⊢
    have hadvance := hgives.advance (p := s.policy) (m := s.moment (s.call t).attempt)
    generalize (s.call t).resume s.policy _ _ = next at hadvance ⊢
    cases hadvance with
    | again => exact .inr rfl
    | refuse | halt | keep | restore | abandon => exact .inl (Call.settle_attempt ..)
    | line | enter | stop | acquire | start | work | undo | revert | wake => exact .inl rfl
  · obtain ⟨r, hr⟩ : ∃ r, (s.call t).phase = .finished r := by simpa using h
    rw [call, history_stays hr (Nat.le_succ t)]
    exact .inl rfl

theorem toNat_counter (h : s.policy.maxRetries < UInt32.size) (t : Nat) :
    (s.counter t).toNat = (s.call t).attempt := by
  induction t with
  | zero => rfl
  | succ t ih =>
    have hle := s.attempt_le (t + 1)
    simp only [RetryPolicy.maxAttempts] at hle
    rw [counter]
    split
    · omega
    · rcases s.attempt_succ t with heq | hsucc
      · contradiction
      · have hsize : UInt32.size = 4294967296 := rfl
        rw [UInt32.toNat_add, ih, UInt32.toNat_one, Nat.mod_eq_of_lt (by omega), hsucc]

/-- A write without a token is decided by the outcomes of its attempts: it makes attempts up to the
first that does not fail in a way that may pass and returns what that one came to, or it uses up its
budget and wraps the last error.  It tells of every attempt that is followed by another one, and of
its end if that was not a plain success or a plain failure. -/
theorem retry_outcome (s : Setting α) :
    (∀ k v, s.Decides k → (s.trial k).outcome = .ok v →
      s.uncancelled.EndsWith (.ok v) (List.range' 1 k)
        (s.retries (k - 1) ++ recovery s.name s.moment k)) ∧
    (∀ k e, s.Decides k → (s.trial k).outcome = .error e →
      s.uncancelled.EndsWith (.error e) (List.range' 1 k) (s.retries (k - 1))) ∧
    ((¬∃ k, s.Decides k) → ∃ e, (s.trial s.policy.maxAttempts).outcome = .error e ∧
      s.uncancelled.EndsWith (.error (.exhausted s.name s.policy.maxAttempts e))
        (List.range' 1 s.policy.maxAttempts)
        (s.retries (s.policy.maxAttempts - 1) ++
          [.exhausted s.name s.policy.maxAttempts e.message])) ∧
    (s.policy.maxRetries < UInt32.size →
      ∀ t, (s.uncancelled.counter t).toNat = (s.uncancelled.call t).attempt) := by
  refine ⟨fun k v hk ho => ?_, fun k e hk ho => ?_, fun hno => ?_, fun h t => ?_⟩
  · rcases s.uncancelled_ends with ⟨j, v', hj, ho', hends⟩ | ⟨j, e, hj, ho', -⟩ | ⟨hno, -⟩
    · obtain rfl := hk.unique hj
      rw [ho] at ho'
      cases ho'
      exact hends
    · obtain rfl := hk.unique hj
      rw [ho] at ho'
      cases ho'
    · exact absurd hk (hno k)
  · rcases s.uncancelled_ends with ⟨j, v, hj, ho', -⟩ | ⟨j, e', hj, ho', hends⟩ | ⟨hno, -⟩
    · obtain rfl := hk.unique hj
      rw [ho] at ho'
      cases ho'
    · obtain rfl := hk.unique hj
      rw [ho] at ho'
      cases ho'
      exact hends
    · exact absurd hk (hno k)
  · rcases s.uncancelled_ends with ⟨j, v, hj, -⟩ | ⟨j, e, hj, -⟩ | ⟨-, hends⟩
    · exact absurd ⟨j, hj⟩ hno
    · exact absurd ⟨j, hj⟩ hno
    · exact hends
  · exact toNat_counter (s := s.uncancelled) h t

/-- A write that finds the database locked at first, and not again. -/
def lockedFirst : Setting Unit where
  policy := {}
  trial := fun k =>
    { connection := .ok 0
      begins := .ok ()
      operation := if k = 1 then .error (.other "database is locked") else .ok ()
      commit := .ok ()
      rollback := .ok () }

theorem lockedFirst_decided : lockedFirst.Decides 2 := by
  refine ⟨by decide, by decide, not_passes_of_ok (v := ()) rfl, fun i h1 h2 => ?_⟩
  obtain rfl : i = 1 := by omega
  exact ⟨_, rfl, by decide +kernel⟩

/-- The second attempt decides, so one retry is told of, and the recovery. -/
theorem retry_outcome_lockedFirst :
    lockedFirst.Decides 2 ∧ lockedFirst.uncancelled.EndsWith (.ok ()) [1, 2]
      (lockedFirst.retries 1 ++ recovery lockedFirst.name lockedFirst.moment 2) :=
  ⟨lockedFirst_decided, (retry_outcome lockedFirst).1 2 () lockedFirst_decided rfl⟩

end Setting

end SingleWriter.Write
