import SingleWriter.Proofs.Retries

/-! The moment at which the token of a write is cancelled: before the call, within an attempt, in
the wait after it, or never.  The moment and the outcomes of the attempts decide how many attempts
are made, and with that the result and the events; which policy the writes take turns by has no part
in it. -/

namespace SingleWriter

/-- The policy under another strategy. -/
def RetryPolicy.under (p : RetryPolicy) (σ : Strategy) : RetryPolicy := { p with strategy := σ }

namespace Write

/-- When a token is cancelled. -/
inductive Onset where
  | never
  /-- Before the call. -/
  | before
  /-- Within the attempt with this number. -/
  | within (k : Nat)
  /-- In the wait after the attempt with this number. -/
  | after (k : Nat)
deriving DecidableEq

namespace Onset

variable {α : Type}

/-- Whether the token is cancelled by the time that attempt `k` is about to begin. -/
def reaches : Onset → Nat → Bool
  | never, _ => false
  | before, _ => true
  | within j, k => j < k
  | after j, k => j < k

/-- A turn that a call may have when its token is cancelled at this moment.  In the wait for the
lock no token is cancelled that was not cancelled before. -/
def Fits (o : Onset) (t : Turn α) : Prop :=
  match t.phase with
  | .checking => t.answer = .cancelled ↔ o.reaches t.attempt = true
  | .locking => t.answer = .cancelled → o.reaches t.attempt = true
  | .backingOff _ => t.answer = .cancelled → o.reaches (t.attempt + 1) = true
  | _ => True

/-- What the moment says of a call after the turns `ts`: every attempt that is made began before it,
and a cancelled call has come to an end after it. -/
structure Spares (o : Onset) (c : Call α) (ts : List (Turn α)) : Prop where
  pending : c.phase = .locking ∨ c.phase = .acquiring → o.reaches c.attempt = false
  made : ∀ k ∈ attempts ts, o.reaches k = false
  told : ∀ name k, Event.cancelled name k ∈ events ts → o.reaches (k + 1) = true

end Onset

section

variable {α : Type} {p : RetryPolicy} {name : String} {moment : Nat → Moment}
  {trial : Nat → Trial α} {c : Call α} {ts : List (Turn α)} {o : Onset} {m : Moment} {t : Trial α}
  {a : Answer α} {next : Call α × List Effect}

/-- An attempt that is over is followed neither by the wait for the lock nor by that for a
connection. -/
theorem Call.settle_pending (c : Call α) (p : RetryPolicy) (m : Moment) (r : Except WriteError α) :
    ¬((c.settle p m r).1.phase = .locking ∨ (c.settle p m r).1.phase = .acquiring) := by
  have hrank := c.settle_rank p m r
  rintro (h | h) <;> simp [h, Phase.rank] at hrank

/-- What is about to begin has not been reached: the token was looked at before. -/
theorem Advance.spares (h : Advance p m t c a next)
    (hfits : o.Fits ⟨c.attempt, c.phase, a, next.2⟩)
    (hpending : c.phase = .locking ∨ c.phase = .acquiring → o.reaches c.attempt = false) :
    next.1.phase = .locking ∨ next.1.phase = .acquiring → o.reaches next.1.attempt = false := by
  have hchecked (hp : c.phase = .checking) (ha : a = .proceed) : o.reaches c.attempt = false := by
    simp only [Onset.Fits, hp, ha, reduceCtorEq, false_iff, Bool.not_eq_true] at hfits
    exact hfits
  cases h with
  | line hp _ => exact fun _ => hchecked hp rfl
  | enter hp =>
    rcases hp with ⟨hp, -⟩ | hp
    · exact fun _ => hchecked hp rfl
    · exact fun _ => hpending (.inl hp)
  | stop | acquire | start | work | undo | revert | again | wake =>
    rintro (hnext | hnext) <;> cases hnext
  | refuse | halt | keep | restore | abandon =>
    exact fun hnext => absurd hnext (c.settle_pending p m _)

theorem Course.spared (h : Course p name moment trial c ts) (hfits : ∀ t ∈ ts, o.Fits t) :
    o.Spares c ts := by
  induction h with
  | start => exact ⟨by simp, by simp, by simp⟩
  | @turn c ts a hc ha ih =>
    have ih := ih fun t ht => hfits t (List.mem_append_left _ ht)
    have hlast := hfits _ (List.mem_append_right _ (List.mem_singleton_self _))
    have hadvance := ha.advance (p := p) (m := moment c.attempt)
    obtain ⟨j, hj⟩ := hc.standing
    generalize c.resume p (moment c.attempt) a = next at hlast hadvance ⊢
    refine ⟨hadvance.spares hlast ih.pending, fun k hk => ?_, fun name' k hk => ?_⟩
    · rw [attempts_concat, List.mem_append] at hk
      rcases hk with hk | hk
      · exact ih.made k hk
      · unfold Turn.made? at hk
        split at hk
        · rename_i hp
          obtain rfl : k = c.attempt := by simpa using hk
          exact ih.pending (.inr hp)
        · cases hk
    · rw [events_concat, List.mem_append] at hk
      rcases hk with hk | hk
      · exact ih.told name' k hk
      · obtain rfl := hadvance.answer_of_cancelled hk
        have hpos : c.attempt - 1 + 1 = c.attempt := by rw [hj.attempt]; rfl
        cases hadvance with
        | stop hp =>
          obtain ⟨-, rfl⟩ : name' = c.operation ∧ k = c.attempt - 1 := by
            simpa [Call.cancelAfter, Effect.event?] using hk
          rw [hpos]
          rcases hp with hp | hp
          · simpa [Onset.Fits, hp] using hlast
          · simpa [Onset.Fits, hp] using hlast
        | wake hp =>
          obtain ⟨-, rfl⟩ : name' = c.operation ∧ k = c.attempt := by
            simpa [Call.cancelAfter, Effect.event?] using hk
          simpa [Onset.Fits, hp] using hlast

/-! ### The end of a write -/

/-- What a write comes to when it stops after `n` attempts, with the events that it tells. -/
def verdict (p : RetryPolicy) (name : String) (moment : Nat → Moment) (trial : Nat → Trial α) :
    Nat → Except WriteError α × List Event
  | 0 => (.error (.cancelled name 0), [.cancelled name 0])
  | k + 1 =>
    match (trial (k + 1)).outcome with
    | .ok v => (.ok v, retried p name moment trial k ++ recovery name moment (k + 1))
    | .error e =>
      if e.isTransient = false then (.error e, retried p name moment trial k)
      else if p.maxAttempts ≤ k + 1 then
        (.error (.exhausted name (k + 1) e),
          retried p name moment trial k ++ [.exhausted name (k + 1) e.message])
      else
        (.error (.cancelled name (k + 1)),
          retried p name moment trial (k + 1) ++ [.cancelled name (k + 1)])

/-- Why a write stops after `n` attempts: the last one decides it, or the token is cancelled before
the next one. -/
structure Stops (p : RetryPolicy) (trial : Nat → Trial α) (o : Onset) (n : Nat) : Prop where
  within : n ≤ p.maxAttempts
  passes : ∀ i, 1 ≤ i → i < n → (trial i).Passes
  spared : ∀ i, 1 ≤ i → i ≤ n → o.reaches i = false
  last : 1 ≤ n ∧ ((trial n).Passes → n = p.maxAttempts) ∨ o.reaches (n + 1) = true

theorem Ended.verdict {r : Except WriteError α} {made : List Nat} {told : List Event}
    (h : Ended p name moment trial r made told) (hmade : ∀ k ∈ made, o.reaches k = false)
    (htold : ∀ name k, Event.cancelled name k ∈ told → o.reaches (k + 1) = true) :
    ∃ n, Stops p trial o n ∧ made = List.range' 1 n ∧
      (r, told) = Write.verdict p name moment trial n := by
  have hspared {n : Nat} (hn : made = List.range' 1 n) (i : Nat) (h1 : 1 ≤ i) (hi : i ≤ n) :
      o.reaches i = false := hmade i (by rw [hn, List.mem_range'_1]; omega)
  have hbefore {k : Nat} (hrep : Repeats trial k) (i : Nat) (h1 : 1 ≤ i) (hi : i < k + 1) :
      (trial i).Passes := hrep i h1 (Nat.le_of_lt_succ hi)
  cases h with
  | @value k v hk hrep hv =>
    have hlast : ¬(trial (k + 1)).Passes := by
      rintro ⟨e, he, -⟩
      rw [hv] at he
      cases he
    refine ⟨k + 1, ⟨hk, hbefore hrep, hspared rfl, .inl ⟨by omega, fun h => absurd h hlast⟩⟩,
      rfl, ?_⟩
    rw [Write.verdict, hv]
  | @fatal k e hk hrep he hfatal =>
    have hlast : ¬(trial (k + 1)).Passes := by
      rintro ⟨e', he', hpass⟩
      rw [he] at he'
      cases he'
      rw [hfatal] at hpass
      cases hpass
    refine ⟨k + 1, ⟨hk, hbefore hrep, hspared rfl, .inl ⟨by omega, fun h => absurd h hlast⟩⟩,
      rfl, ?_⟩
    rw [Write.verdict, he]
    simp [hfatal]
  | @exhausted k e hk hrep he =>
    have hpass : e.isTransient = true := by
      obtain ⟨e', he', hpass⟩ := hrep (k + 1) (by omega) (Nat.le_refl _)
      rw [he] at he'
      cases he'
      exact hpass
    refine ⟨k + 1, ⟨Nat.le_of_eq hk, fun i h1 hi => hrep i h1 (Nat.le_of_lt hi), hspared rfl,
      .inl ⟨by omega, fun _ => hk⟩⟩, rfl, ?_⟩
    rw [Write.verdict, he]
    simp [hpass, hk]
  | @cancelled k hk hrep =>
    have hreached : o.reaches (k + 1) = true := htold name k (by simp)
    refine ⟨k, ⟨Nat.le_of_lt hk, fun i h1 hi => hrep i h1 (Nat.le_of_lt hi), hspared rfl,
      .inr hreached⟩, rfl, ?_⟩
    cases k with
    | zero => rfl
    | succ k =>
      obtain ⟨e, he, hpass⟩ := hrep (k + 1) (by omega) (Nat.le_refl _)
      rw [Write.verdict, he]
      simp [hpass, hk]

/-- A write stops after a number of attempts that the policy, the outcomes and the moment decide. -/
theorem Stops.unique {n n' : Nat} (h : Stops p trial o n) (h' : Stops p trial o n') : n = n' := by
  have hlt {n n' : Nat} (h : Stops p trial o n) (h' : Stops p trial o n') : ¬n < n' := by
    intro hlt
    rcases h.last with ⟨hpos, hlast⟩ | hreached
    · have hfull := hlast (h'.passes n hpos hlt)
      have hwithin := h'.within
      omega
    · rw [h'.spared (n + 1) (by omega) hlt] at hreached
      cases hreached
  exact Nat.le_antisymm (Nat.not_lt.mp (hlt h' h)) (Nat.not_lt.mp (hlt h h'))

/-! ### Another strategy -/

section Under

variable {σ : Strategy} {trial' : Nat → Trial α}

theorem Trial.passes_congr {t t' : Trial α} (h : t.outcome = t'.outcome) :
    t.Passes ↔ t'.Passes := by
  rw [Passes, Passes, h]

theorem Stops.under {n : Nat} (h : Stops (p.under σ) trial o n)
    (hsame : ∀ k, (trial k).outcome = (trial' k).outcome) : Stops p trial' o n where
  within := h.within
  passes i h1 hi := (Trial.passes_congr (hsame i)).mp (h.passes i h1 hi)
  spared := h.spared
  last := by
    rw [← Trial.passes_congr (hsame n)]
    exact h.last

/-- Neither the strategy nor anything about the attempts but their outcomes has a say in the end. -/
theorem verdict_under (hsame : ∀ k, (trial k).outcome = (trial' k).outcome) (n : Nat) :
    verdict (p.under σ) name moment trial n = verdict p name moment trial' n := by
  have hretrying : retrying (p.under σ) name moment trial = retrying p name moment trial' := by
    funext i
    rw [retrying, retrying, Trial.text, Trial.text, hsame i]
    rfl
  have hretried : retried (p.under σ) name moment trial = retried p name moment trial' := by
    funext k
    rw [retried, retried, hretrying]
  cases n with
  | zero => rfl
  | succ k =>
    rw [verdict, verdict, hsame (k + 1), hretried]
    rfl

end Under

end

end Write

end SingleWriter
