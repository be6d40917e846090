import Mathlib.Tactic.ByContra
import Mathlib.Tactic.Push
import SingleWriter.Proofs.Course

/-! A write on its own, with everything that it meets: its policy, the trials of its attempts, and a
token that may be cancelled at any time.  The setting decides the run, and every run comes to an
end. -/

namespace SingleWriter.Write

/-- The token that may cancel a write: whether it is cancelled by the time of each answer.  Once
cancelled it stays so. -/
structure Token where
  cancelled : Nat → Bool
  stays : ∀ t, cancelled t = true → cancelled (t + 1) = true

namespace Token

def never : Token := ⟨fun _ => false, fun _ h => h⟩

theorem mono (k : Token) {t u : Nat} (h : k.cancelled t = true) (hu : t ≤ u) :
    k.cancelled u = true := by
  induction hu with
  | refl => exact h
  | step _ ih => exact k.stays _ ih

end Token

/-- What a write meets on its way. -/
structure Setting (α : Type) where
  policy : RetryPolicy
  name : String := defaultName
  /-- The draw and the time at the end of each attempt. -/
  moment : Nat → Moment := fun _ => {}
  trial : Nat → Trial α
  token : Token := .never
  /-- Whether the cancelled token wins against the lock or the clock. -/
  yields : Nat → Bool := fun _ => false

namespace Setting

variable {α : Type} (s : Setting α)

/-- Answer number `t`.  A wait for the lock or for the next attempt may end in either way once the
token is cancelled. -/
def answer (t : Nat) (c : Call α) : Answer α :=
  match c.phase with
  | .checking => if s.token.cancelled t then .cancelled else .proceed
  | .locking => if s.token.cancelled t && s.yields t then .cancelled else .proceed
  | .acquiring => .ofConnection (s.trial c.attempt).connection
  | .beginning _ => .ofStatement (s.trial c.attempt).begins
  | .operating _ => .ofOperation (s.trial c.attempt).operation
  | .committing _ _ => .ofStatement (s.trial c.attempt).commit
  | .rollingBack _ _ => .ofStatement (s.trial c.attempt).rollback
  | .backingOff _ => if s.token.cancelled t && s.yields t then .cancelled else .proceed
  | .finished _ => .proceed

def next (t : Nat) (c : Call α) : Call α × List Effect :=
  c.resume s.policy (s.moment c.attempt) (s.answer t c)

/-- The call after `t` answers, and its turns. -/
def history : Nat → Call α × List (Turn α)
  | 0 => ({ operation := s.name }, [])
  | t + 1 =>
    let (c, ts) := history t
    if c.result?.isSome then (c, ts)
    else ((s.next t c).1, ts ++ [⟨c.attempt, c.phase, s.answer t c, (s.next t c).2⟩])

def call (t : Nat) : Call α := (s.history t).1

def turns (t : Nat) : List (Turn α) := (s.history t).2

/-- The write comes to an end with this result, these attempts and these events. -/
def EndsWith (r : Except WriteError α) (made : List Nat) (told : List Event) : Prop :=
  ∃ n, ∀ t, n ≤ t →
    (s.call t).phase = .finished r ∧ attempts (s.turns t) = made ∧ events (s.turns t) = told

section

variable {s} {t : Nat}

theorem unfinished_iff {c : Call α} :
    c.result?.isSome = false ↔ ∀ r, c.phase ≠ .finished r := by
  unfold Call.result?
  constructor
  · intro h r hr
    simp [hr] at h
  · intro h
    split
    · exact absurd ‹_› (h _)
    · rfl

theorem history_succ (h : ∀ r, (s.call t).phase ≠ .finished r) :
    s.history (t + 1) = ((s.next t (s.call t)).1,
      s.turns t ++ [⟨(s.call t).attempt, (s.call t).phase, s.answer t (s.call t),
        (s.next t (s.call t)).2⟩]) := by
  have h' := unfinished_iff.mpr h
  rw [call] at h'
  simp only [history, h']
  rfl

theorem call_succ (h : ∀ r, (s.call t).phase ≠ .finished r) :
    s.call (t + 1) = (s.next t (s.call t)).1 := by
  rw [call, history_succ h]

theorem history_stays {r : Except WriteError α} (h : (s.call t).phase = .finished r) {u : Nat}
    (hu : t ≤ u) : s.history u = s.history t := by
  induction hu with
  | refl => rfl
  | @step u hu ih =>
    have hc : (s.history u).1.result?.isSome = true := by
      rw [ih, show (s.history t).1 = s.call t from rfl, Call.result?, h]
      rfl
    simp only [history, hc]
    exact ih

theorem answer_gives (h : ∀ r, (s.call t).phase ≠ .finished r) :
    (s.trial (s.call t).attempt).Gives (s.call t).phase (s.answer t (s.call t)) := by
  have either : ∀ b : Bool, (if b then Answer.cancelled else Answer.proceed : Answer α) = .proceed ∨
      (if b then Answer.cancelled else Answer.proceed : Answer α) = .cancelled := by
    intro b
    cases b
    · exact .inl rfl
    · exact .inr rfl
  cases hp : (s.call t).phase with
  | finished r => exact absurd hp (h r)
  | checking | locking | backingOff d =>
    simp only [answer, hp, Trial.Gives]
    exact either _
  | acquiring | beginning on | operating on | committing on v | rollingBack on e =>
    simp only [answer, hp, Trial.Gives]

theorem course (t : Nat) : Course s.policy s.name s.moment s.trial (s.call t) (s.turns t) := by
  induction t with
  | zero => exact .start
  | succ t ih =>
    by_cases h : ∀ r, (s.call t).phase ≠ .finished r
    · rw [call, turns, history_succ h]
      exact .turn ih (answer_gives h)
    · obtain ⟨r, hr⟩ : ∃ r, (s.call t).phase = .finished r := by simpa using h
      rw [call, turns, history_stays hr (Nat.le_succ t)]
      exact ih

theorem endsWith_of_finished {r : Except WriteError α} (h : (s.call t).phase = .finished r) :
    s.EndsWith r (attempts (s.turns t)) (events (s.turns t)) := by
  refine ⟨t, fun u hu => ?_⟩
  have hs := history_stays h hu
  rw [call, turns, hs]
  exact ⟨h, rfl, rfl⟩

theorem EndsWith.unique {r r' : Except WriteError α} {made made' : List Nat}
    {told told' : List Event} (h : s.EndsWith r made told) (h' : s.EndsWith r' made' told') :
    r = r' ∧ made = made' ∧ told = told' := by
  obtain ⟨n, hn⟩ := h
  obtain ⟨n', hn'⟩ := h'
  obtain ⟨h1, h2, h3⟩ := hn (max n n') (Nat.le_max_left ..)
  obtain ⟨h1', h2', h3'⟩ := hn' (max n n') (Nat.le_max_right ..)
  rw [h1] at h1'
  exact ⟨Phase.finished.inj h1', h2.symm.trans h2', h3.symm.trans h3'⟩

end

end Setting

/-! ### The end of a write -/

section

variable {α : Type}

/-- How far a phase is from the end of its attempt and the wait after it. -/
def Phase.rank : Phase α → Nat
  | .checking => 8
  | .locking => 7
  | .acquiring => 6
  | .beginning _ => 5
  | .operating _ => 4
  | .committing _ _ => 3
  | .rollingBack _ _ => 2
  | .backingOff _ => 1
  | .finished _ => 0

/-- A bound on the answers that a call may still get. -/
def Call.remaining (c : Call α) (p : RetryPolicy) : Nat :=
  9 * (p.maxAttempts - c.attempt) + c.phase.rank

theorem Call.settle_attempt (c : Call α) (p : RetryPolicy) (m : Moment) (o : Except WriteError α) :
    (c.settle p m o).1.attempt = c.attempt := by
  obtain ⟨φ, told, h, -⟩ := c.settle_cases p m o
  rw [h]

theorem Call.settle_rank (c : Call α) (p : RetryPolicy) (m : Moment) (o : Except WriteError α) :
    (c.settle p m o).1.phase.rank ≤ 1 := by
  obtain ⟨φ, told, h, -, ⟨r, rfl, -⟩ | rfl⟩ := c.settle_cases p m o
  · rw [h]
    exact Nat.zero_le _
  · rw [h]
    exact Nat.le_refl _

theorem Call.conclude_remaining_lt {c : Call α} {p : RetryPolicy} (m : Moment) (first : List Effect)
    (o : Except WriteError α) (h : 1 < c.phase.rank) :
    (conclude p first (c.settle p m o)).1.remaining p < c.remaining p := by
  have hr := c.settle_rank p m o
  have ha := c.settle_attempt p m o
  simp only [conclude, remaining, ha]
  omega

theorem Standing.remaining_lt {p : RetryPolicy} {name : String} {moment : Nat → Moment}
    {trial : Nat → Trial α} {c : Call α} {ts : List (Turn α)} {j : Nat}
    (h : Standing p name moment trial c ts j) {a : Answer α} (m : Moment)
    (ha : (trial c.attempt).Gives c.phase a) :
    (c.resume p m a).1.remaining p < c.remaining p := by
  have hs := h.stands
  have hadvance := ha.advance (p := p) (m := m)
  generalize c.resume p m a = next at hadvance ⊢
  cases hadvance with
  | line hp _ => simp [Call.remaining, Phase.rank, hp]
  | enter hp => rcases hp with ⟨hp, _⟩ | hp <;> simp [Call.remaining, Phase.rank, hp]
  | stop hp => rcases hp with hp | hp <;> simp [Call.cancelAfter, Call.remaining, Phase.rank, hp]
  | acquire hp _ | start hp _ | work hp _ | undo hp _ | revert hp _ =>
    simp [Call.remaining, Phase.rank, hp]
  | refuse hp _ | halt hp _ | keep hp _ | restore hp _ | abandon hp _ =>
    exact Call.conclude_remaining_lt m _ _ (by simp [hp, Phase.rank])
  | again hp =>
    rw [hp] at hs
    have hagain := hs.2.1
    have := h.attempt
    simp only [Call.remaining, hp, Phase.rank]
    omega
  | wake hp => simp [Call.cancelAfter, Call.remaining, Phase.rank, hp]

end

namespace Setting

variable {α : Type} (s : Setting α)

theorem finishes : ∃ t r, (s.call t).phase = .finished r := by
  have descent : ∀ n t, (s.call t).remaining s.policy ≤ n →
      ∃ u r, (s.call u).phase = .finished r := by
    intro n
    induction n with
    | zero =>
      intro t ht
      by_contra hnot
      push Not at hnot
      obtain ⟨j, hj⟩ := (s.course t).standing
      have := hj.remaining_lt {} (answer_gives (hnot t))
      omega
    | succ n ih =>
      intro t ht
      by_cases h : ∀ r, (s.call t).phase ≠ .finished r
      · obtain ⟨j, hj⟩ := (s.course t).standing
        have hlt := hj.remaining_lt (s.moment (s.call t).attempt) (answer_gives h)
        refine ih (t + 1) ?_
        rw [call_succ h, next]
        omega
      · exact ⟨t, by simpa using h⟩
  exact descent _ 0 (Nat.le_refl _)

end Setting

end SingleWriter.Write
