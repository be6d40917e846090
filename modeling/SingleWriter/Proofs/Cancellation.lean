import SingleWriter.Proofs.Retries

/-! What a token does to a write.  It is looked at before an attempt, in the wait for the lock and
in the wait for the next attempt.  A write that it ends has made only attempts that failed in ways
that may pass, and one that it does not end is the write without a token. -/

namespace SingleWriter.Write

section

variable {α : Type}

/-- The attempts that a call has made when its token ends it. -/
def Call.completed (c : Call α) : Nat :=
  match c.phase with
  | .backingOff _ => c.attempt
  | _ => c.attempt - 1

theorem Call.settle_phase (c : Call α) (φ : Phase α) (p : RetryPolicy) (m : Moment)
    (o : Except WriteError α) : ({ c with phase := φ } : Call α).settle p m o = c.settle p m o := by
  cases o <;> rfl

variable {p : RetryPolicy} {name : String} {moment : Nat → Moment} {trial : Nat → Trial α}
  {c : Call α} {ts : List (Turn α)} {j : Nat}

theorem Standing.of_cancelled (h : Standing p name moment trial c ts j) (m : Moment)
    (ha : (trial c.attempt).Gives c.phase .cancelled) :
    c.completed < p.maxAttempts ∧ Repeats trial c.completed ∧
      Logged p name moment trial ts c.completed c.completed ∧ c.phase ≠ .acquiring ∧
      c.resume p m .cancelled = c.cancelAfter c.completed := by
  have hs := h.stands
  have hj := h.attempt
  have hadvance := ha.advance (p := p) (m := m)
  generalize c.resume p m .cancelled = next at hadvance ⊢
  cases hadvance with
  | stop hp =>
    have hdone : c.completed = j := by
      rcases hp with hp | hp <;> simp [Call.completed, hp, hj]
    have hlog : Logged p name moment trial ts j j := by
      rcases hp with hp | hp <;> (rw [hp] at hs; exact hs)
    have hnot : c.phase ≠ .acquiring := by
      rcases hp with hp | hp <;> simp [hp]
    rw [hdone, hj, Nat.add_sub_cancel]
    exact ⟨h.within, h.repeats, hlog, hnot, rfl⟩
  | wake hp =>
    rw [hp] at hs
    obtain ⟨hlog, hagain, hrep⟩ := hs
    rw [Call.completed, hp, hj]
    exact ⟨hagain, hrep, hlog, by simp, rfl⟩

/-- A step inside an attempt, which the token has no part in: the attempt goes on or comes to its
outcome. -/
theorem Standing.inside (h : Standing p name moment trial c ts j) (m : Moment) {a : Answer α}
    (ha : (trial c.attempt).Gives c.phase a) (hc : c.attempting = true) :
    a ≠ .cancelled ∧
      ((∃ φ, (c.resume p m a).1 = { c with phase := φ } ∧
          (c.resume p m a).1.attempting = true ∧ φ.rank < c.phase.rank) ∨
        (c.resume p m a).1 = (c.settle p m (trial c.attempt).outcome).1) := by
  have hs := h.stands
  have hadvance := ha.advance (p := p) (m := m)
  have hstand {φ : Phase α} (hp : c.phase = φ) : Stands p name moment trial ts j φ := hp ▸ hs
  have houtside {φ : Phase α} (hp : c.phase = φ)
      (hφ : ({ c with phase := φ } : Call α).attempting = false) : False := by
    rw [← hp] at hφ
    rw [hφ] at hc
    cases hc
  have htrial : trial c.attempt = trial (j + 1) := by rw [h.attempt]
  generalize c.resume p m a = next at hadvance ⊢
  rw [htrial] at hadvance ⊢
  cases hadvance with
  | line hp _ => exact (houtside hp rfl).elim
  | enter hp => rcases hp with ⟨hp, _⟩ | hp <;> exact (houtside hp rfl).elim
  | stop hp => rcases hp with hp | hp <;> exact (houtside hp rfl).elim
  | again hp | wake hp => exact (houtside hp rfl).elim
  | acquire hp _ | start hp _ | work hp _ | undo hp _ | revert hp _ =>
    refine ⟨by simp, .inl ⟨_, rfl, rfl, ?_⟩⟩
    rw [hp]
    simp [Phase.rank]
  | refuse hp hc =>
    rw [Trial.outcome_of_refused hc]
    exact ⟨by simp, .inr rfl⟩
  | halt hp hc =>
    rw [Trial.outcome_of_begins (hstand hp).2 hc]
    exact ⟨by simp, .inr rfl⟩
  | keep hp hc =>
    obtain ⟨-, hon, hb, hv⟩ := hstand hp
    rw [Trial.outcome_of_ok hon hb hv hc]
    exact ⟨by simp, .inr rfl⟩
  | restore hp _ | abandon hp _ =>
    obtain ⟨-, -, -, ho⟩ := hstand hp
    rw [ho]
    exact ⟨by simp, .inr rfl⟩

end

namespace Setting

variable {α : Type} (s : Setting α)

/-- The token ends the write after `a` attempts. -/
def StoppedAfter (a : Nat) : Prop :=
  a < s.policy.maxAttempts ∧ Repeats s.trial a ∧
    s.EndsWith (.error (.cancelled s.name a)) (List.range' 1 a)
      (s.retries a ++ [.cancelled s.name a])

/-- The write comes to the same end as without a token. -/
def Unmoved : Prop :=
  ∀ r made told, s.EndsWith r made told ↔ s.uncancelled.EndsWith r made told

variable {s} {t : Nat}

theorem stoppedAfter_of_answer (h : ∀ r, (s.call t).phase ≠ .finished r)
    (ha : s.answer t (s.call t) = .cancelled) : s.StoppedAfter (s.call t).completed := by
  obtain ⟨j, hj⟩ := (s.course t).standing
  have hgives := answer_gives h
  rw [ha] at hgives
  obtain ⟨hlt, hrep, hlog, hnot, hresume⟩ := hj.of_cancelled (s.moment (s.call t).attempt) hgives
  refine ⟨hlt, hrep, ?_⟩
  have hnext : s.next t (s.call t) = (s.call t).cancelAfter (s.call t).completed := by
    rw [next, ha, hresume]
  have hfinished : (s.call (t + 1)).phase =
      .finished (.error (.cancelled s.name (s.call t).completed)) := by
    rw [call_succ h, hnext, Call.cancelAfter, hj.operation]
  have hmade : attempts (s.turns (t + 1)) = List.range' 1 (s.call t).completed := by
    rw [turns, history_succ h]
    refine hlog.made ?_
    unfold Turn.made?
    split
    · contradiction
    · rfl
  have htold : events (s.turns (t + 1)) =
      s.retries (s.call t).completed ++ [.cancelled s.name (s.call t).completed] := by
    rw [turns, history_succ h, events_concat, hlog.2, hnext, Call.cancelAfter, hj.operation]
    rfl
  rw [← hmade, ← htold]
  exact endsWith_of_finished hfinished

theorem answer_ne_cancelled_of_finished {r : Except WriteError α}
    (h : (s.call t).phase = .finished r) : s.answer t (s.call t) ≠ .cancelled := by
  rw [answer, h]
  simp

theorem answer_ne_cancelled_of_unfinished (h : ∀ r, (s.call t).phase ≠ .finished r) {u : Nat}
    (hu : u < t) : s.answer u (s.call u) ≠ .cancelled := by
  intro ha
  by_cases hu' : ∀ r, (s.call u).phase ≠ .finished r
  · obtain ⟨j, hj⟩ := (s.course u).standing
    have hgives := answer_gives hu'
    rw [ha] at hgives
    obtain ⟨-, -, -, -, hresume⟩ := hj.of_cancelled (s.moment (s.call u).attempt) hgives
    have hfinished : (s.call (u + 1)).phase =
        .finished (.error (.cancelled (s.call u).operation (s.call u).completed)) := by
      rw [call_succ hu', next, ha, hresume, Call.cancelAfter]
    have hstays := history_stays hfinished (show u + 1 ≤ t by omega)
    exact h _ (by rw [call, hstays]; exact hfinished)
  · obtain ⟨r, hr⟩ : ∃ r, (s.call u).phase = .finished r := by simpa using hu'
    exact answer_ne_cancelled_of_finished hr ha

theorem answer_agrees {c : Call α} (h : s.answer t c ≠ .cancelled) :
    s.uncancelled.answer t c = s.answer t c := by
  unfold answer at h ⊢
  cases hp : c.phase with
  | checking | locking | backingOff d =>
    simp only [hp] at h ⊢
    rw [if_neg (by simp [uncancelled, Token.never])]
    split
    · rename_i hc
      rw [if_pos hc] at h
      contradiction
    · rfl
  | acquiring | beginning on | operating on | committing on v | rollingBack on e | finished r => rfl

/-- Up to the first answer that the token gives, the write is the one without it. -/
theorem history_agrees (h : ∀ u, u < t → s.answer u (s.call u) ≠ .cancelled) :
    s.uncancelled.history t = s.history t := by
  induction t with
  | zero => rfl
  | succ t ih =>
    have ih := ih fun u hu => h u (by omega)
    have ha := answer_agrees (h t (Nat.lt_succ_self t))
    rw [call] at ha
    simp only [history, ih, next, ha]
    rfl

theorem unmoved_of_answers (h : ∀ u, s.answer u (s.call u) ≠ .cancelled) : s.Unmoved := by
  intro r made told
  have hagrees (t : Nat) : s.uncancelled.history t = s.history t := history_agrees fun u _ => h u
  simp only [EndsWith, call, turns, hagrees]

theorem attempt_ends (h : (s.call t).attempting = true) :
    ∃ u, t < u ∧
      s.call u = ((s.call t).settle s.policy (s.moment (s.call t).attempt)
        (s.trial (s.call t).attempt).outcome).1 ∧
      ∀ v, v < u → s.answer v (s.call v) ≠ .cancelled := by
  -- by induction on the steps that the attempt may still take
  have descent : ∀ n t, (s.call t).phase.rank ≤ n → (s.call t).attempting = true →
      ∃ u, t < u ∧
        s.call u = ((s.call t).settle s.policy (s.moment (s.call t).attempt)
          (s.trial (s.call t).attempt).outcome).1 ∧
        ∀ v, v < u → s.answer v (s.call v) ≠ .cancelled := by
    intro n
    induction n with
    | zero =>
      intro t ht hc
      cases hp : (s.call t).phase <;>
        simp [hp, Phase.rank, Call.attempting, Call.connection?] at ht hc
    | succ n ih =>
      intro t ht hc
      have hgoes : ∀ r, (s.call t).phase ≠ .finished r := by
        intro r hr
        simp [Call.attempting, Call.connection?, hr] at hc
      have hbefore {v : Nat} (hv : v < t) := answer_ne_cancelled_of_unfinished hgoes hv
      obtain ⟨j, hj⟩ := (s.course t).standing
      obtain ⟨hnot, ⟨φ, hnext, hinside, hrank⟩ | hnext⟩ :=
        hj.inside (s.moment (s.call t).attempt) (answer_gives hgoes) hc
      · have hsucc : s.call (t + 1) = { s.call t with phase := φ } := by
          rw [call_succ hgoes, next, hnext]
        have hinside' : (s.call (t + 1)).attempting = true := by
          rw [call_succ hgoes, next]
          exact hinside
        have hrank' : (s.call (t + 1)).phase.rank ≤ n := by
          rw [hsucc]
          show φ.rank ≤ n
          omega
        obtain ⟨u, htu, hu, hanswers⟩ := ih (t + 1) hrank' hinside'
        rw [hsucc, Call.settle_phase] at hu
        exact ⟨u, by omega, hu, hanswers⟩
      · refine ⟨t + 1, Nat.lt_succ_self t, ?_, fun v hv => ?_⟩
        · rw [call_succ hgoes, next, hnext]
        · rcases Nat.lt_or_eq_of_le (Nat.le_of_lt_succ hv) with hv | rfl
          · exact hbefore hv
          · exact hnot
  exact descent _ t (Nat.le_refl _) h

theorem stopped_or_unmoved (s : Setting α) : (∃ a, s.StoppedAfter a) ∨ s.Unmoved := by
  by_cases h : ∃ t, s.answer t (s.call t) = .cancelled
  · obtain ⟨t, ht⟩ := h
    refine .inl ⟨_, stoppedAfter_of_answer (t := t) (fun r hr => ?_) ht⟩
    exact answer_ne_cancelled_of_finished hr ht
  · exact .inr (unmoved_of_answers fun u hu => h ⟨u, hu⟩)

theorem stopped_at_check (hc : s.token.cancelled t = true) (hp : (s.call t).phase = .checking) :
    s.StoppedAfter ((s.call t).attempt - 1) := by
  have ha : s.answer t (s.call t) = .cancelled := by simp [answer, hp, hc]
  have hstop := stoppedAfter_of_answer (by simp [hp]) ha
  rwa [Call.completed, hp] at hstop

theorem stopped_in_backoff {d : Duration} (hc : s.token.cancelled t = true)
    (hp : (s.call t).phase = .backingOff d) : s.StoppedAfter (s.call t).attempt := by
  have hgoes : ∀ r, (s.call t).phase ≠ .finished r := by
    rw [hp]
    simp
  by_cases hy : s.yields t = true
  · have ha : s.answer t (s.call t) = .cancelled := by simp [answer, hp, hc, hy]
    have hstop := stoppedAfter_of_answer hgoes ha
    rwa [Call.completed, hp] at hstop
  · have ha : s.answer t (s.call t) = .proceed := by simp [answer, hp, hy]
    have hsucc : s.call (t + 1) =
        { s.call t with attempt := (s.call t).attempt + 1, phase := .checking } := by
      rw [call_succ hgoes, next, ha]
      simp only [Call.resume, hp]
    have hstop := stopped_at_check (s.token.stays t hc) (by rw [hsucc])
    rwa [hsucc] at hstop

theorem stopped_after_attempt (hc : s.token.cancelled t = true)
    (h : (s.call t).attempting = true) (hpass : (s.trial (s.call t).attempt).Passes)
    (hlt : (s.call t).attempt < s.policy.maxAttempts) : s.StoppedAfter (s.call t).attempt := by
  obtain ⟨u, htu, hu, -⟩ := attempt_ends h
  obtain ⟨e, ho, hpass⟩ := hpass
  rw [ho, Call.settle, Call.fail_again hpass hlt] at hu
  have hstop := stopped_in_backoff (s.token.mono hc (Nat.le_of_lt htu)) (by rw [hu])
  rwa [hu] at hstop

theorem decided_by_attempt (h : (s.call t).attempting = true)
    (hlast : (s.trial (s.call t).attempt).Passes →
      s.policy.maxAttempts ≤ (s.call t).attempt) :
    s.Unmoved ∧ ∀ v, (s.trial (s.call t).attempt).outcome = .ok v →
      ∃ made told, s.EndsWith (.ok v) made told := by
  obtain ⟨u, htu, hu, hanswers⟩ := attempt_ends h
  have hfinished : ∃ r, (s.call u).phase = .finished r ∧
      ∀ v, (s.trial (s.call t).attempt).outcome = .ok v → r = .ok v := by
    rw [hu]
    cases ho : (s.trial (s.call t).attempt).outcome with
    | ok v => exact ⟨.ok v, rfl, fun v' hv' => hv'⟩
    | error e =>
      rw [Call.settle]
      cases hpass : e.isTransient with
      | false =>
        rw [Call.fail_fatal hpass]
        exact ⟨_, rfl, by simp⟩
      | true =>
        rw [Call.fail_last hpass (hlast ⟨e, ho, hpass⟩)]
        exact ⟨_, rfl, by simp⟩
  obtain ⟨r, hr, hv⟩ := hfinished
  refine ⟨unmoved_of_answers fun v => ?_, fun v ho => ?_⟩
  · by_cases hvu : v < u
    · exact hanswers v hvu
    · have hv : (s.call v).phase = .finished r := by
        rw [call, history_stays hr (by omega)]
        exact hr
      exact answer_ne_cancelled_of_finished hv
  · rw [hv v ho] at hr
    exact ⟨_, _, endsWith_of_finished hr⟩

theorem stopped_of_result {a : Nat} {made : List Nat} {told : List Event}
    (h : s.EndsWith (.error (.cancelled s.name a)) made told)
    (hself : ∀ i, (s.trial i).outcome ≠ .error (.cancelled s.name a)) : s.StoppedAfter a := by
  rcases s.stopped_or_unmoved with ⟨b, hb⟩ | hsame
  · obtain ⟨hr, -, -⟩ := hb.2.2.unique h
    cases hr
    exact hb
  · have hends := (hsame _ _ _).mp h
    rcases s.uncancelled_ends with ⟨j, v, -, -, hj⟩ | ⟨j, e, -, ho, hj⟩ | ⟨-, e, -, hj⟩
    · cases (hends.unique hj).1
    · obtain ⟨heq, -, -⟩ := hends.unique hj
      cases heq
      exact absurd ho (hself j)
    · cases (hends.unique hj).1

/-- A token ends a write between two attempts or has no effect.  It ends a write when it is
cancelled before the call, by the end of an attempt that is to be followed by another one, or in the
wait after it; it has no effect once the last attempt has begun. -/
theorem token_outcome (s : Setting α) :
    ((∃ a, s.StoppedAfter a) ∨ s.Unmoved) ∧
    (∀ a made told, s.EndsWith (.error (.cancelled s.name a)) made told →
      (∀ i, (s.trial i).outcome ≠ .error (.cancelled s.name a)) → s.StoppedAfter a) ∧
    (s.token.cancelled 0 = true → s.StoppedAfter 0) ∧
    (∀ t, s.token.cancelled t = true → (s.call t).attempting = true →
      (s.trial (s.call t).attempt).Passes → (s.call t).attempt < s.policy.maxAttempts →
      s.StoppedAfter (s.call t).attempt) ∧
    (∀ t d, s.token.cancelled t = true → (s.call t).phase = .backingOff d →
      s.StoppedAfter (s.call t).attempt) ∧
    (∀ t, (s.call t).attempting = true →
      ((s.trial (s.call t).attempt).Passes → s.policy.maxAttempts ≤ (s.call t).attempt) →
      s.Unmoved ∧ ∀ v, (s.trial (s.call t).attempt).outcome = .ok v →
        ∃ made told, s.EndsWith (.ok v) made told) := by
  refine ⟨s.stopped_or_unmoved, fun a made told h hself => stopped_of_result h hself, fun hc => ?_,
    fun t hc h hpass hlt => stopped_after_attempt hc h hpass hlt,
    fun t d hc hp => stopped_in_backoff hc hp, fun t h hlast => decided_by_attempt h hlast⟩
  exact stopped_at_check hc rfl

/-- A write whose token is cancelled in the wait after the first attempt. -/
def interrupted : Setting Unit :=
  { lockedFirst with token := ⟨fun t => decide (5 ≤ t), by simp; omega⟩ }

theorem token_outcome_interrupted :
    (∃ d, (interrupted.call 5).phase = .backingOff d) ∧ interrupted.StoppedAfter 1 := by
  obtain ⟨d, hd⟩ : ∃ d, (interrupted.call 5).phase = .backingOff d := ⟨_, rfl⟩
  exact ⟨⟨d, hd⟩, (token_outcome interrupted).2.2.2.2.1 5 d rfl hd⟩

/-- A write without a token whose operation says that it was cancelled after two attempts. -/
def selfCancelled : Setting Unit where
  policy := {}
  trial := fun _ =>
    { connection := .ok 0
      begins := .ok ()
      operation := .error (.cancelled defaultName 2)
      commit := .ok ()
      rollback := .ok () }

/-- An error of the operation is returned as it is, be it the one that the token leads to. -/
theorem selfCancelled_not_stopped :
    selfCancelled.EndsWith (.error (.cancelled selfCancelled.name 2)) [1] [] ∧
      ¬selfCancelled.StoppedAfter 2 := by
  have hends : selfCancelled.EndsWith (.error (.cancelled selfCancelled.name 2)) [1] [] :=
    endsWith_of_finished (t := 5) rfl
  refine ⟨hends, fun ⟨_, _, hstop⟩ => ?_⟩
  obtain ⟨-, hmade, -⟩ := hends.unique hstop
  exact absurd hmade (by decide)

end Setting

end SingleWriter.Write
