import SingleWriter.Proofs.Setting
import SingleWriter.Proofs.SerialOrder

/-! Every call of a run takes a course of its own.  The answers that a call gets in an attempt make
up its trial, so what holds of courses holds of each of the many writes of a scene. -/

namespace SingleWriter.Write

section

variable {α : Type}

namespace Answer

def connection : Answer α → Except ConnectionError ConnectionId
  | .acquired on => .ok on
  | .refused e => .error e
  | _ => .error .closed

def statement : Answer α → Except WriteError Unit
  | .failed e => .error e
  | _ => .ok ()

def operation : Answer α → Except WriteError α
  | .value v => .ok v
  | .failed e => .error e
  | _ => .error (.other "")

theorem ofConnection_connection {a : Answer α} {r : Except ConnectionError ConnectionId}
    (h : a = .ofConnection r) : a = .ofConnection a.connection := by
  subst h
  cases r <;> rfl

theorem ofStatement_statement {a : Answer α} {r : Except WriteError Unit}
    (h : a = .ofStatement r) : a = .ofStatement a.statement := by
  subst h
  cases r <;> rfl

theorem ofOperation_operation {a : Answer α} {r : Except WriteError α}
    (h : a = .ofOperation r) : a = .ofOperation a.operation := by
  subst h
  cases r <;> rfl

end Answer

namespace Trial

def closed : Trial α := ⟨.error .closed, .ok (), .error (.other ""), .ok (), .ok ()⟩

/-- The trial with what the answer in a phase says of it. -/
def learn (t : Trial α) (φ : Phase α) (a : Answer α) : Trial α :=
  match φ with
  | .acquiring => { t with connection := a.connection }
  | .beginning _ => { t with begins := a.statement }
  | .operating _ => { t with operation := a.operation }
  | .committing _ _ => { t with commit := a.statement }
  | .rollingBack _ _ => { t with rollback := a.statement }
  | _ => t

variable {t t' : Trial α} {φ ψ : Phase α} {a a' : Answer α}

theorem Gives.learn (h : t.Gives φ a) : (t'.learn φ a).Gives φ a := by
  cases φ with
  | checking | locking | backingOff d | finished r => exact h
  | acquiring => exact Answer.ofConnection_connection h
  | beginning on | committing on v | rollingBack on e => exact Answer.ofStatement_statement h
  | operating on => exact Answer.ofOperation_operation h

theorem Gives.learn_later (h : t.Gives ψ a') (hlt : φ.rank < ψ.rank) :
    (t.learn φ a).Gives ψ a' := by
  cases φ with
  | checking | locking | backingOff d | finished r => exact h
  | acquiring | beginning on | operating on | committing on v | rollingBack on e =>
    cases ψ <;>
      first
      | exact h
      | exact absurd hlt (Nat.not_lt_of_le (Nat.le_of_ble_eq_true rfl))

end Trial

theorem Advance.later {p : RetryPolicy} {m : Moment} {t : Trial α} {c : Call α} {a : Answer α}
    {next : Call α × List Effect} (h : Advance p m t c a next) :
    c.attempt < next.1.attempt ∨
      next.1.attempt = c.attempt ∧ next.1.phase.rank < c.phase.rank := by
  cases h with
  | line hp _ => exact .inr ⟨rfl, by simp [Phase.rank, hp]⟩
  | enter hp => rcases hp with ⟨hp, _⟩ | hp <;> exact .inr ⟨rfl, by simp [Phase.rank, hp]⟩
  | stop hp =>
    rcases hp with hp | hp <;> exact .inr ⟨rfl, by simp [Call.cancelAfter, Phase.rank, hp]⟩
  | wake hp => exact .inr ⟨rfl, by simp [Call.cancelAfter, Phase.rank, hp]⟩
  | acquire hp _ | start hp _ | work hp _ | undo hp _ | revert hp _ =>
    exact .inr ⟨rfl, by simp [Phase.rank, hp]⟩
  | refuse hp _ | halt hp _ | keep hp _ | restore hp _ | abandon hp _ =>
    refine .inr ⟨Call.settle_attempt .., Nat.lt_of_le_of_lt (Call.settle_rank ..) ?_⟩
    rw [hp]
    simp [Phase.rank]
  | again => exact .inl (Nat.lt_succ_self _)

end

namespace Scene

variable {K Q R α : Type} {b : Backend K Q R} {w : Workload Q R α} {s s' s₀ : Scene b α} {i : Nat}
  {ls : List (Label α)}

theorem turnsOf_concat (ls : List (Label α)) (l : Label α) :
    turnsOf i (ls ++ [l]) = turnsOf i ls ++ (l.turnOf? i).toList := by
  cases h : l.turnOf? i <;> simp [turnsOf, h]

theorem Serves.gives {a : Answer α} (h : s.Serves i a s') :
    ∃ t : Trial α, t.Gives (s.calls i).phase a := by
  cases h with
  | checked hp ha => exact ⟨.closed, by rw [hp]; exact ha⟩
  | entered hp _ => exact ⟨.closed, by rw [hp]; exact .inl rfl⟩
  | left hp => exact ⟨.closed, by rw [hp]; exact .inr rfl⟩
  | @lent c p hp _ => exact ⟨{ Trial.closed with connection := .ok c }, by rw [hp]; rfl⟩
  | opened hp _ => exact ⟨{ Trial.closed with connection := .ok s.next }, by rw [hp]; rfl⟩
  | @refused e hp => exact ⟨{ Trial.closed with connection := .error e }, by rw [hp]; rfl⟩
  | @begins on r state hp _ =>
    exact ⟨{ Trial.closed with begins := r.mapError .sql }, by rw [hp]; rfl⟩
  | @worked on r hp _ => exact ⟨{ (Trial.closed : Trial α) with operation := r }, by rw [hp]; rfl⟩
  | @commit on v r state hp _ =>
    exact ⟨{ Trial.closed with commit := r.mapError .sql }, by rw [hp]; rfl⟩
  | @rollback on e r state hp _ =>
    exact ⟨{ Trial.closed with rollback := r.mapError .sql }, by rw [hp]; rfl⟩
  | woken hp ha => exact ⟨.closed, by rw [hp]; exact ha⟩

theorem Step.answers {l : Label α} (h : s.Step w l s') (i : Nat) :
    l.turnOf? i = none ∧ s'.calls i = s.calls i ∨
      ∃ (a : Answer α) (t : Trial α), l.turnOf? i = some (s.turn w i a) ∧
        s'.calls i = (s.resumed w i a).1 ∧ t.Gives (s.calls i).phase a ∧ s'.left i = none ∧
        ∀ on, (s.calls i).phase = .operating on → s.left i ≠ none := by
  cases h with
  | @turn j a u keep hserves =>
    by_cases hj : j = i
    · subst hj
      obtain ⟨t, ht⟩ := hserves.gives
      have hcalls : u.calls = s.calls := by cases hserves <;> rfl
      have hresumed : u.resumed w j a = s.resumed w j a := by rw [resumed, hcalls, ← resumed]
      refine .inr ⟨a, t, by simp [Label.turnOf?], ?_, ht, ?_, fun on hp => ?_⟩
      · rw [answered, (foldl_fulfil keep _ _).1, hresumed]
        exact Function.update_self ..
      · rw [answered, (foldl_fulfil keep _ _).2.1]
        exact Function.update_self ..
      · cases hserves with
        | worked _ hleft =>
          rw [hleft]
          simp
        | checked hp' | entered hp' | left hp' | lent hp' | opened hp' | refused hp' | begins hp'
        | commit hp' | rollback hp' | woken hp' =>
          rw [hp'] at hp
          cases hp
    · refine .inl ⟨by simp [Label.turnOf?, hj], ?_⟩
      exact ((hserves.turned (w := w) keep).elsewhere fun h => hj h.symm).1
  | invoke | ask | lineUp | queue | place | renew | refill => exact .inl ⟨rfl, rfl⟩

theorem Run.later (hrun : s₀.Run w ls s) : ∀ t ∈ turnsOf i ls,
    t.attempt < (s.calls i).attempt ∨
      t.attempt = (s.calls i).attempt ∧ (s.calls i).phase.rank < t.phase.rank := by
  induction hrun with
  | start => simp [turnsOf]
  | @step ls l m s' _ hstep ih =>
    intro t ht
    rw [turnsOf_concat] at ht
    rcases hstep.answers i with ⟨hl, hcalls⟩ | ⟨a, u, hl, hcalls, hu, -⟩
    · rw [hl] at ht
      rw [hcalls]
      exact ih t (by simpa using ht)
    · have hnext := (hu.advance (p := w.policy) (m := w.moment i (m.calls i).attempt)).later
      rw [← resumed, ← hcalls] at hnext
      rw [hl] at ht
      rcases List.mem_append.mp ht with ht | ht
      · rcases ih t ht with hlt | ⟨heq, hlt⟩
        · exact .inl (by omega)
        · omega
      · obtain rfl : t = m.turn w i a := by simpa using ht
        rcases hnext with hlt | ⟨heq, hlt⟩
        · exact .inl hlt
        · exact .inr ⟨heq.symm, hlt⟩

/-- The turns of a call are what its trials make of it. -/
def Agrees (trial : Nat → Trial α) (ts : List (Turn α)) : Prop :=
  ∀ t ∈ ts, (trial t.attempt).Gives t.phase t.answer

/-- The answers of a run make up trials. -/
theorem Run.trials (hrun : s₀.Run w ls s) (i : Nat) : ∃ trial, Agrees trial (turnsOf i ls) := by
  induction hrun with
  | start =>
    exact ⟨fun _ => .closed, by simp [Agrees, turnsOf]⟩
  | @step ls l m s' hrun hstep ih =>
    obtain ⟨trial, htrial⟩ := ih
    rcases hstep.answers i with ⟨hl, -⟩ | ⟨a, u, hl, -, hu, -⟩
    · refine ⟨trial, ?_⟩
      rw [turnsOf_concat, hl]
      simpa using htrial
    · -- the trial of the current attempt is only asked for what earlier phases have told
      let k := (m.calls i).attempt
      refine ⟨Function.update trial k ((trial k).learn (m.calls i).phase a), fun t ht => ?_⟩
      rw [turnsOf_concat, hl] at ht
      rcases List.mem_append.mp ht with ht | ht
      · have hgives := htrial t ht
        rcases hrun.later t ht with hlt | ⟨heq, hlt⟩
        · rw [Function.update_of_ne (Nat.ne_of_lt hlt)]
          exact hgives
        · rw [heq] at hgives ⊢
          rw [Function.update_self]
          exact hgives.learn_later hlt
      · obtain rfl : t = m.turn w i a := by simpa using ht
        show (Function.update trial k _ k).Gives _ _
        rw [Function.update_self]
        exact hu.learn

theorem Run.course (h : s₀.Initial w) (hrun : s₀.Run w ls s) {trial : Nat → Trial α}
    (htrial : Agrees trial (turnsOf i ls)) :
    Course w.policy (w.name i) (w.moment i) trial (s.calls i) (turnsOf i ls) := by
  induction hrun with
  | start =>
    rw [h.calls i]
    exact .start
  | @step ls l m s' _ hstep ih =>
    rw [turnsOf_concat] at htrial ⊢
    have hcourse := ih fun t ht => htrial t (List.mem_append_left _ ht)
    rcases hstep.answers i with ⟨hl, hcalls⟩ | ⟨a, u, hl, hcalls, -⟩
    · rw [hl, hcalls]
      simpa using hcourse
    · rw [hl, hcalls]
      refine .turn hcourse (htrial (m.turn w i a) ?_)
      rw [hl]
      exact List.mem_append_right _ (List.mem_singleton_self _)

end Scene

end SingleWriter.Write
