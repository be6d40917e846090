import SingleWriter.Write.Call

/-! The course of one write through its attempts.  A trial says how the steps of an attempt turn
out, and a course is a run of a call in which every answer is the one of its trial, or one that the
lock, the clock and the token may give.  `Course.standing` says at each point of a course which
attempts were made and which events were told, and `Ended` says the same of a write that is over. -/

namespace SingleWriter.Write

/-- How the steps of one attempt turn out, should the attempt come to them. -/
structure Trial (α : Type) where
  connection : Except ConnectionError ConnectionId
  begins : Except WriteError Unit
  operation : Except WriteError α
  commit : Except WriteError Unit
  rollback : Except WriteError Unit

namespace Answer

variable {α : Type}

def ofConnection : Except ConnectionError ConnectionId → Answer α
  | .ok on => .acquired on
  | .error e => .refused e

def ofStatement : Except WriteError Unit → Answer α
  | .ok () => .proceed
  | .error e => .failed e

def ofOperation : Except WriteError α → Answer α
  | .ok v => .value v
  | .error e => .failed e

end Answer

namespace Trial

variable {α : Type}

/-- What the attempt comes to: the value of the operation, or the error of the first step that
fails.  The rollback has no say in it. -/
def outcome (t : Trial α) : Except WriteError α :=
  match t.connection, t.begins, t.operation, t.commit with
  | .error e, _, _, _ => .error (.connection e)
  | .ok _, .error e, _, _ => .error e
  | .ok _, .ok (), .error e, _ => .error e
  | .ok _, .ok (), .ok _, .error e => .error e
  | .ok _, .ok (), .ok v, .ok () => .ok v

def invokes (t : Trial α) : Bool := t.connection.toOption.isSome && t.begins.toOption.isSome

/-- Whether the attempt fails in a way that may pass. -/
def Passes (t : Trial α) : Prop := ∃ e, t.outcome = .error e ∧ e.isTransient = true

def text (t : Trial α) : String :=
  match t.outcome with
  | .error e => e.message
  | .ok _ => ""

/-- The answers that a call may get in a phase.  Inside an attempt there is one; elsewhere it
depends on the token, the lock and the clock. -/
def Gives (t : Trial α) : Phase α → Answer α → Prop
  | .checking, a => a = .proceed ∨ a = .cancelled
  | .locking, a => a = .proceed ∨ a = .cancelled
  | .acquiring, a => a = .ofConnection t.connection
  | .beginning _, a => a = .ofStatement t.begins
  | .operating _, a => a = .ofOperation t.operation
  | .committing _ _, a => a = .ofStatement t.commit
  | .rollingBack _ _, a => a = .ofStatement t.rollback
  | .backingOff _, a => a = .proceed ∨ a = .cancelled
  | .finished _, _ => False

section Outcome

variable {t : Trial α} {on : ConnectionId} {v : α} {e : WriteError}

theorem outcome_of_refused {e : ConnectionError} (h : t.connection = .error e) :
    t.outcome = .error (.connection e) := by
  simp [outcome, h]

theorem outcome_of_begins (h : t.connection = .ok on) (hb : t.begins = .error e) :
    t.outcome = .error e := by
  simp [outcome, h, hb]

theorem outcome_of_operation (h : t.connection = .ok on) (hb : t.begins = .ok ())
    (ho : t.operation = .error e) : t.outcome = .error e := by
  simp [outcome, h, hb, ho]

theorem outcome_of_commit (h : t.connection = .ok on) (hb : t.begins = .ok ())
    (ho : t.operation = .ok v) (hc : t.commit = .error e) : t.outcome = .error e := by
  simp [outcome, h, hb, ho, hc]

theorem outcome_of_ok (h : t.connection = .ok on) (hb : t.begins = .ok ())
    (ho : t.operation = .ok v) (hc : t.commit = .ok ()) : t.outcome = .ok v := by
  simp [outcome, h, hb, ho, hc]

theorem invokes_of_ok (h : t.connection = .ok on) (hb : t.begins = .ok ()) : t.invokes = true := by
  simp [invokes, h, hb, Except.toOption]

theorem invokes_of_refused {e : ConnectionError} (h : t.connection = .error e) :
    t.invokes = false := by
  simp [invokes, h, Except.toOption]

theorem invokes_of_begins (h : t.begins = .error e) : t.invokes = false := by
  simp [invokes, h, Except.toOption]

end Outcome

end Trial

/-- One answer to a call: where the call was and what it had done. -/
structure Turn (α : Type) where
  attempt : Nat
  phase : Phase α
  answer : Answer α
  effects : List Effect

def Effect.event? : Effect → Option Event
  | .emit e => some e
  | _ => none

section

variable {α : Type}

def events (ts : List (Turn α)) : List Event :=
  ts.flatMap fun t => t.effects.filterMap Effect.event?

/-- The number of the attempt that a turn makes: the one that asks for a connection. -/
def Turn.made? (t : Turn α) : Option Nat :=
  match t.phase with
  | .acquiring => some t.attempt
  | _ => none

def attempts (ts : List (Turn α)) : List Nat := ts.filterMap Turn.made?

@[simp] theorem events_nil : events ([] : List (Turn α)) = [] := rfl

@[simp] theorem attempts_nil : attempts ([] : List (Turn α)) = [] := rfl

theorem events_concat (ts : List (Turn α)) (t : Turn α) :
    events (ts ++ [t]) = events ts ++ t.effects.filterMap Effect.event? := by
  simp [events]

theorem attempts_concat (ts : List (Turn α)) (t : Turn α) :
    attempts (ts ++ [t]) = attempts ts ++ t.made?.toList := by
  cases h : t.made? <;> simp [attempts, h]

@[simp] theorem filterMap_unlocking (p : RetryPolicy) :
    (Call.unlocking p).filterMap Effect.event? = [] := by
  unfold Call.unlocking
  cases p.strategy <;> rfl

theorem filterMap_conclude (p : RetryPolicy) {first : List Effect}
    (hfirst : first.filterMap Effect.event? = []) (next : Call α × List Effect) :
    (Call.conclude p first next).2.filterMap Effect.event? =
      next.2.filterMap Effect.event? := by
  simp [Call.conclude, hfirst]

/-- What follows an attempt of a known outcome. -/
def Call.settle (c : Call α) (p : RetryPolicy) (m : Moment) :
    Except WriteError α → Call α × List Effect
  | .ok v => c.succeed m v
  | .error e => c.fail p m e

end

/-! ### The steps of a call -/

section

variable {α : Type} (p : RetryPolicy) (m : Moment) (t : Trial α) (c : Call α)

/-- What the answers that a trial gives make of a call, case by case. -/
inductive Advance : Answer α → Call α × List Effect → Prop
  | line : c.phase = .checking → p.strategy = .mutex →
      Advance .proceed ({ c with phase := .locking }, [])
  | enter : c.phase = .checking ∧ p.strategy = .nativeQueuing ∨ c.phase = .locking →
      Advance .proceed ({ c with phase := .acquiring }, [])
  | stop : c.phase = .checking ∨ c.phase = .locking →
      Advance .cancelled (c.cancelAfter (c.attempt - 1))
  | acquire {on : ConnectionId} : c.phase = .acquiring → t.connection = .ok on →
      Advance (.acquired on) ({ c with phase := .beginning on }, [])
  | refuse {e : ConnectionError} : c.phase = .acquiring → t.connection = .error e →
      Advance (.refused e) (Call.conclude p [] (c.settle p m (.error (.connection e))))
  | start {on : ConnectionId} : c.phase = .beginning on → t.begins = .ok () →
      Advance .proceed ({ c with phase := .operating on }, [])
  | halt {on : ConnectionId} {e : WriteError} : c.phase = .beginning on → t.begins = .error e →
      Advance (.failed e) (Call.conclude p [.release on] (c.settle p m (.error e)))
  | work {on : ConnectionId} {v : α} : c.phase = .operating on → t.operation = .ok v →
      Advance (.value v) ({ c with phase := .committing on v }, [])
  | undo {on : ConnectionId} {e : WriteError} : c.phase = .operating on →
      t.operation = .error e → Advance (.failed e) ({ c with phase := .rollingBack on e }, [])
  | keep {on : ConnectionId} {v : α} : c.phase = .committing on v → t.commit = .ok () →
      Advance .proceed (Call.conclude p [.release on] (c.settle p m (.ok v)))
  | revert {on : ConnectionId} {v : α} {e : WriteError} : c.phase = .committing on v →
      t.commit = .error e → Advance (.failed e) ({ c with phase := .rollingBack on e }, [])
  | restore {on : ConnectionId} {e : WriteError} : c.phase = .rollingBack on e →
      t.rollback = .ok () →
      Advance .proceed (Call.conclude p [.release on] (c.settle p m (.error e)))
  | abandon {on : ConnectionId} {e e' : WriteError} : c.phase = .rollingBack on e →
      t.rollback = .error e' →
      Advance (.failed e') (Call.conclude p [.discard on] (c.settle p m (.error e)))
  | again {d : Duration} : c.phase = .backingOff d →
      Advance .proceed ({ c with attempt := c.attempt + 1, phase := .checking }, [])
  | wake {d : Duration} : c.phase = .backingOff d →
      Advance .cancelled (c.cancelAfter c.attempt)

variable {p m t c}

theorem Trial.Gives.advance {a : Answer α} (ha : t.Gives c.phase a) :
    Advance p m t c a (c.resume p m a) := by
  cases hp : c.phase with
  | checking =>
    rw [hp] at ha
    rcases ha with rfl | rfl
    · simp only [Call.resume, hp]
      cases hs : p.strategy with
      | mutex => exact .line hp hs
      | nativeQueuing => exact .enter (.inl ⟨hp, hs⟩)
    · simp only [Call.resume, hp]
      exact .stop (.inl hp)
  | locking =>
    rw [hp] at ha
    rcases ha with rfl | rfl
    · simp only [Call.resume, hp]
      exact .enter (.inr hp)
    · simp only [Call.resume, hp]
      exact .stop (.inr hp)
  | acquiring =>
    rw [hp] at ha
    cases hc : t.connection with
    | ok on =>
      obtain rfl : a = .acquired on := by rw [ha, hc]; rfl
      simp only [Call.resume, hp]
      exact .acquire hp hc
    | error e =>
      obtain rfl : a = .refused e := by rw [ha, hc]; rfl
      simp only [Call.resume, hp]
      exact .refuse hp hc
  | beginning on =>
    rw [hp] at ha
    cases hc : t.begins with
    | ok u =>
      obtain rfl : a = .proceed := by rw [ha, hc]; rfl
      simp only [Call.resume, hp]
      exact .start hp hc
    | error e =>
      obtain rfl : a = .failed e := by rw [ha, hc]; rfl
      simp only [Call.resume, hp]
      exact .halt hp hc
  | operating on =>
    rw [hp] at ha
    cases hc : t.operation with
    | ok v =>
      obtain rfl : a = .value v := by rw [ha, hc]; rfl
      simp only [Call.resume, hp]
      exact .work hp hc
    | error e =>
      obtain rfl : a = .failed e := by rw [ha, hc]; rfl
      simp only [Call.resume, hp]
      exact .undo hp hc
  | committing on v =>
    rw [hp] at ha
    cases hc : t.commit with
    | ok u =>
      obtain rfl : a = .proceed := by rw [ha, hc]; rfl
      simp only [Call.resume, hp]
      exact .keep hp hc
    | error e =>
      obtain rfl : a = .failed e := by rw [ha, hc]; rfl
      simp only [Call.resume, hp]
      exact .revert hp hc
  | rollingBack on e =>
    rw [hp] at ha
    cases hc : t.rollback with
    | ok u =>
      obtain rfl : a = .proceed := by rw [ha, hc]; rfl
      simp only [Call.resume, hp]
      exact .restore hp hc
    | error e' =>
      obtain rfl : a = .failed e' := by rw [ha, hc]; rfl
      simp only [Call.resume, hp]
      exact .abandon hp hc
  | backingOff d =>
    rw [hp] at ha
    rcases ha with rfl | rfl
    · simp only [Call.resume, hp]
      exact .again hp
    · simp only [Call.resume, hp]
      exact .wake hp
  | finished r =>
    rw [hp] at ha
    exact ha.elim

end

/-! ### Courses -/

section

variable {α : Type} (p : RetryPolicy) (name : String) (moment : Nat → Moment)
  (trial : Nat → Trial α)

/-- A run of a call whose answers follow the trials of its attempts. -/
inductive Course : Call α → List (Turn α) → Prop
  | start : Course { operation := name } []
  | turn {c : Call α} {ts : List (Turn α)} {a : Answer α} : Course c ts →
      (trial c.attempt).Gives c.phase a →
      Course (c.resume p (moment c.attempt) a).1
        (ts ++ [⟨c.attempt, c.phase, a, (c.resume p (moment c.attempt) a).2⟩])

/-- The first `k` attempts fail in ways that may pass. -/
def Repeats (k : Nat) : Prop := ∀ i, 1 ≤ i → i ≤ k → (trial i).Passes

def retrying (i : Nat) : Event :=
  .retrying name i p.maxAttempts (p.backoffDelay i (moment i).jitter) (trial i).text

/-- The events of the first `k` attempts, each followed by another one. -/
def retried (k : Nat) : List Event := (List.range' 1 k).map (retrying p name moment trial)

def recovery (k : Nat) : List Event :=
  if 1 < k then [.recovered name k (moment k).elapsed] else []

/-- How a write may end, with the attempts that it made and the events that it told. -/
inductive Ended : Except WriteError α → List Nat → List Event → Prop
  | value {k : Nat} {v : α} : k < p.maxAttempts → Repeats trial k →
      (trial (k + 1)).outcome = .ok v →
      Ended (.ok v) (List.range' 1 (k + 1))
        (retried p name moment trial k ++ recovery name moment (k + 1))
  | fatal {k : Nat} {e : WriteError} : k < p.maxAttempts → Repeats trial k →
      (trial (k + 1)).outcome = .error e → e.isTransient = false →
      Ended (.error e) (List.range' 1 (k + 1)) (retried p name moment trial k)
  | exhausted {k : Nat} {e : WriteError} : k + 1 = p.maxAttempts → Repeats trial (k + 1) →
      (trial (k + 1)).outcome = .error e →
      Ended (.error (.exhausted name (k + 1) e)) (List.range' 1 (k + 1))
        (retried p name moment trial k ++ [.exhausted name (k + 1) e.message])
  | cancelled {k : Nat} : k < p.maxAttempts → Repeats trial k →
      Ended (.error (.cancelled name k)) (List.range' 1 k)
        (retried p name moment trial k ++ [.cancelled name k])

/-- A run in which `made` attempts were made, `told` of which are followed by another one. -/
def Logged (ts : List (Turn α)) (made told : Nat) : Prop :=
  attempts ts = List.range' 1 made ∧ events ts = retried p name moment trial told

/-- What is known in a phase of attempt `j + 1`. -/
def Stands (ts : List (Turn α)) (j : Nat) : Phase α → Prop
  | .checking => Logged p name moment trial ts j j
  | .locking => Logged p name moment trial ts j j
  | .acquiring => Logged p name moment trial ts j j
  | .beginning on =>
    Logged p name moment trial ts (j + 1) j ∧ (trial (j + 1)).connection = .ok on
  | .operating on =>
    Logged p name moment trial ts (j + 1) j ∧ (trial (j + 1)).connection = .ok on ∧
      (trial (j + 1)).begins = .ok ()
  | .committing on v =>
    Logged p name moment trial ts (j + 1) j ∧ (trial (j + 1)).connection = .ok on ∧
      (trial (j + 1)).begins = .ok () ∧ (trial (j + 1)).operation = .ok v
  | .rollingBack on e =>
    Logged p name moment trial ts (j + 1) j ∧ (trial (j + 1)).connection = .ok on ∧
      (trial (j + 1)).begins = .ok () ∧ (trial (j + 1)).outcome = .error e
  | .backingOff _ =>
    Logged p name moment trial ts (j + 1) (j + 1) ∧ j + 1 < p.maxAttempts ∧ Repeats trial (j + 1)
  | .finished r => Ended p name moment trial r (attempts ts) (events ts)

/-- Where a call stands after the turns `ts`, `j` attempts before the current one having failed. -/
structure Standing (c : Call α) (ts : List (Turn α)) (j : Nat) : Prop where
  operation : c.operation = name
  attempt : c.attempt = j + 1
  within : j < p.maxAttempts
  repeats : Repeats trial j
  stands : Stands p name moment trial ts j c.phase

section Fail

variable {p : RetryPolicy} {c : Call α} {m : Moment} {e : WriteError}

theorem Call.fail_fatal (h : e.isTransient = false) :
    c.fail p m e = ({ c with phase := .finished (.error e) }, []) := by
  rw [fail, if_pos h]

theorem Call.fail_last (h : e.isTransient = true) (hc : p.maxAttempts ≤ c.attempt) :
    c.fail p m e =
      ({ c with phase := .finished (.error (.exhausted c.operation c.attempt e)) },
        [.emit (.exhausted c.operation c.attempt e.message)]) := by
  rw [fail, if_neg (by simp [h]), if_pos hc]

theorem Call.fail_again (h : e.isTransient = true) (hc : c.attempt < p.maxAttempts) :
    c.fail p m e =
      ({ c with phase := .backingOff (p.backoffDelay c.attempt m.jitter) },
        [.emit (.retrying c.operation c.attempt p.maxAttempts
          (p.backoffDelay c.attempt m.jitter) e.message)]) := by
  rw [fail, if_neg (by simp [h]), if_neg (by omega)]

/-- After an attempt a call is over, with a value only if the attempt has one, or it waits for
another attempt.  All that is left to do is to tell of it. -/
theorem Call.settle_cases (c : Call α) (p : RetryPolicy) (m : Moment) (o : Except WriteError α) :
    ∃ (φ : Phase α) (told : List Event),
      c.settle p m o = ({ c with phase := φ }, told.map .emit) ∧
      (∀ name k, .cancelled name k ∉ told) ∧
      ((∃ r, φ = .finished r ∧ ∀ v, r = .ok v → o = .ok v) ∨
        φ = .backingOff (p.backoffDelay c.attempt m.jitter)) := by
  cases o with
  | ok v =>
    refine ⟨.finished (.ok v),
      if 1 < c.attempt then [.recovered c.operation c.attempt m.elapsed] else [], ?_, ?_,
      .inl ⟨_, rfl, fun _ h => h⟩⟩
    · simp only [settle, succeed]
      split <;> rfl
    · split <;> simp
  | error e =>
    rw [settle]
    by_cases hpass : e.isTransient = true
    · by_cases hlast : p.maxAttempts ≤ c.attempt
      · rw [fail_last hpass hlast]
        exact ⟨_, [.exhausted c.operation c.attempt e.message], rfl, by simp,
          .inl ⟨_, rfl, by simp⟩⟩
      · rw [fail_again hpass (by omega)]
        exact ⟨_, [.retrying c.operation c.attempt p.maxAttempts
          (p.backoffDelay c.attempt m.jitter) e.message], rfl, by simp, .inr rfl⟩
    · rw [fail_fatal (by simpa using hpass)]
      exact ⟨_, [], rfl, by simp, .inl ⟨_, rfl, by simp⟩⟩

end Fail

section

variable {p : RetryPolicy} {name : String} {moment : Nat → Moment} {trial : Nat → Trial α}
  {c : Call α} {ts : List (Turn α)} {j : Nat}

theorem Repeats.succ (h : Repeats trial j) (hj : (trial (j + 1)).Passes) :
    Repeats trial (j + 1) := by
  intro i h1 hi
  rcases Nat.lt_or_eq_of_le hi with hi | rfl
  · exact h i h1 (by omega)
  · exact hj

theorem retried_succ (k : Nat) :
    retried p name moment trial (k + 1) =
      retried p name moment trial k ++ [retrying p name moment trial (k + 1)] := by
  rw [retried, List.range'_1_concat, List.map_append, Nat.add_comm 1 k]
  rfl

/-- The end of an attempt whose outcome is known: the call is over, or it waits for another one. -/
theorem Standing.settle (h : Standing p name moment trial c ts j) {o : Except WriteError α}
    (ho : (trial (j + 1)).outcome = o) {t : Turn α}
    (made : attempts (ts ++ [t]) = List.range' 1 (j + 1))
    (told : events ts = retried p name moment trial j)
    (effects : t.effects.filterMap Effect.event? =
      (c.settle p (moment (j + 1)) o).2.filterMap Effect.event?) :
    Standing p name moment trial (c.settle p (moment (j + 1)) o).1 (ts ++ [t]) j := by
  have hevents := events_concat ts t
  rw [effects, told] at hevents
  have hend : ∀ {r told'}, Ended p name moment trial r (List.range' 1 (j + 1)) told' →
      events (ts ++ [t]) = told' → Standing p name moment trial
        { c with phase := .finished r } (ts ++ [t]) j := fun {r told'} hend htold =>
    ⟨h.operation, h.attempt, h.within, h.repeats, by rw [← made, ← htold] at hend; exact hend⟩
  cases o with
  | ok v =>
    refine hend (.value h.within h.repeats ho) ?_
    rw [hevents, ← h.attempt, recovery, ← h.operation]
    simp only [Call.settle, Call.succeed]
    split <;> rfl
  | error e =>
    simp only [Call.settle] at hevents ⊢
    by_cases hpass : e.isTransient = true
    · have hrep := h.repeats.succ ⟨e, ho, hpass⟩
      by_cases hlast : p.maxAttempts ≤ c.attempt
      · rw [Call.fail_last hpass hlast] at hevents ⊢
        have hlast' : j + 1 = p.maxAttempts := by have := h.within; have := h.attempt; omega
        rw [h.attempt, h.operation] at hevents
        simpa only [h.attempt, h.operation] using hend (.exhausted hlast' hrep ho) hevents
      · rw [Call.fail_again hpass (by omega)] at hevents ⊢
        have hagain : j + 1 < p.maxAttempts := by have := h.attempt; omega
        refine ⟨h.operation, h.attempt, h.within, h.repeats, ⟨made, ?_⟩, hagain, hrep⟩
        rw [hevents, retried_succ, retrying, Trial.text, ho, h.attempt, h.operation]
        rfl
    · rw [Call.fail_fatal (by simpa using hpass)] at hevents ⊢
      refine hend (.fatal h.within h.repeats ho (by simpa using hpass)) ?_
      simpa using hevents

theorem Logged.made {made told : Nat} (h : Logged p name moment trial ts made told) {t : Turn α}
    (hm : t.made? = none) : attempts (ts ++ [t]) = List.range' 1 made := by
  rw [attempts_concat, hm, h.1]
  simp

theorem Logged.quiet {made told : Nat} (h : Logged p name moment trial ts made told) {t : Turn α}
    (hm : t.made? = none) (he : t.effects = []) :
    Logged p name moment trial (ts ++ [t]) made told := by
  refine ⟨h.made hm, ?_⟩
  rw [events_concat, he, h.2]
  simp

theorem attempts_acquired {told : Nat} (h : Logged p name moment trial ts j told) {t : Turn α}
    (hm : t.made? = some (j + 1)) : attempts (ts ++ [t]) = List.range' 1 (j + 1) := by
  rw [attempts_concat, hm, h.1, List.range'_1_concat, Nat.add_comm 1 j]
  rfl

theorem Standing.cancel (h : Standing p name moment trial c ts j) {k : Nat}
    (hk : k < p.maxAttempts) (hrep : Repeats trial k) (hlog : Logged p name moment trial ts k k)
    {t : Turn α} (hm : t.made? = none) (he : t.effects = [.emit (.cancelled name k)]) :
    Standing p name moment trial (c.cancelAfter k).1 (ts ++ [t]) j := by
  refine ⟨h.operation, h.attempt, h.within, h.repeats, ?_⟩
  have hend : Ended p name moment trial _ _ _ := .cancelled hk hrep
  rw [← hlog.1, ← hlog.2] at hend
  simp only [Call.cancelAfter, Stands, h.operation, attempts_concat, events_concat, hm, he]
  simpa [Effect.event?] using hend

theorem Standing.turn (h : Standing p name moment trial c ts j) {a : Answer α}
    (ha : (trial c.attempt).Gives c.phase a) :
    ∃ j', Standing p name moment trial (c.resume p (moment c.attempt) a).1
      (ts ++ [⟨c.attempt, c.phase, a, (c.resume p (moment c.attempt) a).2⟩]) j' := by
  have hs := h.stands
  have hj := h.attempt
  have hadvance := ha.advance (p := p) (m := moment c.attempt)
  generalize c.resume p (moment c.attempt) a = next at hadvance ⊢
  have on {φ : Phase α} {t : Turn α} (hφ : Stands p name moment trial (ts ++ [t]) j φ) :
      ∃ j', Standing p name moment trial { c with phase := φ } (ts ++ [t]) j' :=
    ⟨j, h.operation, h.attempt, h.within, h.repeats, hφ⟩
  rw [hj] at hadvance
  cases hadvance with
  | line hp _ =>
    rw [hp] at hs ⊢
    exact on (hs.quiet rfl rfl)
  | enter hp =>
    rcases hp with ⟨hp, _⟩ | hp <;>
    · rw [hp] at hs ⊢
      exact on (hs.quiet rfl rfl)
  | stop hp =>
    rcases hp with hp | hp <;>
    · rw [hp] at hs ⊢
      rw [hj, Nat.add_sub_cancel]
      exact ⟨j, h.cancel h.within h.repeats hs rfl (by simp [Call.cancelAfter, h.operation])⟩
  | acquire hp hc =>
    rw [hp] at hs ⊢
    refine on ⟨⟨attempts_acquired hs (by rw [hj]; rfl), ?_⟩, hc⟩
    rw [events_concat, hs.2]
    simp
  | refuse hp hc =>
    rw [hp] at hs ⊢
    exact ⟨j, h.settle (Trial.outcome_of_refused hc) (attempts_acquired hs (by rw [hj]; rfl)) hs.2
      (filterMap_conclude p rfl _)⟩
  | start hp hc =>
    rw [hp] at hs ⊢
    exact on ⟨hs.1.quiet rfl rfl, hs.2, hc⟩
  | halt hp hc =>
    rw [hp] at hs ⊢
    exact ⟨j, h.settle (Trial.outcome_of_begins hs.2 hc) (hs.1.made rfl) hs.1.2
      (filterMap_conclude p rfl _)⟩
  | work hp hc =>
    rw [hp] at hs ⊢
    exact on ⟨hs.1.quiet rfl rfl, hs.2.1, hs.2.2, hc⟩
  | undo hp hc =>
    rw [hp] at hs ⊢
    exact on ⟨hs.1.quiet rfl rfl, hs.2.1, hs.2.2, Trial.outcome_of_operation hs.2.1 hs.2.2 hc⟩
  | keep hp hc =>
    rw [hp] at hs ⊢
    obtain ⟨hlog, hon, hb, hv⟩ := hs
    exact ⟨j, h.settle (Trial.outcome_of_ok hon hb hv hc) (hlog.made rfl) hlog.2
      (filterMap_conclude p rfl _)⟩
  | revert hp hc =>
    rw [hp] at hs ⊢
    obtain ⟨hlog, hon, hb, hv⟩ := hs
    exact on ⟨hlog.quiet rfl rfl, hon, hb, Trial.outcome_of_commit hon hb hv hc⟩
  -- the attempt has the same outcome whether the rollback works or not
  | restore hp _ =>
    rw [hp] at hs ⊢
    obtain ⟨hlog, -, -, ho⟩ := hs
    exact ⟨j, h.settle ho (hlog.made rfl) hlog.2 (filterMap_conclude p rfl _)⟩
  | abandon hp _ =>
    rw [hp] at hs ⊢
    obtain ⟨hlog, -, -, ho⟩ := hs
    exact ⟨j, h.settle ho (hlog.made rfl) hlog.2 (filterMap_conclude p rfl _)⟩
  | again hp =>
    rw [hp] at hs ⊢
    obtain ⟨hlog, hagain, hrep⟩ := hs
    exact ⟨j + 1, h.operation, by rw [hj], hagain, hrep, hlog.quiet rfl rfl⟩
  | wake hp =>
    rw [hp] at hs ⊢
    obtain ⟨hlog, hagain, hrep⟩ := hs
    rw [hj]
    exact ⟨j, h.cancel hagain hrep hlog rfl (by simp [Call.cancelAfter, h.operation])⟩

/-- Where a call stands at any point of its course. -/
theorem Course.standing (h : Course p name moment trial c ts) :
    ∃ j, Standing p name moment trial c ts j := by
  induction h with
  | start =>
    exact ⟨0, rfl, rfl, p.one_le_maxAttempts, fun i h1 hi => by omega, rfl, rfl⟩
  | turn _ ha ih =>
    obtain ⟨j, hj⟩ := ih
    exact hj.turn ha

/-- A write that is over has ended in one of the four ways. -/
theorem Course.ended (h : Course p name moment trial c ts) {r : Except WriteError α}
    (hr : c.phase = .finished r) :
    Ended p name moment trial r (attempts ts) (events ts) := by
  obtain ⟨j, hj⟩ := h.standing
  have hs := hj.stands
  rw [hr] at hs
  exact hs

end

end

end SingleWriter.Write
