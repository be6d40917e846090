import SingleWriter.Proofs.Crowd
import SingleWriter.Proofs.Trials

/-! The lock of a coordinator.  When its writes take turns, the lock is held exactly while a call is
inside an attempt, and by that call: no way out of an attempt, and no drop, leaves it behind. -/

namespace SingleWriter.Write

/-! ### The lock of one call -/

section

variable {α : Type} {p : RetryPolicy} {m : Moment} {t : Trial α} {c : Call α} {a : Answer α}
  {next : Call α × List Effect}

theorem Call.settle_outside (c : Call α) (p : RetryPolicy) (m : Moment)
    (o : Except WriteError α) : (c.settle p m o).1.attempting = false := by
  obtain ⟨φ, told, h, -, ⟨r, rfl, -⟩ | rfl⟩ := c.settle_cases p m o <;>
  · rw [h]
    rfl

/-- The end of an attempt, and nothing else, frees the lock. -/
theorem Advance.unlocks_iff (h : Advance p m t c a next) (hp : p.strategy = .mutex) :
    .unlock ∈ next.2 ↔ c.attempting = true ∧ next.1.attempting = false := by
  have hconclude {first : List Effect} {o : Except WriteError α} (hin : c.attempting = true) :
      .unlock ∈ (Call.conclude p first (c.settle p m o)).2 ↔
        c.attempting = true ∧ (Call.conclude p first (c.settle p m o)).1.attempting = false := by
    refine iff_of_true ?_ ⟨hin, c.settle_outside p m o⟩
    simp [Call.conclude, Call.unlocking, hp]
  cases h with
  | line hc | acquire hc | start hc | work hc | undo hc | revert hc | again hc | wake hc =>
    simp [Call.attempting, Call.connection?, Call.cancelAfter, hc]
  | enter hc | stop hc =>
    rcases hc with hc | hc <;>
      simp [Call.attempting, Call.connection?, Call.cancelAfter, hc]
  | refuse hc | halt hc | keep hc | restore hc | abandon hc =>
    exact hconclude (by simp [Call.attempting, Call.connection?, hc])

/-- Only one who waits for the lock comes into an attempt. -/
theorem Advance.enters (h : Advance p m t c a next) (hp : p.strategy = .mutex)
    (hout : c.attempting = false) (hin : next.1.attempting = true) :
    c.phase = .locking ∧ a = .proceed := by
  cases h with
  | enter hc =>
    rcases hc with ⟨-, hs⟩ | hc
    · rw [hp] at hs
      cases hs
    · exact ⟨hc, rfl⟩
  | acquire hc | start hc | work hc | undo hc | revert hc =>
    simp [Call.attempting, Call.connection?, hc] at hout
  | line | stop | again | wake => simp [Call.attempting, Call.connection?, Call.cancelAfter] at hin
  | refuse | halt | keep | restore | abandon =>
    rw [Call.conclude, Call.settle_outside] at hin
    cases hin

end

/-! ### The lock of a scene -/

namespace Scene

variable {K Q R α : Type} {b : Backend K Q R} {w : Workload Q R α} {s s' : Scene b α} {i : Nat}

/-- The lock is held by the call that is inside an attempt, and by nobody else. -/
def Guarded (s : Scene b α) : Prop :=
  ∀ i, s.lock.holder = some i ↔ (s.calls i).attempting = true

theorem foldl_fulfil_holder (keep : Bool) (es : List Effect) (s : Scene b α) :
    (es.foldl (fulfil keep) s).lock.holder =
      if .unlock ∈ es then none else s.lock.holder := by
  induction es generalizing s with
  | nil => rfl
  | cons e es ih =>
    rw [List.foldl_cons, ih]
    cases e with
    | release c => cases keep <;> simp [fulfil, drop]
    | discard c | emit e => simp [fulfil, drop]
    | unlock => simp [fulfil, Lock.free]

/-- The lock changes hands only when one who waits for it takes it. -/
theorem Serves.holder {a : Answer α} (h : s.Serves i a s') :
    s'.lock.holder = s.lock.holder ∧ ¬((s.calls i).phase = .locking ∧ a = .proceed) ∨
      ((s.calls i).phase = .locking ∧ a = .proceed) ∧ s.lock.holder = none ∧
        s'.lock.holder = some i := by
  cases h with
  | entered hp htake =>
    obtain ⟨hfree, htaken, -⟩ := Lock.take?_eq_some htake
    exact .inr ⟨⟨hp, rfl⟩, hfree, htaken⟩
  | left hp => exact .inl ⟨rfl, by simp⟩
  | checked hp | lent hp | opened hp | refused hp | begins hp | worked hp | commit hp | rollback hp
  | woken hp => exact .inl ⟨rfl, by simp [hp]⟩

theorem Guarded.update {c : Call α} (h : s.Guarded)
    (hcalls : s'.calls = Function.update s.calls i c)
    (hi : s'.lock.holder = some i ↔ c.attempting = true)
    (hothers : ∀ j, j ≠ i → (s'.lock.holder = some j ↔ s.lock.holder = some j)) :
    s'.Guarded := by
  intro j
  rw [hcalls]
  by_cases hj : j = i
  · rw [hj, Function.update_self]
    exact hi
  · rw [Function.update_of_ne hj, hothers j hj]
    exact h j

/-- Call `i` after an answer, and who has the lock then. -/
theorem Serves.answered {a : Answer α} {u : Scene b α} (h : s.Serves i a u) (keep : Bool) :
    (u.answered w i keep a).calls = Function.update s.calls i (s.resumed w i a).1 ∧
      (u.answered w i keep a).lock.holder =
        if .unlock ∈ (s.resumed w i a).2 then none else u.lock.holder := by
  have hcalls : u.calls = s.calls := by cases h <;> rfl
  have hresumed : u.resumed w i a = s.resumed w i a := by rw [resumed, hcalls, ← resumed]
  constructor
  · rw [Scene.answered, (foldl_fulfil keep _ _).1, hresumed, hcalls]
  · rw [Scene.answered, foldl_fulfil_holder, hresumed]

theorem Guarded.turn (h : s.Guarded) (hp : w.policy.strategy = .mutex) {a : Answer α}
    {u : Scene b α} (hserves : s.Serves i a u) (keep : Bool) :
    (u.answered w i keep a).Guarded := by
  obtain ⟨t, ht⟩ := hserves.gives
  have hadvance := ht.advance (p := w.policy) (m := w.moment i (s.calls i).attempt)
  have hunlocks := hadvance.unlocks_iff hp
  rw [← resumed] at hadvance hunlocks
  obtain ⟨hafter, hholder⟩ := hserves.answered (w := w) keep
  rcases hserves.holder with ⟨hsame, hnot⟩ | ⟨⟨hwaits, rfl⟩, hfree, htaken⟩
  · rw [hsame] at hholder
    by_cases hin : (s.calls i).attempting = true
    · -- the call is inside, so the lock is its own, and it is free if the attempt is over
      have hown := (h i).mpr hin
      cases hout : (s.resumed w i a).1.attempting with
      | true =>
        rw [if_neg (by rw [hunlocks, hout]; simp)] at hholder
        exact h.update hafter (by rw [hholder, hown, hout]; simp) (fun j _ => by rw [hholder])
      | false =>
        rw [if_pos (hunlocks.mpr ⟨hin, hout⟩)] at hholder
        refine h.update hafter (by rw [hholder, hout]; simp) fun j hj => ?_
        rw [hholder, hown]
        simp [hj.symm]
    · have hout : (s.resumed w i a).1.attempting = false := by
        by_contra hcome
        exact hnot (hadvance.enters hp (by simpa using hin) (by simpa using hcome))
      rw [if_neg (by rw [hunlocks]; simp [hin])] at hholder
      refine h.update hafter ?_ (fun j _ => by rw [hholder])
      rw [hholder, h i, hout]
      simpa using hin
  · have hr : s.resumed w i .proceed = ({ s.calls i with phase := .acquiring }, []) := by
      simp only [resumed, Call.resume, hwaits]
    rw [hr] at hafter hholder
    rw [htaken] at hholder
    refine h.update hafter (by rw [hholder]; simp [Call.attempting]) fun j hj => ?_
    rw [hholder, hfree]
    simp [hj.symm]

theorem Guarded.step (h : s.Guarded) (hp : w.policy.strategy = .mutex) {l : Label α}
    (hstep : s.Step w l s') : s'.Guarded := by
  cases hstep with
  | turn keep hserves => exact h.turn hp hserves keep
  | lineUp =>
    intro j
    rw [Lock.holder_enqueue]
    exact h j
  | invoke | ask | queue | place | renew | refill => exact h

end Scene

/-! ### The lock of a crowd -/

namespace Crowd

variable {K Q R α : Type} {b : Backend K Q R} {w : Workload Q R α} {s s' s₀ : Crowd b α} {i : Nat}
  {l : Label Q α} {ls : List (Label Q α)}

/-- Whether call `i` is not inside an attempt: it waits for the lock, sleeps, is over or was
dropped. -/
def Away (s : Crowd b α) (i : Nat) : Prop :=
  s.dropped i = true ∨
    match (s.calls i).phase with
    | .checking => True
    | .locking => True
    | .backingOff _ => True
    | .finished _ => True
    | _ => False

/-- The lock is held by the call inside an attempt, and a call that was dropped is over. -/
structure Orderly (s : Crowd b α) : Prop where
  guarded : s.Guarded
  ended : ∀ i, s.dropped i = true → ∃ r, (s.calls i).phase = .finished r

theorem Initial.orderly (h : s.Initial w) : s.Orderly := by
  refine ⟨fun i => ?_, fun i hi => ?_⟩
  · rw [h.lock, h.calls i]
    simp [Call.attempting, Call.connection?]
  · rw [h.present i] at hi
    cases hi

theorem Orderly.abandon (h : s.Orderly) (hp : w.policy.strategy = .mutex) (i : Nat) :
    (s.abandon w i).Orderly := by
  have habandons := s.abandons (w := w) i
  refine ⟨?_, fun j hj => ?_⟩
  · have hholder : (s.abandon w i).lock.holder =
        if (s.calls i).attempting = true then none else s.lock.holder := by
      rw [habandons.holder]
      simp [Call.holdsLock, hp]
    refine h.guarded.update habandons.becomes.calls ?_ fun j hj => ?_
    · rw [hholder]
      split
      · simp [Call.over, Call.attempting, Call.connection?]
      · rename_i hout
        rw [h.guarded i]
        simp [Call.over, Call.attempting, Call.connection?] at hout ⊢
        exact hout
    · rw [hholder]
      split
      · rename_i hin
        rw [(h.guarded i).mpr hin]
        simp [hj.symm]
      · rfl
  · rw [habandons.becomes.calls]
    by_cases hji : j = i
    · rw [hji, Function.update_self]
      exact ⟨_, rfl⟩
    · rw [habandons.dropped, Function.update_of_ne hji] at hj
      rw [Function.update_of_ne hji]
      exact h.ended j hj

theorem Orderly.step (h : s.Orderly) (hp : w.policy.strategy = .mutex) (hstep : s.Step w l s') :
    s'.Orderly := by
  cases hstep with
  | scene hstep =>
    refine ⟨h.guarded.step hp hstep, fun i hi => ?_⟩
    obtain ⟨r, hr⟩ := h.ended i hi
    exact ⟨r, by rw [(hstep.stays hr).1, hr]⟩
  | drop => exact h.abandon hp _
  | late => exact ⟨h.guarded, h.ended⟩
  | @settle c x keep _ =>
    obtain ⟨hcalls, -⟩ := Scene.foldl_fulfil keep [x.fate c] s.toScene
    have hholder := Scene.foldl_fulfil_holder keep [x.fate c] s.toScene
    rw [if_neg (by rw [Stray.fate]; split <;> simp)] at hholder
    rw [List.foldl_cons, List.foldl_nil] at hcalls hholder
    exact ⟨fun i => by rw [settle, hholder, hcalls]; exact h.guarded i,
      fun i hi => by rw [settle, hcalls]; exact h.ended i hi⟩

theorem Run.orderly (h : s₀.Orderly) (hp : w.policy.strategy = .mutex) (hrun : s₀.Run w ls s) :
    s.Orderly := by
  induction hrun with
  | start => exact h
  | step _ hstep ih => exact ih.step hp hstep

/-- The lock is held exactly while a call is inside an attempt, and by that call.  So no two calls
are, and a call that waits, sleeps, is over or was dropped does not have it. -/
theorem lock_guards_attempts (hp : w.policy.strategy = .mutex) (h : s₀.Initial w)
    (hrun : s₀.Run w ls s) :
    (∀ i j, (s.calls i).attempting = true → (s.calls j).attempting = true → i = j) ∧
      (∀ i, s.lock.holder = some i ↔ (s.calls i).attempting = true) ∧
      ∀ i, s.Away i → s.lock.holder ≠ some i := by
  obtain ⟨hguarded, hended⟩ := hrun.orderly h.orderly hp
  refine ⟨fun i j hi hj => ?_, hguarded, fun i hi hholder => ?_⟩
  · have hi' := (hguarded i).mpr hi
    rw [(hguarded j).mpr hj] at hi'
    exact (Option.some.inj hi').symm
  · have hin := (hguarded i).mp hholder
    rcases hi with hi | hi
    · obtain ⟨r, hr⟩ := hended i hi
      simp [Call.attempting, Call.connection?, hr] at hin
    · cases hφ : (s.calls i).phase <;>
        simp [Call.attempting, Call.connection?, hφ] at hin hi

/-! ### Two writes that take turns -/

def takingTurns : Workload String Nat Nat :=
  { Scene.insertions with policy := { strategy := .mutex } }

/-- The first call is dropped inside its operation, and the second one gets the lock. -/
theorem lock_guards_insertions :
    ∃ (ls : List (Label String Nat)) (s : Crowd Ledger.backend Nat),
      empty.Run takingTurns ls s ∧ s.dropped 0 = true ∧ (s.calls 1).attempting = true ∧
        s.lock.holder = some 1 ∧ s.lock.holder ≠ some 0 := by
  have r := Run.start (w := takingTurns) (s := empty)
  have r := r.step (.scene (.turn true (.checked (i := 0) (a := .proceed) rfl (.inl rfl))))
  have r := r.step (.scene (.turn true (.checked (i := 1) (a := .proceed) rfl (.inl rfl))))
  have r := r.step (.scene (.lineUp (i := 0) rfl))
  have r := r.step (.scene (.lineUp (i := 1) rfl))
  have r := r.step (.scene (.turn true (.entered (i := 0) rfl rfl)))
  have r := r.step (.scene (.queue (i := 0) rfl))
  have r := r.step (.scene (.place (i := 0) rfl))
  have r := r.step (.scene (.turn true (.opened (i := 0) rfl (by decide))))
  have r := r.step
    (.scene (.turn true (.begins (i := 0) (r := .ok ()) rfl (.inl ⟨rfl, rfl, rfl⟩))))
  have r := r.step (.drop (i := 0) (by rintro r ⟨⟩))
  have r := r.step (.scene (.turn true (.entered (i := 1) rfl rfl)))
  have h := lock_guards_attempts rfl (empty_initial _) r
  exact ⟨_, _, r, rfl, rfl, (h.2.1 1).mpr rfl, h.2.2 0 (.inl rfl)⟩

end Crowd

end SingleWriter.Write
