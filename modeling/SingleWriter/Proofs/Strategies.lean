import SingleWriter.Proofs.Onset
import SingleWriter.Proofs.Solo

/-! A write that is the only call on its coordinator cannot tell under which strategy it runs.  A
run under one strategy is followed step by step by a run under the other: where the writes take
turns, the call that waits for the lock counts as one that is already in its attempt, and what else
happens to the lock is of no account. -/

namespace SingleWriter.Write

/-- The writes under another strategy. -/
def Workload.under {Q R α : Type} (w : Workload Q R α) (σ : Strategy) : Workload Q R α :=
  { w with policy := w.policy.under σ }

/-! ### One call -/

section

variable {α : Type}

/-- Whether an effect has to do with anything but the lock. -/
def Effect.lasts : Effect → Bool
  | .unlock => false
  | _ => true

theorem filterMap_lasts (es : List Effect) :
    (es.filter Effect.lasts).filterMap Effect.event? = es.filterMap Effect.event? := by
  induction es with
  | nil => rfl
  | cons e es ih =>
    cases e with
    | unlock | release | discard => exact ih
    | emit e => exact congrArg (e :: ·) ih

theorem Call.conclude_under (p : RetryPolicy) (σ σ' : Strategy) (first : List Effect)
    (next : Call α × List Effect) :
    (conclude (p.under σ') first next).2.filter Effect.lasts =
      (conclude (p.under σ) first next).2.filter Effect.lasts := by
  have hnone (σ : Strategy) : (unlocking (p.under σ)).filter Effect.lasts = [] := by
    cases σ <;> rfl
  simp only [conclude, List.filter_append, hnone]

/-- A call goes the same way under both strategies, except where it goes into an attempt. -/
theorem Call.resume_under (c : Call α) (p : RetryPolicy) (σ σ' : Strategy) (m : Moment)
    {a : Answer α} (h : ¬(c.phase = .checking ∧ a = .proceed)) :
    (c.resume (p.under σ') m a).1 = (c.resume (p.under σ) m a).1 ∧
      (c.resume (p.under σ') m a).2.filter Effect.lasts =
        (c.resume (p.under σ) m a).2.filter Effect.lasts := by
  cases hp : c.phase with
  | checking =>
    cases a with
    | proceed => exact absurd ⟨hp, rfl⟩ h
    | cancelled | acquired | refused | value | failed => simp only [resume, hp, and_self]
  | locking | operating | backingOff | finished => cases a <;> simp only [resume, hp, and_self]
  -- Here an attempt may end, and only one of the two strategies frees the lock then.
  | acquiring | beginning | committing | rollingBack =>
    cases a <;> simp only [resume, hp, and_self] <;> exact ⟨rfl, conclude_under ..⟩

/-- A call waits for the lock only after the look at its token. -/
theorem Advance.lines_up {p : RetryPolicy} {m : Moment} {t : Trial α} {c : Call α} {a : Answer α}
    {next : Call α × List Effect} (h : Advance p m t c a next) (hn : next.1.phase = .locking) :
    c.phase = .checking ∧ a = .proceed := by
  cases h with
  | line hp => exact ⟨hp, rfl⟩
  | refuse | halt | keep | restore | abandon => exact absurd (.inl hn) (c.settle_pending p m _)
  | enter | stop | acquire | start | work | undo | revert | again | wake => cases hn

/-- Where a call goes on after a look at its token. -/
def entry : Strategy → Phase α
  | .mutex => .locking
  | .nativeQueuing => .acquiring

/-- A call that waits for the lock counts as one in its attempt. -/
def Call.entered (c : Call α) : Call α :=
  match c.phase with
  | .locking => { c with phase := .acquiring }
  | _ => c

theorem Call.entered_of_locking {c : Call α} (h : c.phase = .locking) :
    c.entered = { c with phase := .acquiring } := by
  simp only [entered, h]

theorem Call.entered_of_ne {c : Call α} (h : c.phase ≠ .locking) : c.entered = c := by
  unfold entered
  split
  · contradiction
  · rfl

end

/-! ### What is committed -/

section

variable {K Q R : Type}

/-- A statement with its answer makes one thing of the contents. -/
def Backend.Determined (b : Backend K Q R) : Prop :=
  ∀ q k r k' k'', b.effect q k r k' → b.effect q k r k'' → k' = k''

theorem Replays.unique {b : Backend K Q R} (hdet : b.Determined) {k k' k'' : K}
    {ts : Transcript Q R} (h : Replays b.effect k ts k') (h' : Replays b.effect k ts k'') :
    k' = k'' := by
  induction h generalizing k'' with
  | start =>
    generalize hts : ([] : Transcript Q R) = ts at h'
    cases h' with
    | start => rfl
    | ok | error => simp at hts
  | @ok ts q r k₁ k₂ _ heffect ih =>
    generalize hts : ts ++ [(q, Except.ok r)] = ts' at h'
    cases h' with
    | start => simp at hts
    | ok hbefore heffect' =>
      obtain ⟨rfl, hlast⟩ := List.append_inj' hts rfl
      cases hlast
      rw [← ih hbefore] at heffect'
      exact hdet _ _ _ _ _ heffect heffect'
    | error =>
      obtain ⟨-, hlast⟩ := List.append_inj' hts rfl
      cases hlast
  | @error ts q e k₁ _ ih =>
    generalize hts : ts ++ [(q, Except.error e)] = ts' at h'
    cases h' with
    | start => simp at hts
    | ok =>
      obtain ⟨-, hlast⟩ := List.append_inj' hts rfl
      cases hlast
    | error hbefore =>
      obtain ⟨rfl, -⟩ := List.append_inj' hts rfl
      exact ih hbefore

end

namespace Scene

variable {K Q R α : Type} {b : Backend K Q R} {w : Workload Q R α} {s s' s₀ u : Scene b α}
  {ls : List (Label α)} {l : Label α} {a : Answer α} {σ σ' : Strategy} {lock : Lock}

/-! ### Scenes that differ in the lock -/

/-- The scene with another lock, and with call 0 in its attempt if it waits for the lock. -/
def entering (s : Scene b α) (lock : Lock) : Scene b α :=
  { s with lock, calls := Function.update s.calls 0 (s.calls 0).entered }

theorem entering_of_ne (h : (s.calls 0).phase ≠ .locking) (lock : Lock) :
    s.entering lock = { s with lock } := by
  rw [entering, Call.entered_of_ne h, Function.update_eq_self]

/-- Effects do to a scene what they do to it with another lock, but for the lock. -/
theorem foldl_fulfil_lasts (keep : Bool) (es : List Effect) (s : Scene b α) (lock : Lock) :
    ∃ lock', es.foldl (fulfil keep) { s with lock } =
      { (es.filter Effect.lasts).foldl (fulfil keep) s with lock := lock' } := by
  induction es generalizing s lock with
  | nil => exact ⟨lock, rfl⟩
  | cons e es ih =>
    cases e with
    | unlock => exact ih s lock.free
    | release c =>
      cases keep with
      | true => exact ih { s with pool := s.pool.giveBack c } lock
      | false => exact ih (s.drop c) lock
    | discard c => exact ih (s.drop c) lock
    | emit e => exact ih s lock

theorem foldl_fulfil_congr (keep : Bool) {es es' : List Effect}
    (h : es'.filter Effect.lasts = es.filter Effect.lasts) (s : Scene b α) (lock : Lock) :
    ∃ lock', es'.foldl (fulfil keep) { s with lock } =
      { es.foldl (fulfil keep) s with lock := lock' } := by
  obtain ⟨l₁, h₁⟩ := foldl_fulfil_lasts keep es s s.lock
  obtain ⟨l₂, h₂⟩ := foldl_fulfil_lasts keep es' s lock
  refine ⟨l₂, ?_⟩
  have hsame : es.foldl (fulfil keep) s = es.foldl (fulfil keep) { s with lock := s.lock } := rfl
  rw [h₂, h, hsame, h₁]

/-- Call 0 gets the answers that it may get whatever becomes of the lock, unless it waits for it. -/
theorem Serves.relock (h : s.Serves 0 a u) (hp : (s.calls 0).phase ≠ .locking) (lock : Lock) :
    ({ s with lock } : Scene b α).Serves 0 a { u with lock } := by
  cases h with
  | checked hp ha => exact .checked hp ha
  | entered hl | left hl => exact absurd hl hp
  | lent hp hserve => exact .lent hp hserve
  | opened hp hmem => exact .opened hp hmem
  | refused hp => exact .refused hp
  | begins hp hbegins => exact .begins hp hbegins
  | worked hp hleft => exact .worked hp hleft
  | commit hp hcommit => exact .commit hp hcommit
  | rollback hp hrollback => exact .rollback hp hrollback
  | woken hp ha => exact .woken hp ha

/-- A look at the token changes nothing. -/
theorem Serves.looks (h : s.Serves 0 a u) (hp : (s.calls 0).phase = .checking) : u = s := by
  cases h with
  | checked | worked | woken => rfl
  | entered hp' | left hp' | lent hp' | opened hp' | refused hp' | begins hp' | commit hp'
  | rollback hp' =>
    rw [hp] at hp'
    cases hp'

theorem answered_under (w : Workload Q R α) (σ σ' : Strategy)
    (hnot : ¬((s.calls 0).phase = .checking ∧ a = .proceed)) (keep : Bool) (lock : Lock) :
    ∃ lock', ({ s with lock } : Scene b α).answered (w.under σ') 0 keep a =
      { s.answered (w.under σ) 0 keep a with lock := lock' } := by
  obtain ⟨hcall, heffects⟩ := (s.calls 0).resume_under w.policy σ σ'
    (w.moment 0 (s.calls 0).attempt) hnot
  have hresumed : ({ s with lock } : Scene b α).resumed (w.under σ') 0 a =
      (s.calls 0).resume (w.policy.under σ') (w.moment 0 (s.calls 0).attempt) a := rfl
  obtain ⟨lock', h⟩ := foldl_fulfil_congr keep heffects
    { s with
      calls := Function.update s.calls 0 (s.resumed (w.under σ) 0 a).1
      left := Function.update s.left 0 none } lock
  refine ⟨lock', ?_⟩
  rw [answered, hresumed, hcall]
  exact h

/-- No operation is under way but inside the operation. -/
theorem Run.left_none (h : s₀.Initial w) (hrun : s₀.Run w ls s) {i : Nat}
    (hp : ∀ on, (s.calls i).phase ≠ .operating on) : s.left i = none := by
  induction hrun with
  | start => exact h.left i
  | @step ls l m s' _ hstep ih =>
    rcases hstep.answers i with ⟨hl, hcalls⟩ | ⟨-, -, -, -, -, hleft, -⟩
    · rcases hstep.operates i hl with ⟨-, hsame⟩ | ⟨-, ⟨on, hon⟩, -, -⟩
      · rw [hcalls] at hp
        exact hsame.mpr (ih hp)
      · rw [hcalls] at hp
        exact absurd hon (hp on)
    · exact hleft

/-! ### Lone writes -/

/-- A run in which call 0 is the only one to get answers.  Its attempts turn out as `trial` says,
and its token is cancelled at the moment `o`. -/
structure Lone (w : Workload Q R α) (trial : Nat → Trial α) (o : Onset) (s₀ : Scene b α)
    (ls : List (Label α)) (s : Scene b α) : Prop where
  run : s₀.Run w ls s
  solo : Solo ls
  agrees : Agrees trial (turnsOf 0 ls)
  fits : ∀ t ∈ turnsOf 0 ls, o.Fits t

/-- What two runs have to say about call 0 is the same. -/
structure Tells (ls ls' : List (Label α)) : Prop where
  made : attempts (turnsOf 0 ls') = attempts (turnsOf 0 ls)
  told : events (turnsOf 0 ls') = events (turnsOf 0 ls)
  invoked : invocations 0 ls' = invocations 0 ls

variable {trial : Nat → Trial α} {o : Onset} {ls' : List (Label α)} {l' : Label α}

theorem Initial.under (h : s₀.Initial w) (σ : Strategy) : s₀.Initial (w.under σ) :=
  ⟨h.calls, h.left, h.idle_nodup, h.idle_lt, h.idle_rest⟩

theorem Tells.refl (ls : List (Label α)) : Tells ls ls := ⟨rfl, rfl, rfl⟩

theorem Tells.trans {ls'' : List (Label α)} (h : Tells ls ls') (h' : Tells ls' ls'') :
    Tells ls ls'' :=
  ⟨h'.made.trans h.made, h'.told.trans h.told, h'.invoked.trans h.invoked⟩

theorem Tells.concat (h : Tells ls ls') (hturn : l'.turnOf? 0 = l.turnOf? 0)
    (hinvoked : l'.invocationOf? 0 = l.invocationOf? 0) : Tells (ls ++ [l]) (ls' ++ [l']) := by
  refine ⟨?_, ?_, ?_⟩
  · rw [turnsOf_concat, turnsOf_concat, hturn, attempts, List.filterMap_append, ← attempts, h.made,
      attempts, attempts, List.filterMap_append]
  · rw [turnsOf_concat, turnsOf_concat, hturn, events, List.flatMap_append, ← events, h.told,
      events, events, List.flatMap_append]
  · rw [invocations_concat, invocations_concat, hinvoked, h.invoked]

/-- Two turns of which neither or both make an attempt, with the same events. -/
theorem Tells.turns (h : Tells ls ls') {t t' : Turn α} (hmade : t'.made? = t.made?)
    (htold : t'.effects.filterMap Effect.event? = t.effects.filterMap Effect.event?) :
    Tells (ls ++ [.turn 0 t]) (ls' ++ [.turn 0 t']) := by
  have hturn (ls : List (Label α)) (t : Turn α) :
      turnsOf 0 (ls ++ [.turn 0 t]) = turnsOf 0 ls ++ [t] := turnsOf_concat ls _
  refine ⟨?_, ?_, ?_⟩
  · rw [hturn, hturn, attempts_concat, attempts_concat, hmade, h.made]
  · rw [hturn, hturn, events_concat, events_concat, htold, h.told]
  · rw [invocations_concat, invocations_concat, h.invoked]
    rfl

/-- A turn that makes no attempt and has nothing done is as if it had not been. -/
theorem Tells.quiet {t : Turn α} (hp : t.phase ≠ .acquiring) (htold : t.effects = []) :
    Tells ls (ls ++ [.turn 0 t]) := by
  have hmade : t.made? = none := by
    unfold Turn.made?
    split
    · contradiction
    · rfl
  have hturn : turnsOf 0 (ls ++ [.turn 0 t]) = turnsOf 0 ls ++ [t] := turnsOf_concat ls _
  refine ⟨?_, ?_, ?_⟩
  · rw [hturn, attempts_concat, hmade]
    exact List.append_nil _
  · rw [hturn, events_concat, htold]
    exact List.append_nil _
  · rw [invocations_concat]
    exact List.append_nil _

theorem Tells.symm (h : Tells ls ls') : Tells ls' ls := ⟨h.made.symm, h.told.symm, h.invoked.symm⟩

theorem Tells.aside (hturn : l.turnOf? 0 = none) (hinvoked : l.invocationOf? 0 = none) :
    Tells ls (ls ++ [l]) := by
  refine ⟨?_, ?_, ?_⟩
  · rw [turnsOf_concat, hturn]
    exact congrArg attempts (List.append_nil _)
  · rw [turnsOf_concat, hturn]
    exact congrArg events (List.append_nil _)
  · rw [invocations_concat, hinvoked]
    exact List.append_nil _

theorem Lone.turn (h : Lone w trial o s₀ ls s) (hserves : s.Serves 0 a u) (keep : Bool)
    (hgives : (trial (s.calls 0).attempt).Gives (s.calls 0).phase a)
    (hfits : o.Fits (s.turn w 0 a)) :
    Lone w trial o s₀ (ls ++ [.turn 0 (s.turn w 0 a)]) (u.answered w 0 keep a) := by
  have hturn (i : Nat) : turnsOf i (ls ++ [.turn 0 (s.turn w 0 a)]) =
      turnsOf i ls ++ (if 0 = i then some (s.turn w 0 a) else none).toList := turnsOf_concat ls _
  refine ⟨h.run.step (.turn keep hserves), fun j hj => ?_, fun t ht => ?_, fun t ht => ?_⟩
  · rw [hturn, if_neg hj.symm, h.solo j hj]
    rfl
  · rw [hturn, List.mem_append] at ht
    rcases ht with ht | ht
    · exact h.agrees t ht
    · obtain rfl : t = s.turn w 0 a := by simpa using ht
      exact hgives
  · rw [hturn, List.mem_append] at ht
    rcases ht with ht | ht
    · exact h.fits t ht
    · obtain rfl : t = s.turn w 0 a := by simpa using ht
      exact hfits

theorem Lone.aside (h : Lone w trial o s₀ ls s) (hstep : s.Step w l s')
    (hl : ∀ i, l.turnOf? i = none) : Lone w trial o s₀ (ls ++ [l]) s' := by
  have hturn (i : Nat) : turnsOf i (ls ++ [l]) = turnsOf i ls := by
    rw [turnsOf_concat, hl]
    exact List.append_nil _
  refine ⟨h.run.step hstep, fun j hj => ?_, ?_, ?_⟩
  · rw [hturn, h.solo j hj]
  · rw [hturn]
    exact h.agrees
  · rw [hturn]
    exact h.fits

/-- Call 0 is in its attempt, and the lock is as given. -/
def admitted (s : Scene b α) (lock : Lock) : Scene b α :=
  { s with
    lock
    calls := Function.update s.calls 0 { s.calls 0 with phase := .acquiring }
    left := Function.update s.left 0 none }

/-- A lone write that waits for the lock gets it. -/
theorem Lone.locked (h₀ : s₀.Initial w) (hlock : s₀.lock = {}) (h : Lone w trial o s₀ ls s)
    (hp : (s.calls 0).phase = .locking) :
    ∃ more, Lone w trial o s₀ (ls ++ more) (s.admitted ⟨some 0, []⟩) ∧ Tells ls (ls ++ more) := by
  have hresumed : s.resumed w 0 .proceed = ({ s.calls 0 with phase := .acquiring }, []) := by
    simp only [resumed, Call.resume, hp]
  have htakes : (s.lock.enqueue 0).take? 0 = some ⟨some 0, []⟩ := by
    rw [h.run.next_in_line h₀ hlock h.solo hp]
    rfl
  have hserves : Serves { s with lock := s.lock.enqueue 0 } 0 .proceed
    { s with lock := ⟨some 0, []⟩ } := .entered hp htakes
  have hgives : (trial (s.calls 0).attempt).Gives (s.calls 0).phase .proceed := by
    rw [hp]
    exact .inl rfl
  have hfits : o.Fits (s.turn w 0 .proceed) := by simp [Onset.Fits, Scene.turn, hp]
  have hturn := (h.aside (.lineUp hp) fun _ => rfl).turn hserves true hgives hfits
  rw [answered_of_bare (s := { s with lock := ⟨some 0, []⟩ }) hresumed] at hturn
  have htells : Tells ls (ls ++ [.aside] ++ [.turn 0 (s.turn w 0 .proceed)]) := by
    refine (Tells.aside rfl rfl).trans (.quiet ?_ (congrArg Prod.snd hresumed))
    simp [Scene.turn, hp]
  rw [List.append_assoc] at hturn htells
  exact ⟨_, hturn, htells⟩

/-- A look at the token that finds nothing takes the call to the lock or past it. -/
theorem resumed_looks (hp : (s.calls 0).phase = .checking) :
    s.resumed (w.under σ) 0 .proceed = ({ s.calls 0 with phase := entry σ }, []) := by
  simp only [resumed, Call.resume, hp]
  cases σ <;> rfl

theorem Tells.looks (hp : (s.calls 0).phase = .checking) :
    Tells ls (ls ++ [.turn 0 (s.turn (w.under σ) 0 .proceed)]) :=
  .quiet (by simp [Scene.turn, hp]) (congrArg Prod.snd (resumed_looks hp))

/-- From the look at the token a lone write gets into its attempt under either strategy. -/
theorem Lone.admitted (h₀ : s₀.Initial w) (hlock : s₀.lock = {})
    (h : Lone (w.under σ) trial o s₀ ls s) (hp : (s.calls 0).phase = .checking)
    (hspared : o.reaches (s.calls 0).attempt = false) :
    ∃ ls' lock, Lone (w.under σ) trial o s₀ ls' (s.admitted lock) ∧ Tells ls ls' := by
  have hgives : (trial (s.calls 0).attempt).Gives (s.calls 0).phase .proceed := by
    rw [hp]
    exact .inl rfl
  have hfits : o.Fits (s.turn (w.under σ) 0 .proceed) := by
    simp [Onset.Fits, Scene.turn, hp, hspared]
  have hturn := h.turn (.checked hp (.inl rfl)) true hgives hfits
  rw [answered_of_bare (resumed_looks hp)] at hturn
  cases σ with
  | nativeQueuing => exact ⟨_, s.lock, hturn, .looks hp⟩
  | mutex =>
    obtain ⟨more, hlone, htells⟩ := hturn.locked (h₀.under _) hlock (by simp [entry])
    refine ⟨_, ⟨some 0, []⟩, ?_, (Tells.looks hp).trans htells⟩
    simpa only [Scene.admitted, Function.update_idem, Function.update_self] using hlone

/-! ### Following a lone write -/

section Follow

variable {keep : Bool}

/-- What the look at the token leads to, up to the lock. -/
theorem answered_entering (hp : (s.calls 0).phase = .checking) (lock : Lock) :
    (s.answered (w.under σ) 0 keep .proceed).entering lock = s.admitted lock := by
  rw [answered_of_bare (resumed_looks hp)]
  cases σ with
  | nativeQueuing =>
    rw [entering_of_ne (by simp [entry])]
    rfl
  | mutex =>
    rw [entering, Call.entered_of_locking (by simp [entry])]
    simp only [admitted, Function.update_idem, Function.update_self]

/-- The turn of a call in line for the lock is one that the other run has had. -/
theorem Lone.follow_locking (h₀ : s₀.Initial w) (h : Lone (w.under σ) trial o s₀ ls s)
    (hserves : s.Serves 0 a u) (hp : (s.calls 0).phase = .locking)
    (hfits : o.Fits (s.turn (w.under σ) 0 a)) (keep : Bool) (lock : Lock) :
    (u.answered (w.under σ) 0 keep a).entering lock = s.entering lock ∧
      Tells (ls ++ [.turn 0 (s.turn (w.under σ) 0 a)]) ls := by
  have hspared := (h.run.course (h₀.under σ) h.agrees).spared h.fits
  have hleft : s.left 0 = none := h.run.left_none (h₀.under σ) (by simp [hp])
  cases hserves with
  | @entered l _ htake =>
    have hresumed : s.resumed (w.under σ) 0 .proceed =
        ({ s.calls 0 with phase := .acquiring }, []) := by
      simp only [resumed, Call.resume, hp]
    refine ⟨?_, .symm (.quiet (by simp [Scene.turn, hp]) (congrArg Prod.snd hresumed))⟩
    rw [answered_of_bare (s := { s with lock := l }) hresumed, entering_of_ne (by simp), entering,
      Call.entered_of_locking hp, ← hleft, Function.update_eq_self]
  | left =>
    simp only [Onset.Fits, Scene.turn, hp, forall_const] at hfits
    rw [hspared.pending (.inl hp)] at hfits
    cases hfits
  | checked hp' | lent hp' | opened hp' | refused hp' | begins hp' | worked hp' | commit hp'
  | rollback hp' | woken hp' =>
    rw [hp] at hp'
    cases hp'

/-- Each turn of a lone write is followed by a turn under the other strategy, or by two into the
attempt, or by none. -/
theorem Lone.follow_turn (h₀ : s₀.Initial w) (hlock : s₀.lock = {})
    (h : Lone (w.under σ) trial o s₀ ls s) (hserves : s.Serves 0 a u)
    (hgives : (trial (s.calls 0).attempt).Gives (s.calls 0).phase a)
    (hfits : o.Fits (s.turn (w.under σ) 0 a))
    (h' : Lone (w.under σ') trial o s₀ ls' (s.entering lock)) (htells : Tells ls ls') :
    ∃ ls' lock, Lone (w.under σ') trial o s₀ ls' ((u.answered (w.under σ) 0 keep a).entering lock) ∧
      Tells (ls ++ [.turn 0 (s.turn (w.under σ) 0 a)]) ls' := by
  by_cases hp : (s.calls 0).phase = .locking
  · obtain ⟨hsame, hquiet⟩ := h.follow_locking h₀ hserves hp hfits keep lock
    exact ⟨ls', lock, hsame ▸ h', hquiet.trans htells⟩
  rw [entering_of_ne hp] at h'
  by_cases henters : (s.calls 0).phase = .checking ∧ a = .proceed
  · obtain rfl := (hserves.looks henters.1).symm
    obtain ⟨hp, rfl⟩ := henters
    have hspared : o.reaches (s.calls 0).attempt = false := by
      simpa [Onset.Fits, Scene.turn, hp] using hfits
    obtain ⟨ls'', lock', hlone, hmore⟩ := h'.admitted h₀ hlock hp hspared
    refine ⟨ls'', lock', ?_, (Tells.looks hp).symm.trans (htells.trans hmore)⟩
    rw [answered_entering hp]
    exact hlone
  · have hsame : u.calls = s.calls := by cases hserves <;> rfl
    have hfits' : o.Fits (({ s with lock } : Scene b α).turn (w.under σ') 0 a) := hfits
    have hturn := h'.turn (hserves.relock hp lock) keep hgives hfits'
    have hstays : ¬((u.calls 0).phase = .checking ∧ a = .proceed) := by
      rw [hsame]
      exact henters
    obtain ⟨lock', hanswered⟩ := answered_under w σ σ' hstays keep lock
    have hnext : ((u.answered (w.under σ) 0 keep a).calls 0).phase ≠ .locking := by
      rw [(hserves.answered keep).1, Function.update_self]
      exact fun hl => henters ((hgives.advance (p := (w.under σ).policy)).lines_up hl)
    obtain ⟨-, heffects⟩ := (s.calls 0).resume_under w.policy σ σ'
      (w.moment 0 (s.calls 0).attempt) henters
    rw [hanswered, ← entering_of_ne hnext] at hturn
    refine ⟨_, lock', hturn, htells.turns rfl ?_⟩
    calc ((s.turn (w.under σ') 0 a).effects).filterMap Effect.event?
        = ((s.turn (w.under σ') 0 a).effects.filter Effect.lasts).filterMap Effect.event? :=
          (filterMap_lasts _).symm
      _ = ((s.turn (w.under σ) 0 a).effects.filter Effect.lasts).filterMap Effect.event? :=
          congrArg _ heffects
      _ = ((s.turn (w.under σ) 0 a).effects).filterMap Effect.event? := filterMap_lasts _

/-- A step that is no turn has its like under the other strategy, or has to do with the lock. -/
theorem Step.follow (hstep : s.Step (w.under σ) l s') (hl : ∀ i, l.turnOf? i = none)
    (hmine : ∀ i, (s.calls i).phase ≠ .checking → i = 0) (σ' : Strategy) (lock : Lock) :
    l = .aside ∧ s'.entering lock = s.entering lock ∨
      (s.entering lock).Step (w.under σ') l (s'.entering lock) := by
  cases hstep with
  | @turn i => simpa [Label.turnOf?] using hl i
  | lineUp => exact .inl ⟨rfl, rfl⟩
  | @invoke i on p hp hleft hop =>
    obtain rfl := hmine i (by simp [hp])
    have hne : (s.calls 0).phase ≠ .locking := by simp [hp]
    rw [entering_of_ne hne, entering_of_ne]
    · exact .inr (.invoke hp hleft hop)
    · exact hne
  | @ask i on q next r state hp hleft hasks =>
    obtain rfl := hmine i (by simp [hp])
    have hne : (s.calls 0).phase ≠ .locking := by simp [hp]
    rw [entering_of_ne hne, entering_of_ne]
    · exact .inr (.ask hp hleft hasks)
    · exact hne
  | @queue i hp =>
    obtain rfl := hmine i (by simp [hp])
    have hne : (s.calls 0).phase ≠ .locking := by simp [hp]
    rw [entering_of_ne hne, entering_of_ne]
    · exact .inr (.queue hp)
    · exact hne
  | place hserve => exact .inr (.place hserve)
  | renew hserve => exact .inr (.renew hserve)
  | refill hmore => exact .inr (.refill hmore)

/-- What a lone write does under one strategy it does under the other, up to the lock. -/
theorem Lone.follow (h₀ : s₀.Initial w) (hlock : s₀.lock = {})
    (h : Lone (w.under σ) trial o s₀ ls s) (σ' : Strategy) :
    ∃ ls' lock, Lone (w.under σ') trial o s₀ ls' (s.entering lock) ∧ Tells ls ls' := by
  obtain ⟨hrun, hsolo, hagrees, hfits⟩ := h
  induction hrun with
  | start =>
    have hsame : s₀.entering s₀.lock = s₀ := by
      rw [entering_of_ne (by rw [h₀.calls 0]; simp)]
    refine ⟨[], s₀.lock, ?_, .refl []⟩
    rw [hsame]
    exact ⟨.start, hsolo, hagrees, hfits⟩
  | @step ls l m s' hrun hstep ih =>
    obtain ⟨hsolo', hl⟩ := hsolo.of_concat
    rw [turnsOf_concat] at hagrees hfits
    have hagrees' : Agrees trial (turnsOf 0 ls) := fun t ht => hagrees t (List.mem_append_left _ ht)
    have hfits' : ∀ t ∈ turnsOf 0 ls, o.Fits t := fun t ht => hfits t (List.mem_append_left _ ht)
    have hlone : Lone (w.under σ) trial o s₀ ls m := ⟨hrun, hsolo', hagrees', hfits'⟩
    obtain ⟨ls', lock, h', htells⟩ := ih hsolo' hagrees' hfits'
    rcases hstep.answers 0 with ⟨hnone, -⟩ | ⟨a, -, hsome, -⟩
    · have hl (i : Nat) : l.turnOf? i = none := by
        by_cases hi : i = 0
        · rw [hi, hnone]
        · exact hl i hi
      have hmine (i : Nat) (hp : (m.calls i).phase ≠ .checking) : i = 0 := by
        by_contra hi
        rw [hrun.untouched (h₀.under σ) (hsolo' i hi)] at hp
        exact hp rfl
      rcases hstep.follow hl hmine σ' lock with ⟨rfl, hsame⟩ | hfollows
      · exact ⟨ls', lock, hsame ▸ h', (Tells.aside rfl rfl).symm.trans htells⟩
      · exact ⟨_, lock, h'.aside hfollows hl, htells.concat rfl rfl⟩
    · cases hstep with
      | @turn i a' u keep hserves =>
        obtain rfl : i = 0 := by
          by_contra hi
          simp [Label.turnOf?, hi] at hsome
        have hlast : m.turn (w.under σ) 0 a' ∈
            turnsOf 0 ls ++ ((Label.turn 0 (m.turn (w.under σ) 0 a')).turnOf? 0).toList :=
          List.mem_append_right _ (List.mem_singleton_self _)
        exact hlone.follow_turn h₀ hlock hserves (hagrees _ hlast) (hfits _ hlast) h' htells
      | invoke | ask | lineUp | queue | place | renew | refill => cases hsome

end Follow

/-! ### Both strategies -/

/-- A lone write comes to what its trials and the moment of its cancellation say. -/
theorem Lone.verdict (h₀ : s₀.Initial w) (h : Lone (w.under σ) trial o s₀ ls s)
    {r : Except WriteError α} (hr : (s.calls 0).phase = .finished r) :
    ∃ n, Stops (w.policy.under σ) trial o n ∧ attempts (turnsOf 0 ls) = List.range' 1 n ∧
      (r, events (turnsOf 0 ls)) =
        Write.verdict (w.policy.under σ) (w.name 0) (w.moment 0) trial n ∧
      invocations 0 ls = invoking trial (List.range' 1 n) := by
  have hcourse := h.run.course (h₀.under σ) h.agrees
  have hspared := hcourse.spared h.fits
  obtain ⟨n, hstops, hmade, hverdict⟩ := (hcourse.ended hr).verdict hspared.made hspared.told
  have hpending : ¬s.Pending 0 := by
    rw [Pending, hr]
    exact id
  have hinvoked := (h.run.counted (h₀.under σ) h.agrees).passed hpending
  rw [hmade] at hinvoked
  exact ⟨n, hstops, hmade, hverdict, hinvoked⟩

/-- Attempts that come to the same, and get as far as the operation in the same cases. -/
structure Matches (trial trial' : Nat → Trial α) : Prop where
  outcome : ∀ k, (trial k).outcome = (trial' k).outcome
  invokes : ∀ k, (trial k).invokes = (trial' k).invokes

/-- The strategy has no part in what a lone write comes to. -/
theorem Lone.determined (h₀ : s₀.Initial w) {trial' : Nat → Trial α}
    (hmatch : Matches trial trial') {r r' : Except WriteError α}
    (h : Lone (w.under σ) trial o s₀ ls s) (hr : (s.calls 0).phase = .finished r)
    (h' : Lone (w.under σ') trial' o s₀ ls' s') (hr' : (s'.calls 0).phase = .finished r') :
    r' = r ∧ Tells ls ls' := by
  obtain ⟨n, hstops, hmade, hverdict, hinvoked⟩ := h.verdict h₀ hr
  obtain ⟨n', hstops', hmade', hverdict', hinvoked'⟩ := h'.verdict h₀ hr'
  have hown (k : Nat) : (trial' k).outcome = (trial' k).outcome := rfl
  obtain rfl : n = n' := (hstops.under hmatch.outcome).unique (hstops'.under hown)
  rw [verdict_under hmatch.outcome] at hverdict
  rw [verdict_under hown, ← hverdict, Prod.mk.injEq] at hverdict'
  have hinvoking : invoking trial' = invoking trial := by
    funext made
    simp only [invoking, hmatch.invokes]
  exact ⟨hverdict'.1, by rw [hmade', hmade], hverdict'.2, by rw [hinvoked', hinvoked, hinvoking]⟩

/-- Two lone writes with the same result leave the same contents, whatever the strategies: a failed
one the contents as they were, another one what the answers to its last statements say. -/
theorem Lone.contents (hb : b.Lawful) (h₀ : s₀.Initial w) {trial' : Nat → Trial α}
    (h : Lone (w.under σ) trial o s₀ ls s) {r : Except WriteError α}
    (hr : (s.calls 0).phase = .finished r) (h' : Lone (w.under σ') trial' o s₀ ls' s')
    (hr' : (s'.calls 0).phase = .finished r)
    (hok : ∀ v, r = .ok v → b.Determined ∧ s'.work 0 = s.work 0) :
    b.committed s'.state = b.committed s.state := by
  cases r with
  | error x =>
    rw [h.run.commits_nothing hb (h₀.under σ) h.solo hr,
      h'.run.commits_nothing hb (h₀.under σ') h'.solo hr']
  | ok v =>
    obtain ⟨hdet, hwork⟩ := hok v rfl
    have hleft := (h.run.commits_value hb (h₀.under σ) h.solo hr).2
    have hleft' := (h'.run.commits_value hb (h₀.under σ') h'.solo hr').2
    rw [hwork] at hleft'
    exact hleft'.unique hdet hleft

/-- A write that is the only one on its coordinator does the same under both strategies.  What it
may do under one it may do under the other, to the last detail of the scene it leaves; the outcomes
of its attempts and the moment of its cancellation leave no choice but for what its statements do;
and it never waits for the lock in vain. -/
theorem strategies_agree (hb : b.Lawful) (h₀ : s₀.Initial w) (hlock : s₀.lock = {})
    (σ σ' : Strategy) (o : Onset) :
    (∀ (trial : Nat → Trial α) (ls : List (Label α)) (s : Scene b α) (r : Except WriteError α),
      Lone (w.under σ) trial o s₀ ls s → (s.calls 0).phase = .finished r →
      ∃ ls', Lone (w.under σ') trial o s₀ ls' s ∧ Tells ls ls') ∧
    (∀ (trial trial' : Nat → Trial α) (ls ls' : List (Label α)) (s s' : Scene b α)
      (r r' : Except WriteError α), Matches trial trial' →
      Lone (w.under σ) trial o s₀ ls s → (s.calls 0).phase = .finished r →
      Lone (w.under σ') trial' o s₀ ls' s' → (s'.calls 0).phase = .finished r' →
      r' = r ∧ Tells ls ls' ∧
        ((∀ v, r = .ok v → b.Determined ∧ s'.work 0 = s.work 0) →
          b.committed s'.state = b.committed s.state)) ∧
    (∀ (trial : Nat → Trial α) (ls : List (Label α)) (s : Scene b α),
      Lone (w.under σ) trial o s₀ ls s → (s.calls 0).phase = .locking →
      ∃ more s', Lone (w.under σ) trial o s₀ (ls ++ more) s' ∧
        (s'.calls 0).phase = .acquiring) := by
  refine ⟨fun trial ls s r hlone hr => ?_,
    fun trial trial' ls ls' s s' r r' hmatch hlone hr hlone' hr' => ?_,
    fun trial ls s hlone hp => ?_⟩
  · obtain ⟨ls', lock, hfollows, htells⟩ := hlone.follow h₀ hlock σ'
    have hne : (s.calls 0).phase ≠ .locking := by simp [hr]
    have hfree := hlone.run.unlocks (h₀.under σ) hlock hlone.solo hr
    have hfree' := hfollows.run.unlocks (h₀.under σ') hlock hfollows.solo (r := r)
      (by rw [entering_of_ne hne]; exact hr)
    rw [entering_of_ne hne] at hfollows hfree'
    have hsame : ({ s with lock } : Scene b α) = s := by
      rw [show lock = s.lock from hfree'.trans hfree.symm]
    rw [hsame] at hfollows
    exact ⟨ls', hfollows, htells⟩
  · obtain ⟨rfl, htells⟩ := Lone.determined h₀ hmatch hlone hr hlone' hr'
    exact ⟨rfl, htells, hlone.contents hb h₀ hr hlone' hr'⟩
  · obtain ⟨more, hmore, -⟩ := hlone.locked (h₀.under σ) hlock hp
    exact ⟨more, _, hmore, by simp [admitted]⟩

/-- The first attempt cannot begin its transaction; all else goes well. -/
def lockedOnce (k : Nat) : Trial Nat where
  connection := .ok 0
  begins := if k = 1 then .error (.sql .locked) else .ok ()
  operation := .ok 1
  commit := .ok ()
  rollback := .ok ()

theorem fits_never {t : Turn α} (h : t.answer ≠ .cancelled) : Onset.never.Fits t := by
  unfold Onset.Fits
  split <;> simp [h, Onset.reaches]

theorem Ledger.determined : Ledger.backend.Determined := by
  rintro q k r k' k'' ⟨-, rfl⟩ ⟨-, rfl⟩
  rfl

/-- A write whose second attempt commits does so under both strategies. -/
theorem strategies_agree_insertion :
    ∃ (ls : List (Label Nat)) (s : Scene Ledger.backend Nat),
      Lone (insertions.under .nativeQueuing) lockedOnce .never empty ls s ∧
        (s.calls 0).phase = .finished (.ok 1) ∧ s.work 0 = [("0", .ok 1)] ∧
        (∃ ls', Lone (insertions.under .mutex) lockedOnce .never empty ls' s ∧
          attempts (turnsOf 0 ls') = [1, 2]) ∧
        ∀ (trial : Nat → Trial Nat) (ls' : List (Label Nat)) (s' : Scene Ledger.backend Nat)
          (r : Except WriteError Nat), Matches lockedOnce trial →
          Lone (insertions.under .mutex) trial .never empty ls' s' →
          (s'.calls 0).phase = .finished r → s'.work 0 = [("0", .ok 1)] →
          r = .ok 1 ∧ attempts (turnsOf 0 ls') = [1, 2] ∧ s'.state.rows = ["0"] := by
  have r : Lone (insertions.under .nativeQueuing) lockedOnce .never empty [] empty :=
    ⟨.start, fun _ _ => rfl, by simp [Agrees, turnsOf], by simp [turnsOf]⟩
  have r := r.turn (.checked (a := .proceed) rfl (.inl rfl)) true (.inl rfl)
    (fits_never (by rintro ⟨⟩))
  have r := r.aside (.queue (i := 0) rfl) fun _ => rfl
  have r := r.aside (.place (i := 0) rfl) fun _ => rfl
  have r := r.turn (.opened rfl (by decide)) true rfl (fits_never (by rintro ⟨⟩))
  have r := r.turn (.begins (r := .error .locked) rfl (.inr ⟨rfl, rfl⟩)) true rfl
    (fits_never (by rintro ⟨⟩))
  have r := r.turn (.woken (a := .proceed) rfl (.inl rfl)) true (.inl rfl)
    (fits_never (by rintro ⟨⟩))
  have r := r.turn (.checked (a := .proceed) rfl (.inl rfl)) true (.inl rfl)
    (fits_never (by rintro ⟨⟩))
  have r := r.aside (.queue (i := 0) rfl) fun _ => rfl
  have r := r.turn (.lent rfl rfl) true rfl (fits_never (by rintro ⟨⟩))
  have r := r.turn (.begins (r := .ok ()) rfl (.inl ⟨rfl, rfl, rfl⟩)) true rfl
    (fits_never (by rintro ⟨⟩))
  have r := r.aside (.invoke (i := 0) rfl rfl rfl) fun _ => rfl
  have r := r.aside (.ask (i := 0) (r := .ok 1) rfl rfl (.inl ⟨_, rfl, rfl, rfl⟩)) fun _ => rfl
  have r := r.turn (.worked (r := .ok 1) rfl rfl) true rfl (fits_never (by rintro ⟨⟩))
  have r := r.turn (.commit (r := .ok ()) rfl (.inl ⟨_, rfl, rfl, rfl⟩)) true rfl
    (fits_never (by rintro ⟨⟩))
  obtain ⟨hfollows, hdetermined, -⟩ := strategies_agree (w := insertions) Ledger.lawful
    empty_initial rfl .nativeQueuing .mutex .never
  obtain ⟨ls', hlone, htells⟩ := hfollows _ _ _ _ r rfl
  refine ⟨_, _, r, rfl, rfl, ⟨ls', hlone, htells.made⟩, ?_⟩
  intro trial ls' s' x hmatch hlone' hx hwork
  obtain ⟨rfl, htells', hkeeps⟩ := hdetermined _ _ _ _ _ _ _ _ hmatch r rfl hlone' hx
  exact ⟨rfl, htells'.made, hkeeps fun _ _ => ⟨Ledger.determined, hwork⟩⟩

end Scene

end SingleWriter.Write
