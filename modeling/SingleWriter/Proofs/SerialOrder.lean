import SingleWriter.Proofs.Isolation

/-! The order of commits is a serial order.  Whatever the writes of a coordinator do at the same
time, the committed contents are those that the operations of the calls with a value make of the
first contents, one after the other as they have committed. -/

namespace SingleWriter.Write.Scene

variable {K Q R α : Type} {b : Backend K Q R} {w : Workload Q R α} {s s' : Scene b α} {i : Nat}

/-! ### One step -/

section

variable {c : Call α} {state : b.State} {pool : Pool} {next : ConnectionId} {a : Answer α}

theorem Turned.unfinished (h : Turned w s i a s') (r : Except WriteError α) :
    (s.calls i).phase ≠ .finished r := by
  cases h with
  | bare _ hgoes => exact hgoes r
  | lent hp | opened hp | begun hp | worked hp | failed hp | uncommitted hp | committed hp
  | unbegun hp | restored hp | abandoned hp =>
    rw [hp]
    simp

theorem Turned.elsewhere (h : Turned w s i a s') {j : Nat} (hj : j ≠ i) :
    s'.calls j = s.calls j ∧ s'.work = s.work := by
  have of_becomes {c : Call α} {state : b.State} {pool : Pool} {next : ConnectionId}
      (h : s.Becomes i c state pool next s') : s'.calls j = s.calls j ∧ s'.work = s.work :=
    ⟨by rw [h.calls, Function.update_of_ne hj], h.work⟩
  cases h with
  | bare _ _ _ _ h | lent _ _ h | opened _ h | begun _ _ h | worked _ _ h | failed _ _ h
  | uncommitted _ _ h | committed _ _ _ _ h | unbegun _ _ _ _ _ h | restored _ _ _ _ _ h
  | abandoned _ _ _ h => exact of_becomes h

theorem Step.stays {l : Label α} (h : s.Step w l s') {j : Nat} {r : Except WriteError α}
    (hj : (s.calls j).phase = .finished r) : s'.calls j = s.calls j ∧ s'.work j = s.work j := by
  cases h with
  | @turn i a t keep hserves =>
    have hturned := hserves.turned (w := w) keep
    have hne : j ≠ i := by
      rintro rfl
      exact hturned.unfinished r hj
    obtain ⟨hcalls, hwork⟩ := hturned.elsewhere hne
    exact ⟨hcalls, by rw [hwork]⟩
  | @invoke i on p hp | @ask i on q next r state hp =>
    have hne : j ≠ i := by
      rintro rfl
      rw [hp] at hj
      cases hj
    exact ⟨rfl, Function.update_of_ne hne _ _⟩
  | lineUp | queue | place | renew | refill => exact ⟨rfl, rfl⟩

/-- Call `i` commits what its operation has done, and has its value. -/
structure Commits (s : Scene b α) (i : Nat) (s' : Scene b α) : Prop where
  unfinished : ∀ r, (s.calls i).phase ≠ .finished r
  value : ∃ v, (s'.calls i).phase = .finished (.ok v)
  replays : Replays b.effect (b.committed s.state) (s.work i) (b.committed s'.state)
  elsewhere : ∀ j, j ≠ i → s'.calls j = s.calls j
  work : s'.work = s.work

/-- Nothing is committed, and no call comes to a value. -/
structure Quiet (s s' : Scene b α) : Prop where
  committed : b.committed s'.state = b.committed s.state
  values : ∀ j v, (s'.calls j).phase = .finished (.ok v) → (s.calls j).phase = .finished (.ok v)

theorem Becomes.quiet (h : s.Becomes i c state pool next s')
    (hc : ∀ v, c.phase ≠ .finished (.ok v)) (hk : b.committed state = b.committed s.state) :
    s.Quiet s' := by
  refine ⟨by rw [h.state, hk], fun j v hv => ?_⟩
  rw [h.calls] at hv
  by_cases hj : j = i
  · subst hj
    rw [Function.update_self] at hv
    exact absurd hv (hc v)
  · rwa [Function.update_of_ne hj] at hv

theorem Sound.commits_or_quiet (hb : b.Lawful) (h : s.Sound w) (ht : Turned w s i a s') :
    (s.turn w i a).commits = true ∧ s.Commits i s' ∨
      (s.turn w i a).commits = false ∧ s.Quiet s' := by
  have hi := h.engaged i
  unfold Engaged at hi
  cases ht with
  | committed hp hcommit hfreed _ hbecomes =>
    rw [hp] at hi
    obtain ⟨hreplays, -, -⟩ := hb.replays hi.1 hcommit
    refine .inl ⟨by rw [Turn.commits, turn, hp], ?_, ?_, ?_, ?_, hbecomes.work⟩
    · rw [hp]
      simp
    · rw [hbecomes.calls, Function.update_self]
      exact ⟨_, rfl⟩
    · rw [hbecomes.state, (hfreed.beside hb).committed]
      exact hreplays
    · intro j hj
      rw [hbecomes.calls, Function.update_of_ne hj]
  | bare hp _ hc _ hbecomes =>
    refine .inr ⟨?_, hbecomes.quiet hc.no_value rfl⟩
    unfold Turn.commits turn
    cases hφ : (s.calls i).phase with
    | committing on v =>
      rw [hφ] at hp
      exact hp.elim
    | _ => rfl
  | lent hp _ hbecomes =>
    exact .inr ⟨by rw [Turn.commits, turn, hp], hbecomes.quiet (by simp) rfl⟩
  | opened hp hbecomes =>
    exact .inr ⟨by rw [Turn.commits, turn, hp], hbecomes.quiet (by simp) hb.connect.1.committed⟩
  | begun hp hbegins hbecomes =>
    rw [hp] at hi
    exact .inr ⟨by rw [Turn.commits, turn, hp],
      hbecomes.quiet (by simp) (hb.begins_ok hi hbegins).1.committed⟩
  | worked hp _ hbecomes | failed hp _ hbecomes =>
    exact .inr ⟨by rw [Turn.commits, turn, hp], hbecomes.quiet (by simp) rfl⟩
  | uncommitted hp hcommit hbecomes =>
    rw [hp] at hi
    exact .inr ⟨by rw [Turn.commits, turn, hp],
      hbecomes.quiet (by simp) (hb.commit_error hi.1.ne_idle hcommit).committed⟩
  | unbegun hp hbegins hfreed _ hc hbecomes =>
    rw [hp] at hi
    exact .inr ⟨by rw [Turn.commits, turn, hp], hbecomes.quiet hc.no_value
      ((hfreed.beside hb).committed.trans (hb.begins_error hi hbegins).1.committed)⟩
  | restored hp hrollback hfreed _ hc hbecomes =>
    exact .inr ⟨by rw [Turn.commits, turn, hp], hbecomes.quiet hc.no_value
      ((hfreed.beside hb).committed.trans (hb.rollback_ok hrollback).1.committed)⟩
  | abandoned hp hrollback hc hbecomes =>
    exact .inr ⟨by rw [Turn.commits, turn, hp], hbecomes.quiet hc.no_value
      (hb.close.committed.trans (hb.rollback_error hrollback).committed)⟩

theorem Sound.step_commits (hb : b.Lawful) (h : s.Sound w) {l : Label α} (hstep : s.Step w l s') :
    (∃ i, l.committed? = some i ∧ s.Commits i s') ∨ l.committed? = none ∧ s.Quiet s' := by
  cases hstep with
  | @turn i a t keep hserves =>
    rcases h.commits_or_quiet hb (hserves.turned keep) with ⟨hl, hcommits⟩ | ⟨hl, hquiet⟩
    · exact .inl ⟨i, by rw [Label.committed?, hl]; rfl, hcommits⟩
    · exact .inr ⟨by rw [Label.committed?, hl]; rfl, hquiet⟩
  | @ask i on q next r state hp hleft hasks =>
    have hi := h.engaged i
    simp only [Engaged, hp, hleft] at hi
    exact .inr ⟨rfl, (hb.asks hi.1.ne_idle hasks).1.committed, fun _ _ hv => hv⟩
  | invoke | lineUp | queue | place => exact .inr ⟨rfl, rfl, fun _ _ hv => hv⟩
  | renew => exact .inr ⟨rfl, hb.close.committed, fun _ _ hv => hv⟩
  | refill => exact .inr ⟨rfl, hb.connect.1.committed, fun _ _ hv => hv⟩

end

/-! ### All steps -/

/-- What the operations of calls make of the contents `k`, one call after the other.  Each of them
has a value, and its last operation has come to it. -/
inductive Serial (w : Workload Q R α) (s : Scene b α) (k : K) : List Nat → K → Prop
  | start : Serial w s k [] k
  | next {order : List Nat} {i : Nat} {v : α} {k' k'' : K} : Serial w s k order k' →
      (s.calls i).phase = .finished (.ok v) → s.Worked w i v →
      Replays b.effect k' (s.work i) k'' → Serial w s k (order ++ [i]) k''

theorem Serial.stays {k k' : K} {order : List Nat} (h : s.Serial w k order k')
    (hstays : ∀ j r, (s.calls j).phase = .finished r →
      s'.calls j = s.calls j ∧ s'.work j = s.work j) : s'.Serial w k order k' := by
  induction h with
  | start => exact .start
  | next _ hv hworked hreplays ih =>
    obtain ⟨hcalls, hwork⟩ := hstays _ _ hv
    rw [← hwork] at hreplays
    refine .next ih (by rw [hcalls, hv]) ?_ hreplays
    rw [Worked, hcalls, hwork]
    exact hworked

/-- The calls that have committed, after the labels `ls`, are those with a value, and the contents
are those to which their operations lead in this order. -/
structure Ordered (w : Workload Q R α) (k : K) (ls : List (Label α)) (s : Scene b α) : Prop where
  nodup : (commitOrder ls).Nodup
  mem_iff : ∀ i, i ∈ commitOrder ls ↔ ∃ v, (s.calls i).phase = .finished (.ok v)
  serial : s.Serial w k (commitOrder ls) (b.committed s.state)

theorem commitOrder_concat (ls : List (Label α)) (l : Label α) :
    commitOrder (ls ++ [l]) = commitOrder ls ++ l.committed?.toList := by
  cases h : l.committed? <;> simp [commitOrder, h]

theorem Ordered.step (hb : b.Lawful) {k : K} {ls : List (Label α)} (h : s.Ordered w k ls)
    (hs : s.Sound w) {l : Label α} (hstep : s.Step w l s') : s'.Ordered w k (ls ++ [l]) := by
  have hstays := fun j r hj => hstep.stays (j := j) (r := r) hj
  rcases hs.step_commits hb hstep with ⟨i, hl, hcommits⟩ | ⟨hl, hquiet⟩
  · have hnew : i ∉ commitOrder ls := by
      intro hi
      obtain ⟨v, hv⟩ := (h.mem_iff i).mp hi
      exact hcommits.unfinished _ hv
    obtain ⟨v, hv⟩ := hcommits.value
    have hworked : s'.Worked w i v := by
      have hi := (hs.step hb hstep).engaged i
      rw [Engaged, hv] at hi
      exact hi
    have horder : commitOrder (ls ++ [l]) = commitOrder ls ++ [i] := by
      rw [commitOrder_concat, hl]
      rfl
    refine ⟨?_, fun j => ?_, ?_⟩
    · rw [horder]
      refine List.nodup_append.mpr ⟨h.nodup, by simp, fun j hj j' hj' => ?_⟩
      rw [List.mem_singleton] at hj'
      rintro rfl
      exact hnew (hj' ▸ hj)
    · rw [horder, List.mem_append, List.mem_singleton]
      by_cases hj : j = i
      · rw [hj]
        exact ⟨fun _ => ⟨v, hv⟩, fun _ => .inr rfl⟩
      · rw [hcommits.elsewhere j hj, h.mem_iff]
        exact ⟨fun hv => hv.resolve_right hj, .inl⟩
    · have hreplays := hcommits.replays
      rw [← hcommits.work] at hreplays
      rw [horder]
      exact .next (h.serial.stays hstays) hv hworked hreplays
  · have horder : commitOrder (ls ++ [l]) = commitOrder ls := by
      rw [commitOrder_concat, hl]
      simp
    refine ⟨by rw [horder]; exact h.nodup, fun j => ?_, ?_⟩
    · rw [horder, h.mem_iff]
      constructor
      · rintro ⟨v, hv⟩
        exact ⟨v, by rw [(hstays j _ hv).1, hv]⟩
      · rintro ⟨v, hv⟩
        exact ⟨v, hquiet.values j v hv⟩
    · rw [horder, hquiet.committed]
      exact h.serial.stays hstays

theorem Initial.ordered (h : s.Initial w) : s.Ordered w (b.committed s.state) [] := by
  refine ⟨List.nodup_nil, fun i => ?_, .start⟩
  rw [h.calls i]
  simp [commitOrder]

theorem Run.ordered (hb : b.Lawful) (h : s.Initial w) {ls : List (Label α)}
    (hrun : s.Run w ls s') : s'.Ordered w (b.committed s.state) ls := by
  induction hrun with
  | start => exact h.ordered
  | step hrun hstep ih => exact ih.step hb (h.sound.run hb hrun) hstep

/-- Any number of writes amounts to some of them, one after the other: those that return a value,
each once, in the order of their commits.  A write that returns an error leaves nothing behind. -/
theorem serializable {s₀ : Scene b α} {ls : List (Label α)} (hb : b.Lawful) (h : s₀.Initial w)
    (hrun : s₀.Run w ls s) :
    (commitOrder ls).Nodup ∧
      (∀ i, i ∈ commitOrder ls ↔ ∃ v, (s.calls i).phase = .finished (.ok v)) ∧
      (∀ i e, (s.calls i).phase = .finished (.error e) → i ∉ commitOrder ls) ∧
      s.Serial w (b.committed s₀.state) (commitOrder ls) (b.committed s.state) := by
  obtain ⟨hnodup, hmem, hserial⟩ := hrun.ordered hb h
  refine ⟨hnodup, hmem, fun i e he hi => ?_, hserial⟩
  obtain ⟨v, hv⟩ := (hmem i).mp hi
  rw [he] at hv
  cases hv

/-! ### Two writes to a ledger -/

/-- Adds a row and returns its number. -/
def insertion (row : String) : Program String Nat Nat :=
  .ask row fun r =>
    .done (match r with
      | .ok n => .ok n
      | .error e => .error (.sql e))

def insertions : Workload String Nat Nat where
  policy := {}
  operation := fun i _ p => p = insertion (toString i)

def empty : Scene Ledger.backend Nat where
  state := ({} : Ledger)
  pool := { limit := 2, minimum := 0 }
  next := 0
  calls := fun _ => { operation := defaultName }

theorem empty_initial : empty.Initial insertions :=
  ⟨fun _ => rfl, fun _ => rfl, .nil, by simp [empty], by simp [empty]⟩

/-- The first call is shut out in its first attempt and commits after the second one. -/
theorem serializable_insertions :
    ∃ (ls : List (Label Nat)) (s : Scene Ledger.backend Nat),
      empty.Run insertions ls s ∧ commitOrder ls = [1, 0] ∧ s.state.rows = ["1", "0"] ∧
        (s.calls 0).phase = .finished (.ok 2) ∧ (s.calls 1).phase = .finished (.ok 1) ∧
        s.Serial insertions [] [1, 0] ["1", "0"] := by
  have r := Run.start (w := insertions) (s := empty)
  have r := r.step (.turn true (.checked (i := 0) (a := .proceed) rfl (.inl rfl)))
  have r := r.step (.queue (i := 0) rfl)
  have r := r.step (.place (i := 0) rfl)
  have r := r.step (.turn true (.opened (i := 0) rfl (by decide)))
  have r := r.step (.turn true (.begins (i := 0) (r := .ok ()) rfl (.inl ⟨rfl, rfl, rfl⟩)))
  have r := r.step (.invoke (i := 0) rfl rfl rfl)
  have r := r.step (.ask (i := 0) (r := .error .locked) rfl rfl (.inr ⟨rfl, rfl⟩))
  have r := r.step (.turn true (.worked (i := 0) rfl rfl))
  have r := r.step (.turn true (.rollback (i := 0) (r := .ok ()) rfl (.inl ⟨⟨_, rfl⟩, rfl, rfl⟩)))
  have r := r.step (.turn true (.checked (i := 1) (a := .proceed) rfl (.inl rfl)))
  have r := r.step (.queue (i := 1) rfl)
  have r := r.step (.turn true (.lent (i := 1) rfl rfl))
  have r := r.step (.turn true (.begins (i := 1) (r := .ok ()) rfl (.inl ⟨rfl, rfl, rfl⟩)))
  have r := r.step (.invoke (i := 1) rfl rfl rfl)
  have r := r.step (.ask (i := 1) (r := .ok 1) rfl rfl (.inl ⟨_, rfl, rfl, rfl⟩))
  have r := r.step (.turn true (.worked (i := 1) rfl rfl))
  have r := r.step (.turn true (.commit (i := 1) (r := .ok ()) rfl (.inl ⟨_, rfl, rfl, rfl⟩)))
  have r := r.step (.turn true (.woken (i := 0) (a := .proceed) rfl (.inl rfl)))
  have r := r.step (.turn true (.checked (i := 0) (a := .proceed) rfl (.inl rfl)))
  have r := r.step (.queue (i := 0) rfl)
  have r := r.step (.turn true (.lent (i := 0) rfl rfl))
  have r := r.step (.turn true (.begins (i := 0) (r := .ok ()) rfl (.inl ⟨rfl, rfl, rfl⟩)))
  have r := r.step (.invoke (i := 0) rfl rfl rfl)
  have r := r.step (.ask (i := 0) (r := .ok 2) rfl rfl (.inl ⟨_, rfl, rfl, rfl⟩))
  have r := r.step (.turn true (.worked (i := 0) rfl rfl))
  have r := r.step (.turn true (.commit (i := 0) (r := .ok ()) rfl (.inl ⟨_, rfl, rfl, rfl⟩)))
  exact ⟨_, _, r, rfl, rfl, rfl, rfl, (serializable Ledger.lawful empty_initial r).2.2.2⟩

end SingleWriter.Write.Scene
