import SingleWriter.Proofs.Household
import SingleWriter.Session.Open

/-! The periodic checkpoints of a store.  They keep to their schedule, one after the other, and
whatever comes of one, the next is due; only the token of the store ends them, between two of them.
A shutdown that does not meet another one closes the database after that end. -/

namespace SingleWriter

/-! ### One look at the clock -/

namespace Checkpointer

variable {c c' : Checkpointer} {now : Nat}

/-- A tick is never early, and the one after it comes an interval later at least. -/
theorem wake_tick (h : c.wake now false = some c') : c.phase = .waiting ∧ c.next ≤ now ∧
    c' = { c with
      next := c.following now
      phase := .checkpointing { request := .checkpoint c.mode } } := by
  unfold wake at h
  cases hphase : c.phase with
  | waiting =>
    simp only [hphase, Bool.false_eq_true, if_false] at h
    split at h
    · exact ⟨rfl, ‹_›, (Option.some.inj h).symm⟩
    · cases h
  | checkpointing call | stopped =>
    rw [hphase] at h
    cases h

theorem wake_stop (h : c.wake now true = some c') :
    c.phase = .waiting ∧ c' = { c with phase := .stopped } := by
  unfold wake at h
  cases hphase : c.phase with
  | waiting =>
    simp only [hphase, if_true] at h
    exact ⟨rfl, (Option.some.inj h).symm⟩
  | checkpointing call | stopped =>
    rw [hphase] at h
    cases h

theorem le_following (c : Checkpointer) (now : Nat) :
    c.next + c.interval.nanos ≤ c.following now := by
  unfold following
  split <;> omega

theorem isStopped_iff : c.isStopped = true ↔ c.phase = .stopped := by
  unfold isStopped
  cases c.phase <;> simp

/-- Whatever comes of a checkpoint, the next one is waited for. -/
theorem advance_eq (c : Checkpointer) (call : Database.Call) :
    c.advance call =
      { c with phase := if call.result?.isSome then .waiting else .checkpointing call } := by
  unfold advance
  cases call.result? <;> rfl

end Checkpointer

namespace Household

variable {h h' : Household} {t : Ticker} {l : Label}

/-! ### The task -/

/-- What holds of the task of the periodic checkpoints: the next is due no earlier than the schedule
says, and of those that have begun all but the last are over. -/
structure Keeps (h : Household) (t : Ticker) : Prop where
  interval : h.interval = some t.state.interval
  mode : t.state.mode = h.store.config.mode
  due : t.since + (t.begun + 1) * t.state.interval.nanos ≤ t.state.next
  later : ∀ n, t.begun ≤ n → h.call (.periodic n) = { request := .checkpoint h.store.config.mode }
  earlier : ∀ n < t.begun, (h.call (.periodic n)).result?.isSome = true ∨
    n + 1 = t.begun ∧ t.state.phase = .checkpointing (h.call (.periodic n))

structure Tended (h : Household) : Prop where
  fresh : h.ticker = none →
    ∀ n, h.call (.periodic n) = { request := .checkpoint h.store.config.mode }
  keeps : ∀ t, h.ticker = some t → h.Keeps t

theorem Opened.tended (h : h'.Opened) : h'.Tended := by
  refine ⟨fun _ => h.periodic, fun t ht => ?_⟩
  rw [h.ticker] at ht
  cases ht

/-- A step that is none of the task's. -/
theorem Tended.same (ht : h.Tended) (hticker : h'.ticker = h.ticker)
    (hcalls : ∀ n, h'.call (.periodic n) = h.call (.periodic n))
    (hconfig : h'.store.config = h.store.config) : h'.Tended := by
  refine ⟨fun hnone n => ?_, fun t hsome => ?_⟩
  · rw [hcalls, hconfig]
    exact ht.fresh (hticker ▸ hnone) n
  · obtain ⟨hinterval, hmode, hdue, hlater, hearlier⟩ := ht.keeps t (hticker ▸ hsome)
    refine ⟨?_, hconfig ▸ hmode, hdue, fun n hn => ?_, fun n hn => ?_⟩
    · rw [Household.interval, hconfig]
      exact hinterval
    · rw [hcalls, hconfig]
      exact hlater n hn
    · rw [hcalls]
      exact hearlier n hn

theorem Tended.begins (ht : h.Tended) {d : Duration} (hd : h.interval = some d)
    (hnone : h.ticker = none) : Tended { h with
      ticker := some { since := h.now, state := .start h.now d h.store.config.mode } } := by
  refine ⟨(fun hno => by cases hno), fun t hsome => ?_⟩
  obtain rfl := (Option.some.inj hsome).symm
  refine ⟨hd, rfl, ?_, fun n _ => ht.fresh hnone n, fun n hn => absurd hn (Nat.not_lt_zero n)⟩
  simp [Checkpointer.start]

theorem Tended.ticks (ht : h.Tended) {c : Checkpointer} (hsome : h.ticker = some t)
    (hwake : t.state.wake h.now false = some c) :
    Tended { h with ticker := some { t with begun := t.begun + 1, state := c } } := by
  obtain ⟨hinterval, hmode, hdue, hlater, hearlier⟩ := ht.keeps t hsome
  obtain ⟨hwaiting, -, rfl⟩ := Checkpointer.wake_tick hwake
  refine ⟨(fun hno => by cases hno), fun t' hsome' => ?_⟩
  obtain rfl := (Option.some.inj hsome').symm
  have hfresh := hlater t.begun (Nat.le_refl _)
  refine ⟨hinterval, hmode, ?_, fun n hn => hlater n (Nat.le_of_succ_le hn), fun n hn => ?_⟩
  · have hfollowing := t.state.le_following h.now
    have hmore : (t.begun + 1 + 1) * t.state.interval.nanos =
        (t.begun + 1) * t.state.interval.nanos + t.state.interval.nanos := Nat.succ_mul ..
    show t.since + (t.begun + 1 + 1) * t.state.interval.nanos ≤ t.state.following h.now
    omega
  · rcases Nat.lt_succ_iff_lt_or_eq.mp hn with hn | rfl
    · refine .inl ((hearlier n hn).resolve_right fun hlast => ?_)
      rw [hwaiting] at hlast
      cases hlast.2
    · exact .inr ⟨rfl, by rw [← hmode] at hfresh; exact congrArg _ hfresh.symm⟩

theorem Tended.works (ht : h.Tended) {n : Nat} {a : Database.Answer} {s : Database.Traffic}
    (hsome : h.ticker = some t) (hn : t.begun = n + 1)
    (hstep : h.traffic.Step (.turn (Caller.periodic n).number a) s) :
    Tended { h with
      traffic := s
      ticker := some
        { t with state := t.state.advance (s.calls (Caller.periodic n).number) } } := by
  obtain ⟨hinterval, hmode, hdue, hlater, hearlier⟩ := ht.keeps t hsome
  have hothers (m : Nat) (hm : m ≠ n) :
      s.calls (Caller.periodic m).number = h.call (.periodic m) :=
    call_of_ne (by simpa using hm) hstep
  have hover (m : Nat) (hm : m < t.begun) (hmn : m ≠ n) :
      (s.calls (Caller.periodic m).number).result?.isSome = true := by
    rw [hothers m hmn]
    refine (hearlier m hm).resolve_right fun hlast => ?_
    omega
  have hlater' (m : Nat) (hm : t.begun ≤ m) : s.calls (Caller.periodic m).number =
      { request := .checkpoint h.store.config.mode } := by
    rw [hothers m (by omega)]
    exact hlater m hm
  rw [Checkpointer.advance_eq]
  refine ⟨(fun hno => by cases hno), fun t' hsome' => ?_⟩
  obtain rfl := (Option.some.inj hsome').symm
  refine ⟨hinterval, hmode, hdue, hlater', fun m hm => ?_⟩
  by_cases hmn : m = n
  · subst hmn
    cases hresult : (s.calls (Caller.periodic m).number).result? with
    | none => exact .inr ⟨hn.symm, rfl⟩
    | some r => exact .inl (congrArg Option.isSome hresult)
  · exact .inl (hover m hm hmn)

theorem Tended.ends (ht : h.Tended) {c : Checkpointer} (hsome : h.ticker = some t)
    (hwake : t.state.wake h.now true = some c) :
    Tended { h with ticker := some { t with state := c } } := by
  obtain ⟨hinterval, hmode, hdue, hlater, hearlier⟩ := ht.keeps t hsome
  obtain ⟨hwaiting, rfl⟩ := Checkpointer.wake_stop hwake
  refine ⟨(fun hno => by cases hno), fun t' hsome' => ?_⟩
  obtain rfl := (Option.some.inj hsome').symm
  refine ⟨hinterval, hmode, hdue, hlater, fun n hn => .inl ((hearlier n hn).resolve_right ?_)⟩
  rintro ⟨-, hlast⟩
  rw [hwaiting] at hlast
  cases hlast

theorem Tended.step (hstep : h.Step l h') (ht : h.Tended) : h'.Tended := by
  cases hstep with
  | begins hd hnone => exact ht.begins hd hnone
  | ticks hsome hwake => exact ht.ticks hsome hwake
  | works hsome _ hn hs => exact ht.works hsome hn hs
  | ends hsome _ hwake => exact ht.ends hsome hwake
  | enters =>
    rw [Shutdown.enter_store]
    exact ht.same rfl (fun _ => rfl) rfl
  | joins | passes | drops => exact ht.same rfl (fun _ => rfl) rfl
  | closes _ hs | removes _ hs => exact ht.same rfl (fun n => call_of_ne (by simp) hs) rfl
  | aside hs hothers =>
    refine ht.same rfl (fun n => hs.calls_of_ne fun a ha => ?_) rfl
    obtain ⟨j, hj⟩ := hothers _ a ha
    cases Caller.number_inj.mp hj

theorem Run.tended {ls : List Label} (hrun : h.Run ls h') (ht : h.Tended) : h'.Tended :=
  hrun.preserves (fun hstep ht => ht.step hstep) ht

/-- The checkpoint with this number is under way. -/
def Runs (h : Household) (n : Nat) : Prop :=
  (∃ t, h.ticker = some t ∧ n < t.begun) ∧ (h.call (.periodic n)).result? = none

/-- The task waits for its ticker or for its end. -/
def Waits (h : Household) : Prop := ∃ t, h.ticker = some t ∧ t.state.phase = .waiting

theorem Tended.runs (ht : h.Tended) {n : Nat} (hn : h.Runs n) : ∃ t, h.ticker = some t ∧
    n + 1 = t.begun ∧ t.state.phase = .checkpointing (h.call (.periodic n)) := by
  obtain ⟨⟨t, hsome, hlt⟩, hresult⟩ := hn
  refine ⟨t, hsome, ((ht.keeps t hsome).earlier n hlt).resolve_left ?_⟩
  rw [hresult]
  decide

theorem Tended.idle (ht : h.Tended) (hsome : h.ticker = some t)
    (hphase : ∀ c, t.state.phase ≠ .checkpointing c) (n : Nat) : ¬h.Runs n := by
  intro hn
  obtain ⟨t', hsome', -, hrunning⟩ := ht.runs hn
  rw [hsome] at hsome'
  cases hsome'
  exact hphase _ hrunning

/-- A task that waits has its next tick in time. -/
theorem Waits.ticks (hw : h.Waits) : ∃ n due, ∀ time, h.now ≤ time → due ≤ time →
    ∃ m, h.Step .passes { h with now := time } ∧
      Step { h with now := time } (.ticks n time) m := by
  obtain ⟨t, hsome, hphase⟩ := hw
  refine ⟨t.begun, t.state.next, fun time hlater hdue => ?_⟩
  have hwake : t.state.wake time false = some { t.state with
      next := t.state.following time
      phase := .checkpointing { request := .checkpoint t.state.mode } } := by
    simp only [Checkpointer.wake, hphase, Bool.false_eq_true, if_false, if_pos hdue]
  exact ⟨_, .passes hlater, .ticks hsome hwake⟩

theorem Ended.phase (he : h.Ended) (hsome : h.ticker = some t) : t.state.phase = .stopped := by
  obtain ⟨t', hsome', hstopped⟩ := he
  rw [hsome] at hsome'
  cases hsome'
  exact Checkpointer.isStopped_iff.mp hstopped

/-- Steps of the task. -/
def Label.OfTask : Label → Prop
  | .begins _ => True
  | .ticks _ _ => True
  | .works _ _ => True
  | .ends => True
  | _ => False

theorem Ended.step (he : h.Ended) (hstep : h.Step l h') : ¬l.OfTask ∧ h'.Ended := by
  cases hstep with
  | begins _ hnone =>
    obtain ⟨t, hsome, -⟩ := he
    rw [hnone] at hsome
    cases hsome
  | ticks hsome hwake =>
    have hwaiting := (Checkpointer.wake_tick hwake).1
    rw [he.phase hsome] at hwaiting
    cases hwaiting
  | works hsome hphase =>
    rw [he.phase hsome] at hphase
    cases hphase
  | ends hsome _ hwake =>
    have hwaiting := (Checkpointer.wake_stop hwake).1
    rw [he.phase hsome] at hwaiting
    cases hwaiting
  | enters | joins | passes | drops | closes | removes | aside => exact ⟨id, he⟩

theorem Tended.interval (ht : h.Tended) (hsome : h.ticker = some t) : h.interval.isSome = true := by
  rw [(ht.keeps t hsome).interval]
  rfl

theorem Tended.ofTask (ht : h.Tended) (hstep : h.Step l h') (hl : l.OfTask) :
    h.interval.isSome = true := by
  cases hstep with
  | begins hd =>
    rw [hd]
    rfl
  | ticks hsome | works hsome | ends hsome => exact ht.interval hsome
  | enters | joins | passes | drops | closes | removes | aside => exact hl.elim

theorem Step.config (hstep : h.Step l h') : h'.store.config = h.store.config := by
  cases hstep with
  | enters =>
    rw [Shutdown.enter_store]
  | begins | ticks | works | ends | joins | passes | drops | closes | removes | aside => rfl

theorem Step.interval (hstep : h.Step l h') : h'.interval = h.interval := by
  rw [Household.interval, hstep.config]
  rfl

/-! ### The schedule -/

/-- When the ticker was created, how many checkpoints have begun, and the time between them. -/
def record (h : Household) : Option (Nat × Nat × Duration) :=
  h.ticker.map fun t => (t.since, t.begun, t.state.interval)

def Label.tick? : Label → Option Nat
  | .ticks n _ => some n
  | _ => none

/-- What a run says of the task: it created its ticker once, the checkpoints are numbered as they
begin, and none begins before its time. -/
structure Chronicle (ls : List Label) (h : Household) : Prop where
  created : ∀ u, .begins u ∈ ls ↔ ∃ r, h.record = some r ∧ r.1 = u
  numbered : ls.filterMap Label.tick? = List.range ((h.record.map (·.2.1)).getD 0)
  punctual : ∀ n time, .ticks n time ∈ ls →
    ∃ r, h.record = some r ∧ r.1 + (n + 1) * r.2.2.nanos ≤ time

theorem Chronicle.start (hnone : h.ticker = none) : Chronicle [] h := by
  have hrecord : h.record = none := by rw [record, hnone]; rfl
  refine ⟨fun u => ?_, by rw [hrecord]; rfl, fun n time hmem => by cases hmem⟩
  rw [hrecord]
  simp

theorem Chronicle.quiet {ls : List Label} (hc : Chronicle ls h) (hrecord : h'.record = h.record)
    (hbegins : ∀ u, l ≠ .begins u) (hticks : ∀ n time, l ≠ .ticks n time) :
    Chronicle (ls ++ [l]) h' := by
  have hnone : l.tick? = none := by
    cases l with
    | ticks n time => exact absurd rfl (hticks n time)
    | begins | works | ends | enters | joins | closes | removes | aside | passes | drops => rfl
  obtain ⟨hcreated, hnumbered, hpunctual⟩ := hc
  refine ⟨fun u => ?_, ?_, fun n time hmem => ?_⟩
  · rw [hrecord, ← hcreated, List.mem_append, List.mem_singleton]
    exact or_iff_left (hbegins u).symm
  · rw [hrecord, List.filterMap_append, hnumbered]
    simp [hnone]
  · rw [hrecord]
    rcases List.mem_append.mp hmem with hmem | hmem
    · exact hpunctual n time hmem
    · exact absurd (List.mem_singleton.mp hmem).symm (hticks n time)

theorem Chronicle.step {ls : List Label} (hc : Chronicle ls h) (ht : h.Tended)
    (hstep : h.Step l h') : Chronicle (ls ++ [l]) h' := by
  cases hstep with
  | @begins d hd hnone =>
    have hrecord : h.record = none := by rw [record, hnone]; rfl
    obtain ⟨hcreated, hnumbered, hpunctual⟩ := hc
    rw [hrecord] at hcreated hnumbered hpunctual
    refine ⟨fun u => ?_, ?_, fun n time hmem => ?_⟩
    · rw [List.mem_append, hcreated]
      simp [record, eq_comm]
    · rw [List.filterMap_append, hnumbered]
      rfl
    · rcases List.mem_append.mp hmem with hmem | hmem
      · obtain ⟨r, hr, -⟩ := hpunctual n time hmem
        cases hr
      · simp at hmem
  | @ticks t c hsome hwake =>
    have hrecord : h.record = some (t.since, t.begun, t.state.interval) := by
      rw [record, hsome]
      rfl
    have hdue := (ht.keeps t hsome).due
    obtain ⟨-, hnext, rfl⟩ := Checkpointer.wake_tick hwake
    obtain ⟨hcreated, hnumbered, hpunctual⟩ := hc
    rw [hrecord] at hcreated hnumbered hpunctual
    refine ⟨fun u => ?_, ?_, fun n time hmem => ?_⟩
    · rw [List.mem_append, hcreated]
      simp [record]
    · rw [List.filterMap_append, hnumbered]
      exact List.range_succ.symm
    · rcases List.mem_append.mp hmem with hmem | hmem
      · obtain ⟨r, hr, hle⟩ := hpunctual n time hmem
        cases hr
        exact ⟨_, rfl, hle⟩
      · cases List.mem_singleton.mp hmem
        exact ⟨_, rfl, Nat.le_trans hdue hnext⟩
  | works hsome =>
    refine hc.quiet ?_ (by simp) (by simp)
    rw [record, record, hsome, Checkpointer.advance_eq]
    rfl
  | ends hsome _ hwake =>
    obtain ⟨-, rfl⟩ := Checkpointer.wake_stop hwake
    refine hc.quiet ?_ (by simp) (by simp)
    rw [record, record, hsome]
    rfl
  | enters | joins | passes | drops | closes | removes | aside =>
    exact hc.quiet rfl (by simp) (by simp)

/-- The periodic checkpoints are over, if there ever were to be any. -/
def AtRest (h : Household) : Prop := h.interval.isSome = true → h.Ended

theorem AtRest.step (hr : h.AtRest) (ht : h.Tended) (hstep : h.Step l h') :
    ¬l.OfTask ∧ h'.AtRest := by
  refine ⟨fun hl => ?_, fun hinterval => ?_⟩
  · exact ((hr (ht.ofTask hstep hl)).step hstep).1 hl
  · rw [hstep.interval] at hinterval
    exact ((hr hinterval).step hstep).2

theorem AtRest.run {ls : List Label} (hr : h.AtRest) (ht : h.Tended) (hrun : h.Run ls h') :
    h'.AtRest ∧ ∀ l ∈ ls, ¬l.OfTask := by
  induction hrun with
  | start => exact ⟨hr, by simp⟩
  | @step ls l m h' hrun hstep ih =>
    obtain ⟨hrest, hquiet⟩ := ih
    obtain ⟨hl, hrest'⟩ := hrest.step (hrun.tended ht) hstep
    refine ⟨hrest', fun l' hmem => ?_⟩
    rcases List.mem_append.mp hmem with hmem | hmem
    · exact hquiet l' hmem
    · rw [List.mem_singleton.mp hmem]
      exact hl

theorem AtRest.idle (hr : h.AtRest) (ht : h.Tended) (n : Nat) : ¬h.Runs n := by
  intro hn
  obtain ⟨t, hsome, -, hphase⟩ := ht.runs hn
  rw [(hr (ht.interval hsome)).phase hsome] at hphase
  cases hphase

theorem withShutdown_ne {k : Nat} (s : Shutdown) {j : Nat} (hj : j ≠ k) :
    (h.withShutdown k s).shutdowns j = h.shutdowns j := Function.update_of_ne hj ..

theorem withShutdown_self (k : Nat) (s : Shutdown) :
    (h.withShutdown k s).shutdowns k = s := Function.update_self ..

/-- Whoever waits for the end of the task does so until it learns of it. -/
theorem Joining.step {k : Nat} (hk : h.Joining k) (hstep : h.Step l h') :
    h'.Joining k ∨ h'.Ended := by
  obtain ⟨task, hphase⟩ := hk
  have other {j : Nat} {φ : ShutdownPhase} (s : Shutdown) (hj : (h.shutdowns j).phase = φ)
      (hφ : φ ≠ .joining task) : (h.withShutdown j s).Joining k := by
    refine ⟨task, ?_⟩
    rw [withShutdown_ne s, hphase]
    rintro rfl
    exact hφ (hj.symm.trans hphase)
  cases hstep with
  | begins | ticks | works | ends | passes | drops | aside => exact .inl ⟨task, hphase⟩
  | joins _ hended => exact .inr hended
  | enters hj | closes hj | removes hj => exact .inl (other _ hj (by simp))

/-- Somebody sees to the end of the task: the store, or a shutdown that waits for it. -/
def Kept (h : Household) : Prop := h.interval.isSome = true →
  h.store.checkpointer.isSome = true ∨ (∃ k, h.Joining k) ∨ h.Ended

theorem Opened.kept (h : h'.Opened) : h'.Kept := fun hinterval => .inl (h.spawned.trans hinterval)

theorem enter_joining {k task : Nat} (htask : h.store.checkpointer = some task) :
    Joining { h.withShutdown k ((h.shutdowns k).enter h.store).1 with
      store := ((h.shutdowns k).enter h.store).2 } k := by
  refine ⟨task, ?_⟩
  rw [show Household.shutdowns _ k = _ from withShutdown_self .., Shutdown.enter_phase, htask]

theorem Kept.step (hk : h.Kept) (hstep : h.Step l h') : h'.Kept := by
  intro hinterval
  rw [hstep.interval] at hinterval
  rcases hk hinterval with hstore | ⟨k, hjoining⟩ | hended
  · cases hstep with
    | begins | ticks | works | ends | joins | passes | drops | closes | removes | aside =>
      exact .inl hstore
    | @enters k =>
      obtain ⟨task, htask⟩ := Option.isSome_iff_exists.mp hstore
      exact .inr (.inl ⟨k, enter_joining htask⟩)
  · exact .inr ((hjoining.step hstep).imp_left fun h => ⟨k, h⟩)
  · exact .inr (.inr (hended.step hstep).2)

theorem Run.kept {ls : List Label} (hrun : h.Run ls h') (hk : h.Kept) : h'.Kept :=
  hrun.preserves (fun hstep hk => hk.step hstep) hk

/-- A shutdown that comes while nobody waits for the end of the task waits for it, unless there is
none. -/
theorem Kept.enters {k : Nat} (hk : h.Kept) (hnobody : ∀ j, ¬h.Joining j)
    (hstep : h.Step (.enters k) h') : h'.Joining k ∨ h'.AtRest := by
  cases hstep with
  | enters =>
    cases hstore : h.store.checkpointer with
    | some task => exact .inl (enter_joining hstore)
    | none =>
      refine .inr fun hinterval => ?_
      rw [Household.interval, Shutdown.enter_store] at hinterval
      rcases hk hinterval with hsome | ⟨j, hj⟩ | hended
      · rw [hstore] at hsome
        cases hsome
      · exact absurd hj (hnobody j)
      · exact hended

theorem Run.joined {ls : List Label} {k : Nat} (hrun : h.Run ls h') (ht : h.Tended)
    (hk : h.Joining k ∨ h.AtRest) : h'.Joining k ∨ h'.AtRest := by
  induction hrun with
  | start => exact hk
  | step hrun hstep ih =>
    rcases ih with hjoining | hrest
    · exact (hjoining.step hstep).imp_right fun hended _ => hended
    · exact .inr (hrest.step (hrun.tended ht) hstep).2

/-! ### The whole life of the task -/

theorem Run.here {ls : List Label} (_ : h.Run ls h') : h'.Run [] h' := .start

theorem Run.config {ls : List Label} (hrun : h.Run ls h') : h'.store.config = h.store.config :=
  hrun.preserves (P := fun m => m.store.config = h.store.config)
    (fun hstep hm => hstep.config.trans hm) rfl

theorem Run.interval {ls : List Label} (hrun : h.Run ls h') : h'.interval = h.interval :=
  hrun.preserves (P := fun m => m.interval = h.interval)
    (fun hstep hm => hstep.interval.trans hm) rfl

end Household

namespace Household

/-- A store with a checkpoint every 50 ms. -/
def frequent : StoreConfig := { path := "app.db", checkpointIntervalMs := some 50 }

def requests (i : Nat) : Database.Request :=
  match i % 4 with
  | 0 => .checkpoint frequent.mode
  | 1 => .close
  | 2 => .remove
  | _ => .acquire

def justOpened : Household where
  store := { config := frequent, checkpointer := some 0 }
  traffic :=
    { handle := { path := "app.db", config := frequent.database,
                  pool := some { limit := 1, minimum := 1, idle := [0] } }
      next := 1
      calls := fun i => { request := requests i } }
  shutdowns := fun _ => { remove := false }

theorem justOpened_opened : justOpened.Opened := by
  have hcall (who : Caller) : justOpened.call who = { request := requests who.number } := rfl
  have hmod (n r : Nat) (hr : r < 4) : (4 * n + r) % 4 = r := by omega
  refine ⟨rfl, rfl, ⟨nofun, nofun, fun _ j => ?_⟩, rfl, fun n => ?_, fun k => ?_, fun k => ?_,
    fun _ => rfl⟩
  · exact Bool.and_false _
  · rw [hcall, requests, Caller.number, Nat.mul_mod_right]
    rfl
  · rw [hcall, requests, Caller.number, hmod k 1 (by decide)]
    rfl
  · rw [hcall, requests, Caller.number, hmod k 2 (by decide)]
    rfl

end Household

end SingleWriter
