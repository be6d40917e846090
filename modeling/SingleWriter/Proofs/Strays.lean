import SingleWriter.Proofs.Connections
import SingleWriter.Proofs.Crowd

/-! The connections of dropped calls.  A call that is dropped inside its transaction has its
connection closed, whatever statement is still under way on it.  One that is dropped while its
`BEGIN` is under way gives its connection back, and so the pool stays free of transactions only as
long as no such `BEGIN` takes effect after the drop. -/

namespace SingleWriter.Write

/-! ### What a step leaves of a connection that is gone -/

namespace Scene

variable {K Q R α : Type} {b : Backend K Q R} {w : Workload Q R α} {s s' : Scene b α} {i : Nat}
  {l : Label α} {on : ConnectionId}

/-- The engine notices an answer to a call at most on the connection of the call, or on a new
one. -/
theorem Sound.turned_beside (hb : b.Lawful) (h : s.Sound w) {a : Answer α}
    (ht : Turned w s i a s') :
    ∃ d, (s.Holds i d ∨ d = s.next) ∧ b.Beside d s.state s'.state := by
  have hi := h.engaged i
  unfold Engaged at hi
  cases ht with
  | bare _ _ _ _ hbecomes | lent _ _ hbecomes | worked _ _ hbecomes | failed _ _ hbecomes =>
    exact ⟨s.next, .inr rfl, by rw [hbecomes.state]; exact .refl _ _⟩
  | opened _ hbecomes =>
    exact ⟨s.next, .inr rfl, by rw [hbecomes.state]; exact hb.connect.1.beside⟩
  | begun hp hbegins hbecomes =>
    rw [hp] at hi
    refine ⟨_, .inl (holds_of_phase hp rfl), ?_⟩
    rw [hbecomes.state]
    exact (hb.begins_ok hi hbegins).1.beside
  | uncommitted hp hcommit hbecomes =>
    rw [hp] at hi
    refine ⟨_, .inl (holds_of_phase hp rfl), ?_⟩
    rw [hbecomes.state]
    exact (hb.commit_error hi.1.ne_idle hcommit).beside
  | committed hp hcommit hfreed _ hbecomes =>
    rw [hp] at hi
    refine ⟨_, .inl (holds_of_phase hp rfl), ?_⟩
    rw [hbecomes.state]
    exact (hb.replays hi.1 hcommit).2.2.trans (hfreed.beside hb).beside
  | unbegun hp hbegins hfreed _ _ hbecomes =>
    rw [hp] at hi
    refine ⟨_, .inl (holds_of_phase hp rfl), ?_⟩
    rw [hbecomes.state]
    exact (hb.begins_error hi hbegins).1.beside.trans (hfreed.beside hb).beside
  | restored hp hrollback hfreed _ _ hbecomes =>
    refine ⟨_, .inl (holds_of_phase hp rfl), ?_⟩
    rw [hbecomes.state]
    exact (hb.rollback_ok hrollback).1.beside.trans (hfreed.beside hb).beside
  | abandoned hp hrollback _ hbecomes =>
    refine ⟨_, .inl (holds_of_phase hp rfl), ?_⟩
    rw [hbecomes.state]
    exact (hb.rollback_error hrollback).beside.trans hb.close.beside

/-- A step does not touch a connection that is gone. -/
theorem Sound.stance_gone (hb : b.Lawful) (h : s.Sound w) (hstep : s.Step w l s')
    (hon : s.Gone on) : b.stance s'.state on = b.stance s.state on := by
  cases hstep with
  | turn keep hserves =>
    obtain ⟨d, hd, hbeside⟩ := h.turned_beside hb (hserves.turned keep)
    refine hbeside.apart on ?_
    rintro rfl
    rcases hd with hd | hd
    · exact hon.held _ hd
    · exact Nat.lt_irrefl _ (hd ▸ hon.lt)
  | @ask i d q next r state hp hleft hasks =>
    have hi := h.engaged i
    simp only [Engaged, hp, hleft] at hi
    refine (hb.asks hi.1.ne_idle hasks).1.apart on ?_
    rintro rfl
    exact hon.held i (holds_of_phase hp rfl)
  | @renew i d p hserve =>
    refine hb.close.apart on ?_
    rintro rfl
    exact hon.idle (Pool.mem_idle_of_lends hserve)
  | refill => exact hb.connect.1.apart on (Nat.ne_of_lt hon.lt)
  | invoke | lineUp | queue | place => rfl

/-- What is done on a connection that is gone concerns no call. -/
theorem Sound.beside_gone (h : s.Sound w) (hon : s.Gone on) (hcalls : s'.calls = s.calls)
    (hleft : s'.left = s.left) (hwork : s'.work = s.work) (hidle : s'.pool.idle = s.pool.idle)
    (hnext : s'.next = s.next) (hbeside : b.Beside on s.state s'.state) : s'.Sound w := by
  refine h.aside ?_ hcalls hleft hwork hon.held hbeside
  refine h.shrink (by rw [hidle]; exact h.idle_nodup) (fun d hd => ?_) (Nat.le_of_eq hnext.symm)
    fun j d hd => by rwa [Holds, hcalls] at hd
  rw [hidle] at hd
  refine ⟨hd, hbeside.apart d ?_⟩
  rintro rfl
  exact hon.idle hd

end Scene

/-! ### Stray connections -/

/-- What the last statement of a stray connection may still do.  A connection that is to be given
back is in no transaction. -/
def Stray.Fits {K Q : Type} (x : Stray Q) (σ : Stance K) : Prop :=
  match x.handed with
  | some .begins => σ = .idle
  | some (.asks _) => σ ≠ .idle ∧ x.discards = true
  | some .commit => σ ≠ .idle ∧ x.discards = true
  | some .rollback => x.discards = true
  | none => x.discards = true ∨ σ = .idle

section

variable {K Q R : Type} {b : Backend K Q R} {state state' : b.State} {c : ConnectionId}
  {x : Stray Q} {h : Handed Q} {ok : Bool}

theorem Stray.Fits.kept {σ : Stance K} (hx : x.Fits σ) (hkept : x.discards = false) :
    σ = .idle := by
  unfold Fits at hx
  cases hh : x.handed with
  | none =>
    rw [hh] at hx
    exact hx.resolve_left (by rw [hkept]; simp)
  | some h =>
    rw [hh, hkept] at hx
    cases h with
    | begins => exact hx
    | asks q | commit => cases hx.2
    | rollback => cases hx

/-- A statement that a stray connection carries out concerns this connection only. -/
theorem Backend.Carries.beside (hb : b.Lawful) (hcarries : b.Carries state c h ok state')
    (hhanded : x.handed = some h) (hx : x.Fits (b.stance state c)) :
    b.Beside c state state' := by
  unfold Stray.Fits at hx
  rw [hhanded] at hx
  cases hcarries with
  | @begins r _ hbegins =>
    cases r with
    | ok => exact (hb.begins_ok hx hbegins).1.beside
    | error e => exact (hb.begins_error hx hbegins).1.beside
  | asks hasks => exact (hb.asks hx.1 hasks).1.beside
  | @commit r _ hcommit =>
    cases r with
    | ok =>
      obtain ⟨since, base, draft, hsees⟩ : ∃ since base draft,
          Stance.Sees (b.commits state) (b.committed state) (b.stance state c)
            since base draft := by
        cases hσ : b.stance state c with
        | idle => exact absurd hσ hx.1
        | fresh => exact ⟨_, _, _, .fresh⟩
        | seen since base draft => exact ⟨_, _, _, .seen⟩
      obtain ⟨-, -, -, hapart, hmoves⟩ := hb.commit_ok hsees hcommit
      exact ⟨hapart, hmoves⟩
    | error e => exact (hb.commit_error hx.1 hcommit).beside
  | @rollback r _ hrollback =>
    cases r with
    | ok => exact (hb.rollback_ok hrollback).1.beside
    | error e => exact (hb.rollback_error hrollback).beside

/-- Unless it is a `BEGIN` that works, the last statement of a connection leaves none in a
transaction that is to be given back. -/
theorem Stray.Fits.late (hb : b.Lawful) {discards : Bool}
    (hcarries : b.Carries state c h ok state')
    (hx : (⟨some h, discards⟩ : Stray Q).Fits (b.stance state c))
    (hlate : ¬(h = .begins ∧ ok = true)) :
    (⟨none, discards⟩ : Stray Q).Fits (b.stance state' c) := by
  cases hcarries with
  | @begins r _ hbegins =>
    cases r with
    | ok => exact absurd ⟨rfl, rfl⟩ hlate
    | error e => exact .inr (hb.begins_error hx hbegins).2
  | asks | commit => exact .inl hx.2
  | rollback => exact .inl hx

end

/-! ### Crowds -/

namespace Crowd

variable {K Q R α : Type} {b : Backend K Q R} {w : Workload Q R α} {s s' s₀ : Crowd b α} {i : Nat}
  {l : Label Q α} {ls : List (Label Q α)} {c : ConnectionId} {x : Stray Q}

/-- What holds of every crowd that a run leads to in which no `BEGIN` of a dropped call takes
effect. -/
structure Sound (w : Workload Q R α) (s : Crowd b α) : Prop where
  scene : s.toScene.Sound w
  gone : ∀ {c x}, s.strays c = some x → s.Gone c
  fits : ∀ {c x}, s.strays c = some x → x.Fits (b.stance s.state c)

theorem Initial.sound (h : s.Initial w) : s.Sound w := by
  refine ⟨h.toInitial.sound, fun hc => ?_, fun hc => ?_⟩ <;>
  · rw [h.strays] at hc
    cases hc

/-- Whatever connection a call holds, its last statement fits. -/
theorem Sound.fits_held (h : s.Sound w) (hon : s.Holds i c) :
    (⟨s.handed? i, s.discards i⟩ : Stray Q).Fits (b.stance s.state c) := by
  have hi := h.scene.engaged i
  unfold Scene.Engaged at hi
  unfold Stray.Fits handed? discards
  rw [Scene.Holds, Call.connection?] at hon
  cases hp : (s.calls i).phase with
  | beginning on =>
    rw [hp] at hon hi
    cases hon
    exact hi
  | operating on =>
    rw [hp] at hon hi
    cases hon
    cases hleft : s.left i with
    | none => exact .inl rfl
    | some rest =>
      cases rest with
      | done r => exact .inl rfl
      | ask q next =>
        simp only [hleft] at hi
        exact ⟨hi.1.ne_idle, rfl⟩
  | committing on v =>
    rw [hp] at hon hi
    cases hon
    exact ⟨hi.1.ne_idle, rfl⟩
  | rollingBack on e => rfl
  | checking | locking | acquiring | backingOff d | finished r =>
    rw [hp] at hon
    cases hon

theorem Abandons.sound (h : s.Sound w) (ha : s.Abandons w i s') : s'.Sound w := by
  have hover : (s.calls i).over.connection? = none := rfl
  have hidle : s'.pool.idle = s.pool.idle := by rw [ha.becomes.pool]; rfl
  have hstray {d : ConnectionId} {x : Stray Q} (hd : s'.strays d = some x) :
      s.Holds i d ∧ x = ⟨s.handed? i, s.discards i⟩ ∨ s.strays d = some x := by
    rw [ha.strays] at hd
    split at hd
    · rename_i on hon
      by_cases hdon : d = on
      · subst hdon
        rw [Function.update_self] at hd
        exact .inl ⟨hon, (Option.some.inj hd).symm⟩
      · rw [Function.update_of_ne hdon] at hd
        exact .inr hd
    · exact .inr hd
  refine ⟨?_, fun hd => ?_, fun hd => ?_⟩
  · refine h.scene.of_becomes ha.becomes ?_ (fun j _ hd => ?_) (.refl s.next _)
      (ha.becomes.engaged_bare trivial)
    · refine h.scene.shrink (by rw [hidle]; exact h.scene.idle_nodup) (fun d hd => ?_)
        (Nat.le_of_eq ha.becomes.next.symm) (fun j d hd => ?_)
      · rw [hidle] at hd
        exact ⟨hd, by rw [ha.becomes.state]⟩
      · rcases ha.becomes.holds hd with ⟨-, hd⟩ | ⟨-, hd⟩
        · cases hd
        · exact hd
    · exact Nat.lt_irrefl _ (h.scene.held_lt hd)
  · rcases hstray hd with ⟨hon, -⟩ | hd
    · exact h.scene.gone hon ha.becomes rfl hover
    · exact (h.gone hd).becomes ha.becomes (Nat.le_refl _) (h.gone hd).idle (by simp [hover])
  · rw [ha.becomes.state]
    rcases hstray hd with ⟨hon, rfl⟩ | hd
    · exact h.fits_held hon
    · exact h.fits hd

/-- A stray connection that is settled is at rest without a transaction, or closed. -/
inductive Settles (s : Crowd b α) (c : ConnectionId) (x : Stray Q) (s' : Crowd b α) : Prop
  | kept : x.discards = false → s'.toScene = { s.toScene with pool := s.pool.giveBack c } →
      s'.strays = Function.update s.strays c none → Settles s c x s'
  | closed : s'.toScene = s.drop c → s'.strays = Function.update s.strays c none →
      Settles s c x s'

theorem settles (keep : Bool) (s : Crowd b α) (c : ConnectionId) (x : Stray Q) :
    s.Settles c x (s.settle keep c x) := by
  cases hx : x.discards with
  | true => exact .closed (by simp [settle, Stray.fate, hx, Scene.fulfil]) rfl
  | false =>
    cases keep with
    | true => exact .kept hx (by simp [settle, Stray.fate, hx, Scene.fulfil]) rfl
    | false => exact .closed (by simp [settle, Stray.fate, hx, Scene.fulfil]) rfl

theorem Sound.settled (hb : b.Lawful) (h : s.Sound w) (hx : s.strays c = some x)
    (hs : s.Settles c x s') : s'.Sound w := by
  have hgone := h.gone hx
  have others (hstrays : s'.strays = Function.update s.strays c none) {d : ConnectionId}
      {y : Stray Q} (hd : s'.strays d = some y) : d ≠ c ∧ s.strays d = some y := by
    rw [hstrays] at hd
    by_cases hdc : d = c
    · rw [hdc, Function.update_self] at hd
      cases hd
    · rw [Function.update_of_ne hdc] at hd
      exact ⟨hdc, hd⟩
  cases hs with
  | kept hkept hscene hstrays =>
    refine ⟨?_, fun hd => ?_, fun hd => ?_⟩
    · rw [hscene]
      refine h.scene.aside ?_ rfl rfl rfl hgone.held (.refl _ _)
      refine h.scene.rest (c := c) rfl hgone.idle hgone.lt (Nat.le_refl _) ((h.fits hx).kept hkept)
        (fun _ _ => rfl) (fun j d hd => ⟨hd, ?_⟩)
      rintro rfl
      exact hgone.held j hd
    · obtain ⟨hdc, hd⟩ := others hstrays hd
      have hother := h.gone hd
      rw [hscene]
      refine ⟨hother.lt, fun hmem => ?_, hother.held⟩
      rcases List.mem_append.mp hmem with hmem | hmem
      · exact hother.idle hmem
      · exact hdc (List.mem_singleton.mp hmem)
    · rw [hscene]
      exact h.fits (others hstrays hd).2
  | closed hscene hstrays =>
    refine ⟨?_, fun hd => ?_, fun hd => ?_⟩
    · rw [hscene]
      exact h.scene.beside_gone hgone rfl rfl rfl rfl rfl hb.close.beside
    · have hother := h.gone (others hstrays hd).2
      rw [hscene]
      exact ⟨hother.lt, hother.idle, hother.held⟩
    · obtain ⟨hdc, hd⟩ := others hstrays hd
      rw [hscene]
      show Stray.Fits _ (b.stance (b.close s.state c) _)
      rw [hb.close.apart _ hdc]
      exact h.fits hd

theorem Sound.carried (hb : b.Lawful) (h : s.Sound w) {handed : Handed Q} {discards ok : Bool}
    {state : b.State} (hx : s.strays c = some ⟨some handed, discards⟩)
    (hcarries : b.Carries s.state c handed ok state) (hlate : ¬(handed = .begins ∧ ok = true)) :
    ({ s with
      state
      strays := Function.update s.strays c (some ⟨none, discards⟩) } : Crowd b α).Sound w := by
  have hgone := h.gone hx
  have hbeside := hcarries.beside hb rfl (h.fits hx)
  have cases {d : ConnectionId} {y : Stray Q}
      (hd : Function.update s.strays c (some ⟨none, discards⟩) d = some y) :
      d = c ∧ y = ⟨none, discards⟩ ∨ d ≠ c ∧ s.strays d = some y := by
    by_cases hdc : d = c
    · rw [hdc, Function.update_self] at hd
      exact .inl ⟨hdc, (Option.some.inj hd).symm⟩
    · rw [Function.update_of_ne hdc] at hd
      exact .inr ⟨hdc, hd⟩
  refine ⟨h.scene.beside_gone hgone rfl rfl rfl rfl rfl hbeside, fun {d y} hd => ?_,
    fun {d y} hd => ?_⟩
  · have hother : s.Gone d := by
      rcases cases hd with ⟨rfl, -⟩ | ⟨-, hd⟩
      · exact hgone
      · exact h.gone hd
    exact ⟨hother.lt, hother.idle, hother.held⟩
  · show Stray.Fits _ (b.stance state d)
    rcases cases hd with ⟨rfl, rfl⟩ | ⟨hdc, hd⟩
    · exact (h.fits hx).late hb hcarries hlate
    · rw [hbeside.apart d hdc]
      exact h.fits hd

theorem Sound.step (hb : b.Lawful) (h : s.Sound w) (hstep : s.Step w l s')
    (hlate : ∀ c, l ≠ .late c .begins true) : s'.Sound w := by
  cases hstep with
  | scene hstep =>
    refine ⟨h.scene.step hb hstep, fun hd => ((h.gone hd).step hstep).2, fun hd => ?_⟩
    show Stray.Fits _ (b.stance _ _)
    rw [h.scene.stance_gone hb hstep (h.gone hd)]
    exact h.fits hd
  | drop => exact (s.abandons _).sound h
  | @late c handed discards ok state hx hcarries =>
    refine h.carried hb hx hcarries ?_
    rintro ⟨rfl, rfl⟩
    exact hlate c rfl
  | settle keep hx => exact h.settled hb hx (s.settles keep _ _)

theorem Run.sound (hb : b.Lawful) (h : s₀.Sound w) (hrun : s₀.Run w ls s)
    (hlate : ∀ c, .late c .begins true ∉ ls) : s.Sound w := by
  induction hrun with
  | start => exact h
  | step _ hstep ih =>
    refine (ih fun c hc => hlate c (List.mem_append_left _ hc)).step hb hstep fun c hc => ?_
    exact hlate c (List.mem_append_right _ (List.mem_singleton.mpr hc.symm))

/-- As long as no `BEGIN` of a dropped call takes effect, no connection at rest is in a transaction.
The connection of a dropped call is out of everybody's reach.  In the end it is at rest without a
transaction, which it may be only if its call was dropped while its `BEGIN` was under way, or it is
closed. -/
theorem drops_leave_no_transaction (hb : b.Lawful) (h : s₀.Initial w) (hrun : s₀.Run w ls s)
    (hlate : ∀ c, .late c .begins true ∉ ls) :
    (∀ c ∈ s.pool.idle, b.stance s.state c = .idle) ∧
      (∀ i s' on, s.Step w (.dropped i) s' → (s.calls i).connection? = some on →
        s'.Gone on ∧ ∃ x, s'.strays on = some x ∧ (x.discards = false →
          (s.calls i).phase = .beginning on ∧ b.stance s'.state on = .idle)) ∧
      ∀ c s', s.Step w (.settled c) s' → ∃ x, s.strays c = some x ∧ s'.strays c = none ∧
        (x.discards = false ∧ c ∈ s'.pool.idle ∧ b.stance s'.state c = .idle ∨
          s'.Gone c ∧ s'.state = b.close s.state c) := by
  have hsound := hrun.sound hb h.sound hlate
  refine ⟨hsound.scene.idle_rest, fun i s' on hstep hon => ?_, fun c s' hstep => ?_⟩
  · obtain ⟨⟩ := hstep
    have habandons := s.abandons (w := w) i
    have hsound' := habandons.sound hsound
    have hstray : (s.abandon w i).strays on = some ⟨s.handed? i, s.discards i⟩ := by
      simp [habandons.strays, hon]
    refine ⟨hsound'.gone hstray, _, hstray, fun hkept => ⟨?_, (hsound'.fits hstray).kept hkept⟩⟩
    unfold discards at hkept
    split at hkept
    · rename_i on' hp
      rw [Call.connection?, hp] at hon
      rw [hp, Option.some.inj hon]
    · cases hkept
  · obtain ⟨keep, x, hx, rfl⟩ : ∃ keep x, s.strays c = some x ∧ s' = s.settle keep c x := by
      cases hstep with
      | settle keep hx => exact ⟨keep, _, hx, rfl⟩
    refine ⟨x, hx, Function.update_self .., ?_⟩
    cases s.settles keep c x with
    | kept hkept hscene _ =>
      rw [hscene]
      exact .inl ⟨hkept, List.mem_append_right _ (List.mem_singleton_self c),
        (hsound.fits hx).kept hkept⟩
    | closed hscene _ =>
      rw [hscene]
      exact .inr ⟨⟨(hsound.gone hx).lt, (hsound.gone hx).idle, (hsound.gone hx).held⟩, rfl⟩

/-- Two calls are dropped: the first while its row is being added, and the second while its `BEGIN`
is under way.  The row is added all the same, and the `BEGIN` fails. -/
theorem drops_leave_ledger_free :
    ∃ (ls : List (Label String Nat)) (s : Crowd Ledger.backend Nat),
      empty.Run Scene.insertions ls s ∧ (∀ c, .late c .begins true ∉ ls) ∧
        s.dropped 0 = true ∧ s.dropped 1 = true ∧ s.pool.idle = [1] ∧
        ∀ c ∈ s.pool.idle, Ledger.backend.stance s.state c = .idle := by
  have r := Run.start (w := Scene.insertions) (s := empty)
  have r := r.step (.scene (.turn true (.checked (i := 0) (a := .proceed) rfl (.inl rfl))))
  have r := r.step (.scene (.queue (i := 0) rfl))
  have r := r.step (.scene (.place (i := 0) rfl))
  have r := r.step (.scene (.turn true (.opened (i := 0) rfl (by decide))))
  have r := r.step
    (.scene (.turn true (.begins (i := 0) (r := .ok ()) rfl (.inl ⟨rfl, rfl, rfl⟩))))
  have r := r.step (.scene (.invoke (i := 0) rfl rfl rfl))
  have r := r.step (.drop (i := 0) (by rintro r ⟨⟩))
  have r := r.step
    (.late (c := 0) (h := .asks "0") rfl (.asks (r := .ok 1) (.inl ⟨_, rfl, rfl, rfl⟩)))
  have r := r.step (.scene (.turn true (.checked (i := 1) (a := .proceed) rfl (.inl rfl))))
  have r := r.step (.scene (.queue (i := 1) rfl))
  have r := r.step (.scene (.place (i := 1) rfl))
  have r := r.step (.scene (.turn true (.opened (i := 1) rfl (by decide))))
  have r := r.step (.drop (i := 1) (by rintro r ⟨⟩))
  have r := r.step
    (.late (c := 1) (h := .begins) rfl (.begins (r := .error .locked) (.inr ⟨rfl, rfl⟩)))
  have r := r.step (.settle (c := 0) true rfl)
  have r := r.step (.settle (c := 1) true rfl)
  refine ⟨_, _, r, ?late, rfl, rfl, rfl,
    (drops_leave_no_transaction Ledger.lawful (empty_initial _) r ?late).1⟩
  intro c hc
  simp [Except.isOk, Except.toBool] at hc

/-- A call is dropped while its `BEGIN` is under way, and the `BEGIN` works: the connection is at
rest inside a transaction, and nobody can begin another one. -/
theorem dropped_begin_leaves_transaction :
    ∃ (ls : List (Label String Nat)) (s : Crowd Ledger.backend Nat),
      empty.Run Scene.insertions ls s ∧ s.pool.idle = [0] ∧
        Ledger.backend.stance s.state 0 ≠ .idle ∧
        ∀ c r l, Ledger.backend.begins s.state c r l → r = .error .locked := by
  have r := Run.start (w := Scene.insertions) (s := empty)
  have r := r.step (.scene (.turn true (.checked (i := 0) (a := .proceed) rfl (.inl rfl))))
  have r := r.step (.scene (.queue (i := 0) rfl))
  have r := r.step (.scene (.place (i := 0) rfl))
  have r := r.step (.scene (.turn true (.opened (i := 0) rfl (by decide))))
  have r := r.step (.drop (i := 0) (by rintro r ⟨⟩))
  have r := r.step
    (.late (c := 0) (h := .begins) rfl (.begins (r := .ok ()) (.inl ⟨rfl, rfl, rfl⟩)))
  have r := r.step (.settle (c := 0) true rfl)
  refine ⟨_, _, r, rfl, ?_, ?_⟩
  · exact fun h => nomatch h
  · rintro c r l (⟨h, -⟩ | ⟨h, -⟩)
    · cases h
    · exact h

end Crowd

end SingleWriter.Write
