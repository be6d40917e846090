import SingleWriter.Proofs.Scene

/-! What holds of every scene that a run leads to.  Each connection is at rest outside a
transaction, held by one call, or gone; and the transaction of a call has done what its operation
has asked, and nothing else. -/

namespace SingleWriter.Write.Scene

variable {K Q R α : Type} {b : Backend K Q R} {w : Workload Q R α} {s s' : Scene b α} {i : Nat}

def Holds (s : Scene b α) (i : Nat) (c : ConnectionId) : Prop := (s.calls i).connection? = some c

/-- Every connection is at rest without a transaction, held by one call, or gone. -/
structure Housed (s : Scene b α) : Prop where
  idle_nodup : s.pool.idle.Nodup
  idle_lt : ∀ c ∈ s.pool.idle, c < s.next
  idle_rest : ∀ c ∈ s.pool.idle, b.stance s.state c = .idle
  held_lt : ∀ {i c}, s.Holds i c → c < s.next
  held_apart : ∀ {i c}, s.Holds i c → c ∉ s.pool.idle
  held_alone : ∀ {i j c}, s.Holds i c → s.Holds j c → i = j

/-- The last operation of call `i` has come to a value. -/
def Worked (w : Workload Q R α) (s : Scene b α) (i : Nat) (v : α) : Prop :=
  ∃ p, w.operation i (s.calls i).attempt p ∧ p.Follows (s.work i) (.done (.ok v))

/-- What the engine has seen of the operation that call `i` has under way. -/
def Engaged (w : Workload Q R α) (s : Scene b α) (i : Nat) : Prop :=
  match (s.calls i).phase with
  | .beginning on => b.stance s.state on = .idle
  | .operating on =>
    match s.left i with
    | none => b.Tracks s.state on []
    | some rest => b.Tracks s.state on (s.work i) ∧
        ∃ p, w.operation i (s.calls i).attempt p ∧ p.Follows (s.work i) rest
  | .committing on v => b.Tracks s.state on (s.work i) ∧ s.Worked w i v
  | .finished (.ok v) => s.Worked w i v
  | _ => True

/-- What holds of every scene that a run leads to. -/
structure Sound (w : Workload Q R α) (s : Scene b α) : Prop extends s.Housed where
  engaged : ∀ i, s.Engaged w i

theorem Initial.free (h : s.Initial w) (i : Nat) (c : ConnectionId) : ¬s.Holds i c := by
  simp [Holds, h.calls i, Call.connection?]

theorem Initial.sound (h : s.Initial w) : s.Sound w := by
  refine ⟨⟨h.idle_nodup, h.idle_lt, h.idle_rest, fun hc => absurd hc (h.free _ _),
    fun hc => absurd hc (h.free _ _), fun hc => absurd hc (h.free _ _)⟩, fun i => ?_⟩
  unfold Engaged
  rw [h.calls i]
  trivial

theorem Becomes.holds_iff {c : Call α} {state : b.State} {pool : Pool} {next : ConnectionId}
    (h : s.Becomes i c state pool next s') {j : Nat} {d : ConnectionId} :
    s'.Holds j d ↔ j = i ∧ c.connection? = some d ∨ j ≠ i ∧ s.Holds j d := by
  rw [Holds, h.calls]
  by_cases hji : j = i
  · simp [hji]
  · simp [hji, Holds]

theorem Becomes.holds {c : Call α} {state : b.State} {pool : Pool} {next : ConnectionId}
    (h : s.Becomes i c state pool next s') {j : Nat} {d : ConnectionId} (hj : s'.Holds j d) :
    j = i ∧ c.connection? = some d ∨ j ≠ i ∧ s.Holds j d := h.holds_iff.mp hj

namespace Housed

variable {c : ConnectionId}

theorem shrink (h : s.Housed) (hnodup : s'.pool.idle.Nodup)
    (hidle : ∀ d ∈ s'.pool.idle, d ∈ s.pool.idle ∧ b.stance s'.state d = b.stance s.state d)
    (hnext : s.next ≤ s'.next) (hholds : ∀ j d, s'.Holds j d → s.Holds j d) : s'.Housed where
  idle_nodup := hnodup
  idle_lt d hd := Nat.lt_of_lt_of_le (h.idle_lt d (hidle d hd).1) hnext
  idle_rest d hd := (hidle d hd).2.trans (h.idle_rest d (hidle d hd).1)
  held_lt hd := Nat.lt_of_lt_of_le (h.held_lt (hholds _ _ hd)) hnext
  held_apart hd hi := h.held_apart (hholds _ _ hd) (hidle _ hi).1
  held_alone hi hj := h.held_alone (hholds _ _ hi) (hholds _ _ hj)

theorem rest (h : s.Housed) (hidle : s'.pool.idle = s.pool.idle ++ [c]) (hc : c ∉ s.pool.idle)
    (hlt : c < s'.next) (hnext : s.next ≤ s'.next) (hrest : b.stance s'.state c = .idle)
    (hapart : ∀ d, d ≠ c → b.stance s'.state d = b.stance s.state d)
    (hholds : ∀ j d, s'.Holds j d → s.Holds j d ∧ d ≠ c) : s'.Housed := by
  have hmem {d : ConnectionId} (hd : d ∈ s'.pool.idle) : d ∈ s.pool.idle ∧ d ≠ c ∨ d = c := by
    rw [hidle, List.mem_append, List.mem_singleton] at hd
    by_cases hdc : d = c
    · exact .inr hdc
    · exact .inl ⟨hd.resolve_right hdc, hdc⟩
  refine ⟨?_, fun d hd => ?_, fun d hd => ?_, fun hd => ?_, fun hd hi => ?_, fun hi hj => ?_⟩
  · rw [hidle]
    refine List.nodup_append.mpr ⟨h.idle_nodup, by simp, fun d hd e he => ?_⟩
    rw [List.mem_singleton] at he
    rintro rfl
    exact hc (he ▸ hd)
  · rcases hmem hd with ⟨hd, -⟩ | rfl
    · exact Nat.lt_of_lt_of_le (h.idle_lt d hd) hnext
    · exact hlt
  · rcases hmem hd with ⟨hd, hne⟩ | rfl
    · exact (hapart d hne).trans (h.idle_rest d hd)
    · exact hrest
  · exact Nat.lt_of_lt_of_le (h.held_lt (hholds _ _ hd).1) hnext
  · rcases hmem hi with ⟨hi, -⟩ | rfl
    · exact h.held_apart (hholds _ _ hd).1 hi
    · exact (hholds _ _ hd).2 rfl
  · exact h.held_alone (hholds _ _ hi).1 (hholds _ _ hj).1

theorem hold (h : s.Housed) (hnodup : s'.pool.idle.Nodup)
    (hidle : ∀ d ∈ s'.pool.idle, d ∈ s.pool.idle ∧ d ≠ c)
    (hapart : ∀ d, d ≠ c → b.stance s'.state d = b.stance s.state d)
    (hlt : c < s'.next) (hnext : s.next ≤ s'.next) (hfree : ∀ j, ¬s.Holds j c)
    (hholds : ∀ j d, s'.Holds j d → j = i ∧ d = c ∨ s.Holds j d) : s'.Housed := by
  refine ⟨hnodup, fun d hd => ?_, fun d hd => ?_, fun hd => ?_, fun hd hi => ?_, fun hi hj => ?_⟩
  · exact Nat.lt_of_lt_of_le (h.idle_lt d (hidle d hd).1) hnext
  · exact (hapart d (hidle d hd).2).trans (h.idle_rest d (hidle d hd).1)
  · rcases hholds _ _ hd with ⟨-, rfl⟩ | hd
    · exact hlt
    · exact Nat.lt_of_lt_of_le (h.held_lt hd) hnext
  · rcases hholds _ _ hd with ⟨-, rfl⟩ | hd
    · exact (hidle _ hi).2 rfl
    · exact h.held_apart hd (hidle _ hi).1
  · rcases hholds _ _ hi with ⟨rfl, rfl⟩ | hi
    · rcases hholds _ _ hj with ⟨rfl, -⟩ | hj
      · rfl
      · exact absurd hj (hfree _)
    · rcases hholds _ _ hj with ⟨rfl, rfl⟩ | hj
      · exact absurd hi (hfree _)
      · exact h.held_alone hi hj

end Housed

theorem Engaged.elsewhere {j : Nat} (h : s.Engaged w j) (hcalls : s'.calls j = s.calls j)
    (hleft : s'.left j = s.left j) (hwork : s'.work j = s.work j)
    (hstance : ∀ c, s.Holds j c → b.stance s'.state c = b.stance s.state c)
    (hmoves : b.Moves s.state s'.state) : s'.Engaged w j := by
  unfold Engaged Worked at h ⊢
  rw [hcalls, hleft, hwork]
  have hheld {c : ConnectionId} (hc : (s.calls j).connection? = some c) := hstance c hc
  cases hp : (s.calls j).phase with
  | beginning on =>
    rw [hp] at h
    exact (hheld (by rw [Call.connection?, hp])).trans h
  | operating on =>
    rw [hp] at h
    have hon := hheld (c := on) (by rw [Call.connection?, hp])
    cases hl : s.left j with
    | none =>
      rw [hl] at h
      exact h.elsewhere hon hmoves
    | some rest =>
      rw [hl] at h
      exact ⟨h.1.elsewhere hon hmoves, h.2⟩
  | committing on v =>
    rw [hp] at h
    exact ⟨h.1.elsewhere (hheld (by rw [Call.connection?, hp])) hmoves, h.2⟩
  | finished r =>
    rw [hp] at h
    cases r <;> exact h
  | checking | locking | acquiring | rollingBack | backingOff => trivial

section Turned

variable {c : Call α} {on : ConnectionId} {state : b.State} {pool : Pool} {next : ConnectionId}

theorem Freed.beside (hb : b.Lawful) {state' : b.State} {pool' : Pool}
    (h : Freed on state pool state' pool') : b.Local on state state' := by
  cases h with
  | kept => exact ⟨rfl, rfl, fun _ _ => rfl⟩
  | closed => exact hb.close

/-- The other calls after an answer to call `i`, which concerned the engine at most by one
connection that is none of theirs. -/
theorem Sound.others (h : s.Sound w) (hbecomes : s.Becomes i c state pool next s')
    (hon : ∀ j, j ≠ i → ¬s.Holds j on) (hbeside : b.Beside on s.state state) {j : Nat}
    (hj : j ≠ i) : s'.Engaged w j := by
  have hcalls : s'.calls j = s.calls j := by rw [hbecomes.calls, Function.update_of_ne hj]
  have hleft : s'.left j = s.left j := by rw [hbecomes.left, Function.update_of_ne hj]
  have hwork : s'.work j = s.work j := by rw [hbecomes.work]
  refine (h.engaged j).elsewhere hcalls hleft hwork (fun d hd => ?_) ?_
  · rw [hbecomes.state]
    refine hbeside.apart d ?_
    rintro rfl
    exact hon j hj hd
  · rw [hbecomes.state]
    exact hbeside.moves

theorem Housed.alone (h : s.Housed) (hon : s.Holds i on) (j : Nat) (hj : j ≠ i) :
    ¬s.Holds j on := fun hd => hj (h.held_alone hd hon)

theorem Housed.goes (h : s.Housed) (hbecomes : s.Becomes i c state pool s.next s')
    (hon : s.Holds i on) (hc : ∀ d, c.connection? = some d → d = on)
    (hpool : pool.idle = s.pool.idle)
    (hapart : ∀ d, d ≠ on → b.stance state d = b.stance s.state d) :
    s'.Housed := by
  have hidle : s'.pool.idle = s.pool.idle := by rw [hbecomes.pool, hpool]
  refine h.shrink (by rw [hidle]; exact h.idle_nodup) (fun d hd => ?_)
    (Nat.le_of_eq hbecomes.next.symm) (fun j d hd => ?_)
  · rw [hidle] at hd
    refine ⟨hd, ?_⟩
    rw [hbecomes.state]
    refine hapart d ?_
    rintro rfl
    exact h.held_apart hon hd
  · rcases hbecomes.holds hd with ⟨rfl, hd⟩ | ⟨-, hd⟩
    · rw [hc d hd]
      exact hon
    · exact hd

theorem Housed.frees (hb : b.Lawful) (h : s.Housed) {state' : b.State}
    (hbecomes : s.Becomes i c state' pool s.next s') (hon : s.Holds i on)
    (hc : c.connection? = none) (hapart : ∀ d, d ≠ on → b.stance state d = b.stance s.state d)
    (hrest : b.stance state on = .idle) (hfreed : Freed on state s.pool state' pool) :
    s'.Housed := by
  have hapart' : ∀ d, d ≠ on → b.stance state' d = b.stance s.state d := fun d hd =>
    ((hfreed.beside hb).apart d hd).trans (hapart d hd)
  cases hfreed with
  | kept =>
    refine h.rest (c := on) ?_ (h.held_apart hon) ?_ (Nat.le_of_eq hbecomes.next.symm) ?_ ?_ ?_
    · rw [hbecomes.pool]
      rfl
    · rw [hbecomes.next]
      exact h.held_lt hon
    · rw [hbecomes.state]
      exact hrest
    · rw [hbecomes.state]
      exact hapart'
    · intro j d hd
      rcases hbecomes.holds hd with ⟨rfl, hd⟩ | ⟨hj, hd⟩
      · rw [hc] at hd
        cases hd
      · refine ⟨hd, ?_⟩
        rintro rfl
        exact h.alone hon j hj hd
  | closed =>
    exact h.goes hbecomes hon (by simp [hc]) rfl hapart'

theorem Becomes.engaged (h : s.Becomes i c state pool next s')
    (hc : match c.phase with
      | .beginning on => b.stance state on = .idle
      | .operating on => b.Tracks state on []
      | .committing on v => b.Tracks state on (s.work i) ∧
          ∃ p, w.operation i c.attempt p ∧ p.Follows (s.work i) (.done (.ok v))
      | .finished (.ok v) => ∃ p, w.operation i c.attempt p ∧ p.Follows (s.work i) (.done (.ok v))
      | _ => True) : s'.Engaged w i := by
  unfold Engaged Worked
  rw [h.calls, h.left, h.work, h.state, Function.update_self, Function.update_self]
  cases hp : c.phase with
  | finished r =>
    rw [hp] at hc
    cases r <;> exact hc
  | beginning | operating | committing =>
    rw [hp] at hc
    exact hc
  | checking | locking | acquiring | rollingBack | backingOff => trivial

theorem Becomes.engaged_bare (h : s.Becomes i c state pool next s') (hc : c.phase.Bare) :
    s'.Engaged w i := by
  refine h.engaged ?_
  unfold Phase.Bare at hc
  cases hp : c.phase with
  | finished r =>
    rw [hp] at hc
    cases r with
    | ok => exact hc.elim
    | error => trivial
  | beginning | operating | committing =>
    rw [hp] at hc
    exact hc.elim
  | checking | locking | acquiring | rollingBack | backingOff => trivial

/-- Call `i` gets its answer; nothing is promised to be sound beside what its own phase needs. -/
theorem Sound.of_becomes (h : s.Sound w) (hbecomes : s.Becomes i c state pool next s')
    (hhoused : s'.Housed) (hon : ∀ j, j ≠ i → ¬s.Holds j on) (hbeside : b.Beside on s.state state)
    (hengaged : s'.Engaged w i) : s'.Sound w := by
  refine ⟨hhoused, fun j => ?_⟩
  by_cases hj : j = i
  · rw [hj]
    exact hengaged
  · exact h.others hbecomes hon hbeside hj

end Turned

section Answers

variable {c : Call α} {on : ConnectionId} {state : b.State} {pool : Pool} {next : ConnectionId}

/-- Call `i` holds no connection, before and after. -/
theorem Sound.bare (h : s.Sound w) (hbecomes : s.Becomes i c s.state pool s.next s')
    (hc : c.phase.Bare) (hidle : pool.idle = s.pool.idle) : s'.Sound w := by
  have hhoused : s'.Housed := by
    refine h.shrink ?_ (fun d hd => ?_) (Nat.le_of_eq hbecomes.next.symm) (fun j d hd => ?_)
    · rw [hbecomes.pool, hidle]
      exact h.idle_nodup
    · rw [hbecomes.pool, hidle] at hd
      exact ⟨hd, by rw [hbecomes.state]⟩
    · rcases hbecomes.holds hd with ⟨-, hd⟩ | ⟨-, hd⟩
      · rw [hc.connection?] at hd
        cases hd
      · exact hd
  exact h.of_becomes hbecomes hhoused (fun j _ hd => Nat.lt_irrefl _ (h.held_lt hd))
    (Backend.Beside.refl s.next _) (hbecomes.engaged_bare hc)

/-- Call `i` takes a connection that nobody holds. -/
theorem Sound.takes (h : s.Sound w)
    (hbecomes : s.Becomes i { s.calls i with phase := .beginning on } state pool next s')
    (hnodup : pool.idle.Nodup) (hidle : ∀ d ∈ pool.idle, d ∈ s.pool.idle ∧ d ≠ on)
    (hbeside : b.Beside on s.state state) (hrest : b.stance state on = .idle) (hlt : on < next)
    (hnext : s.next ≤ next) (hfree : ∀ j, ¬s.Holds j on) : s'.Sound w := by
  have hhoused : s'.Housed := by
    refine h.hold (c := on) (i := i) ?_ (fun d hd => ?_) (fun d hd => ?_) ?_ ?_ hfree
      (fun j d hd => ?_)
    · rw [hbecomes.pool]
      exact hnodup
    · rw [hbecomes.pool] at hd
      exact hidle d hd
    · rw [hbecomes.state]
      exact hbeside.apart d hd
    · rw [hbecomes.next]
      exact hlt
    · rw [hbecomes.next]
      exact hnext
    · rcases hbecomes.holds hd with ⟨rfl, hd⟩ | ⟨-, hd⟩
      · exact .inl ⟨rfl, (Option.some.inj hd).symm⟩
      · exact .inr hd
  exact h.of_becomes hbecomes hhoused (fun j _ => hfree j) hbeside (hbecomes.engaged hrest)

/-- Call `i` goes on with the connection that it holds, or has closed it. -/
theorem Sound.keeps (h : s.Sound w) (hbecomes : s.Becomes i c state pool s.next s')
    (hon : s.Holds i on) (hc : ∀ d, c.connection? = some d → d = on)
    (hpool : pool.idle = s.pool.idle) (hbeside : b.Beside on s.state state)
    (hengaged : s'.Engaged w i) : s'.Sound w :=
  h.of_becomes hbecomes (h.goes hbecomes hon hc hpool hbeside.apart) (h.alone hon) hbeside hengaged

/-- Call `i` gives back the connection that it holds, which is out of its transaction. -/
theorem Sound.gives (hb : b.Lawful) (h : s.Sound w) {state' : b.State}
    (hbecomes : s.Becomes i c state' pool s.next s') (hon : s.Holds i on)
    (hc : c.connection? = none) (hbeside : b.Beside on s.state state)
    (hrest : b.stance state on = .idle) (hfreed : Freed on state s.pool state' pool)
    (hengaged : s'.Engaged w i) : s'.Sound w :=
  h.of_becomes hbecomes (h.frees hb hbecomes hon hc hbeside.apart hrest hfreed) (h.alone hon)
    (hbeside.trans (hfreed.beside hb).beside) hengaged

theorem holds_of_phase {φ : Phase α} (hp : (s.calls i).phase = φ)
    (hφ : ({ s.calls i with phase := φ } : Call α).connection? = some on) : s.Holds i on := by
  rw [← hp] at hφ
  exact hφ

end Answers

theorem Sound.turned (hb : b.Lawful) (h : s.Sound w) {a : Answer α} (ht : Turned w s i a s') :
    s'.Sound w := by
  have hi := h.engaged i
  unfold Engaged at hi
  cases ht with
  | bare _ _ hc hpool hbecomes => exact h.bare hbecomes hc hpool.1
  | @lent on pool _ hp hserve hbecomes =>
    have hmem := Pool.mem_idle_of_lends hserve
    obtain ⟨hnodup, hapart⟩ := Pool.lends_apart hserve h.idle_nodup
    refine h.takes hbecomes hnodup (fun d hd => ⟨Pool.mem_idle_of_lends_of_mem hserve hd, ?_⟩)
      (.refl _ _) (h.idle_rest on hmem) (h.idle_lt on hmem) (Nat.le_refl _)
      fun j hd => h.held_apart hd hmem
    rintro rfl
    exact hapart hd
  | opened hp hbecomes =>
    obtain ⟨hlocal, hrest⟩ := hb.connect (s := s.state) (c := s.next)
    exact h.takes hbecomes h.idle_nodup (fun d hd => ⟨hd, Nat.ne_of_lt (h.idle_lt d hd)⟩)
      hlocal.beside hrest (Nat.lt_succ_self _) (Nat.le_succ _)
      fun j hd => Nat.lt_irrefl _ (h.held_lt hd)
  | @begun on state _ hp hbegins hbecomes =>
    rw [hp] at hi
    exact h.keeps hbecomes (holds_of_phase hp rfl) (fun d hd => (Option.some.inj hd).symm) rfl
      (hb.begins_ok hi hbegins).1.beside (hbecomes.engaged (hb.tracks_begins hi hbegins))
  | @worked on v _ hp hleft hbecomes =>
    rw [hp] at hi
    simp only [hleft] at hi
    exact h.keeps hbecomes (holds_of_phase hp rfl) (fun d hd => (Option.some.inj hd).symm) rfl
      (.refl _ _) (hbecomes.engaged hi)
  | @failed on e _ hp _ hbecomes =>
    exact h.keeps hbecomes (holds_of_phase hp rfl) (fun d hd => (Option.some.inj hd).symm) rfl
      (.refl _ _) (hbecomes.engaged trivial)
  | @uncommitted on v e state _ hp hcommit hbecomes =>
    rw [hp] at hi
    exact h.keeps hbecomes (holds_of_phase hp rfl) (fun d hd => (Option.some.inj hd).symm) rfl
      (hb.commit_error hi.1.ne_idle hcommit).beside (hbecomes.engaged trivial)
  | @committed on v state state' pool _ hp hcommit hfreed _ hbecomes =>
    rw [hp] at hi
    obtain ⟨-, hrest, hbeside⟩ := hb.replays hi.1 hcommit
    exact h.gives hb hbecomes (holds_of_phase hp rfl) rfl hbeside hrest hfreed
      (hbecomes.engaged hi.2)
  | @unbegun on e c state state' pool _ hp hbegins hfreed _ hc hbecomes =>
    rw [hp] at hi
    obtain ⟨hlocal, hrest⟩ := hb.begins_error hi hbegins
    exact h.gives hb hbecomes (holds_of_phase hp rfl) hc.connection? hlocal.beside hrest hfreed
      (hbecomes.engaged_bare hc)
  | @restored on e c state state' pool _ hp hrollback hfreed _ hc hbecomes =>
    obtain ⟨hlocal, hrest⟩ := hb.rollback_ok hrollback
    exact h.gives hb hbecomes (holds_of_phase hp rfl) hc.connection? hlocal.beside hrest hfreed
      (hbecomes.engaged_bare hc)
  | @abandoned on e e' c state _ hp hrollback hc hbecomes =>
    exact h.keeps hbecomes (holds_of_phase hp rfl) (by simp [hc.connection?]) rfl
      ((hb.rollback_error hrollback).beside.trans hb.close.beside) (hbecomes.engaged_bare hc)

theorem Sound.aside (h : s.Sound w) (hhoused : s'.Housed) (hcalls : s'.calls = s.calls)
    (hleft : s'.left = s.left) (hwork : s'.work = s.work) {on : ConnectionId}
    (hon : ∀ j, ¬s.Holds j on) (hbeside : b.Beside on s.state s'.state) : s'.Sound w := by
  refine ⟨hhoused, fun j => ?_⟩
  refine (h.engaged j).elsewhere (by rw [hcalls]) (by rw [hleft]) (by rw [hwork])
    (fun d hd => hbeside.apart d ?_) hbeside.moves
  rintro rfl
  exact hon j hd

theorem Sound.operates (h : s.Sound w) {on : ConnectionId} (hp : (s.calls i).phase = .operating on)
    (hcalls : s'.calls = s.calls) (hpool : s'.pool = s.pool) (hnext : s'.next = s.next)
    (hleft : ∀ j, j ≠ i → s'.left j = s.left j) (hwork : ∀ j, j ≠ i → s'.work j = s.work j)
    (hbeside : b.Beside on s.state s'.state) (hengaged : s'.Engaged w i) : s'.Sound w := by
  have hon : s.Holds i on := holds_of_phase hp rfl
  have hholds (j : Nat) (d : ConnectionId) (hd : s'.Holds j d) : s.Holds j d := by
    rw [Holds, hcalls] at hd
    exact hd
  refine ⟨?_, fun j => ?_⟩
  · refine h.shrink (by rw [hpool]; exact h.idle_nodup) (fun d hd => ?_) (Nat.le_of_eq hnext.symm)
      hholds
    rw [hpool] at hd
    refine ⟨hd, hbeside.apart d ?_⟩
    rintro rfl
    exact h.held_apart hon hd
  · by_cases hj : j = i
    · rw [hj]
      exact hengaged
    · refine (h.engaged j).elsewhere (by rw [hcalls]) (hleft j hj) (hwork j hj)
        (fun d hd => hbeside.apart d ?_) hbeside.moves
      rintro rfl
      exact h.alone hon j hj hd

theorem Sound.step (hb : b.Lawful) (h : s.Sound w) {l : Label α} (hstep : s.Step w l s') :
    s'.Sound w := by
  have hunheld (j : Nat) : ¬s.Holds j s.next := fun hd => Nat.lt_irrefl _ (h.held_lt hd)
  cases hstep with
  | turn keep hserves => exact h.turned hb (hserves.turned keep)
  | @invoke i on p hp hleft hop =>
    have hi := h.engaged i
    simp only [Engaged, hp, hleft] at hi
    refine h.operates hp rfl rfl rfl (fun j hj => Function.update_of_ne hj _ _)
      (fun j hj => Function.update_of_ne hj _ _) (.refl _ _) ?_
    simp only [Engaged, hp, Function.update_self]
    exact ⟨hi, p, hop, .start⟩
  | @ask i on q next r state hp hleft hasks =>
    have hi := h.engaged i
    simp only [Engaged, hp, hleft] at hi
    obtain ⟨htracks, p, hop, hfollows⟩ := hi
    have hlocal := (hb.asks htracks.ne_idle hasks).1
    refine h.operates hp rfl rfl rfl (fun j hj => Function.update_of_ne hj _ _)
      (fun j hj => Function.update_of_ne hj _ _) hlocal.beside ?_
    simp only [Engaged, hp, Function.update_self]
    exact ⟨hb.tracks_asks htracks hasks, p, hop, .step r hfollows⟩
  | lineUp _ =>
    refine h.aside ?_ rfl rfl rfl hunheld (.refl _ _)
    exact h.shrink h.idle_nodup (fun d hd => ⟨hd, rfl⟩) (Nat.le_refl _) fun _ _ hd => hd
  | queue _ =>
    refine h.aside ?_ rfl rfl rfl hunheld (.refl _ _)
    exact h.shrink h.idle_nodup (fun d hd => ⟨hd, rfl⟩) (Nat.le_refl _) fun _ _ hd => hd
  | @place i p hserve =>
    have hidle := (Pool.places hserve).1
    refine h.aside ?_ rfl rfl rfl hunheld (.refl _ _)
    refine h.shrink ?_ (fun d hd => ⟨?_, rfl⟩) (Nat.le_refl _) fun _ _ hd => hd
    · show p.idle.Nodup
      rw [hidle]
      exact h.idle_nodup
    · rw [← hidle]
      exact hd
  | @renew i c p hserve =>
    have hmem := Pool.mem_idle_of_lends hserve
    obtain ⟨hnodup, hapart⟩ := Pool.lends_apart hserve h.idle_nodup
    refine h.aside ?_ rfl rfl rfl (fun j hd => h.held_apart hd hmem) hb.close.beside
    refine h.shrink hnodup (fun d hd => ⟨Pool.mem_idle_of_lends_of_mem hserve hd,
      hb.close.apart d ?_⟩) (Nat.le_refl _) fun _ _ hd => hd
    rintro rfl
    exact hapart hd
  | refill _ =>
    obtain ⟨hlocal, hrest⟩ := hb.connect (s := s.state) (c := s.next)
    refine h.aside ?_ rfl rfl rfl hunheld hlocal.beside
    refine h.rest (c := s.next) rfl (fun hd => Nat.lt_irrefl _ (h.idle_lt _ hd))
      (Nat.lt_succ_self _) (Nat.le_succ _) hrest hlocal.apart (fun j d hd => ⟨hd, ?_⟩)
    rintro rfl
    exact hunheld j hd

theorem Sound.run (hb : b.Lawful) (h : s.Sound w) {ls : List (Label α)} (hrun : s.Run w ls s') :
    s'.Sound w := by
  induction hrun with
  | start => exact h
  | step _ hstep ih => exact ih.step hb hstep

end SingleWriter.Write.Scene
