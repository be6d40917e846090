import Mathlib.Data.List.Perm.Subperm
import SingleWriter.Checkpoint
import SingleWriter.Pool
import SingleWriter.Proofs.Backend

/-! An engine with its files.  A file follows the pool of a handle: the connections that the pool
loses are closed, and those that it gains are opened.  What is committed survives that, and the
connections of the pool stay at rest. -/

namespace SingleWriter

open Write (Backend ConnectionId)

/-! ### Files -/

/-- An engine with what a file holds when it was just created, and with checkpoints. -/
structure Storage (K Q R : Type) extends Backend K Q R where
  blank : K
  created : State → Prop
  checkpoint : State → ConnectionId → CheckpointMode → Except SqlError CheckpointReport → State →
    Prop

namespace Storage

variable {K Q R : Type} (e : Storage K Q R)

/-- The laws of the engine, and what is committed survives a checkpoint. -/
structure Durable : Prop extends e.Lawful where
  created {s : e.State} : e.created s → e.committed s = e.blank
  checkpoint {s s' : e.State} {c : ConnectionId} {mode : CheckpointMode}
    {r : Except SqlError CheckpointReport} : e.stance s c = .idle →
    e.checkpoint s c mode r s' → e.Local c s s' ∧ e.stance s' c = .idle

/-- The file follows a pool from some connections to others: those that are gone are closed, and the
new ones are opened. -/
def follow (before after : List ConnectionId) (s : e.State) : e.State :=
  (after.filter (· ∉ before)).foldl e.connect ((before.filter (· ∉ after)).foldl e.close s)

/-- The connections are different, have numbers below `next`, and are in no transaction. -/
structure Keeps (cs : List ConnectionId) (next : ConnectionId) (s : e.State) : Prop where
  nodup : cs.Nodup
  lt : ∀ c ∈ cs, c < next
  rest : ∀ c ∈ cs, e.stance s c = .idle

variable {e} {s s' : e.State} {c : ConnectionId} {cs cs' fresh : List ConnectionId}
  {n n' : ConnectionId}

theorem Durable.foldl_close (he : e.Durable) (cs : List ConnectionId) (s : e.State) :
    e.committed (cs.foldl e.close s) = e.committed s ∧
      ∀ d, d ∉ cs → e.stance (cs.foldl e.close s) d = e.stance s d := by
  induction cs generalizing s with
  | nil => exact ⟨rfl, fun _ _ => rfl⟩
  | cons c cs ih =>
    have hlocal := he.close (s := s) (c := c)
    obtain ⟨hcommitted, hstance⟩ := ih (e.close s c)
    refine ⟨hcommitted.trans hlocal.committed, fun d hd => ?_⟩
    rw [List.mem_cons, not_or] at hd
    exact (hstance d hd.2).trans (hlocal.apart d hd.1)

theorem Durable.foldl_connect (he : e.Durable) (cs : List ConnectionId) (s : e.State) :
    e.committed (cs.foldl e.connect s) = e.committed s ∧
      (∀ d, d ∉ cs → e.stance (cs.foldl e.connect s) d = e.stance s d) ∧
      ∀ d, d ∈ cs ∨ e.stance s d = .idle → e.stance (cs.foldl e.connect s) d = .idle := by
  induction cs generalizing s with
  | nil => exact ⟨rfl, fun _ _ => rfl, fun d hd => hd.resolve_left (List.not_mem_nil)⟩
  | cons c cs ih =>
    obtain ⟨hlocal, hidle⟩ := he.connect (s := s) (c := c)
    obtain ⟨hcommitted, hstance, hrest⟩ := ih (e.connect s c)
    refine ⟨hcommitted.trans hlocal.committed, fun d hd => ?_, fun d hd => hrest d ?_⟩
    · rw [List.mem_cons, not_or] at hd
      exact (hstance d hd.2).trans (hlocal.apart d hd.1)
    · by_cases hdc : d = c
      · exact .inr (hdc ▸ hidle)
      · rw [List.mem_cons] at hd
        rcases hd with (hd | hd) | hd
        · exact absurd hd hdc
        · exact .inl hd
        · exact .inr ((hlocal.apart d hdc).trans hd)

theorem Durable.follow_committed (he : e.Durable) (cs cs' : List ConnectionId) (s : e.State) :
    e.committed (e.follow cs cs' s) = e.committed s :=
  (he.foldl_connect _ _).1.trans (he.foldl_close _ _).1

theorem follow_self (cs : List ConnectionId) (s : e.State) : e.follow cs cs s = s := by
  have hnone : cs.filter (· ∉ cs) = [] := by simp
  rw [follow, hnone, List.foldl_nil, List.foldl_nil]

/-- A pool that has nothing but some of its connections and fresh ones keeps them, once the file has
followed. -/
theorem Keeps.follow (he : e.Durable) (h : e.Keeps cs n s) (hfresh : fresh.Nodup)
    (hnew : ∀ c ∈ fresh, n ≤ c ∧ c < n') (hn : n ≤ n') (hsub : cs'.Subperm (fresh ++ cs)) :
    e.Keeps cs' n' (e.follow cs cs' s) := by
  have hdisjoint : (fresh ++ cs).Nodup := by
    refine List.nodup_append.mpr ⟨hfresh, h.nodup, fun c hc d hd => ?_⟩
    rintro rfl
    exact Nat.lt_irrefl c (Nat.lt_of_lt_of_le (h.lt c hd) (hnew c hc).1)
  refine ⟨?_, fun c hc => ?_, fun c hc => ?_⟩
  · obtain ⟨l, hperm, hl⟩ := hsub
    exact hperm.nodup_iff.mp (hl.nodup hdisjoint)
  · rcases List.mem_append.mp (hsub.subset hc) with hc | hc
    · exact (hnew c hc).2
    · exact Nat.lt_of_lt_of_le (h.lt c hc) hn
  · refine (he.foldl_connect _ _).2.2 c ?_
    by_cases hold : c ∈ cs
    · right
      rw [(he.foldl_close _ _).2 c (by simp [hc]), h.rest c hold]
    · exact .inl (by simp [hc, hold])

theorem Keeps.of_local (h : e.Keeps cs n s) (hlocal : e.Local c s s')
    (hc : e.stance s' c = .idle) : e.Keeps cs n s' := by
  refine ⟨h.nodup, h.lt, fun d hd => ?_⟩
  by_cases hdc : d = c
  · rw [hdc, hc]
  · rw [hlocal.apart d hdc, h.rest d hd]

end Storage

/-! ### Ledgers in files -/

namespace Write.Ledger

/-- A ledger that begins empty and that checkpoints leave as it is. -/
def storage : Storage (List String) String Nat where
  toBackend := backend
  blank := []
  created l := l = {}
  checkpoint l _ _ _ l' := l' = l

theorem durable : storage.Durable where
  toLawful := lawful
  created := by
    rintro l rfl
    rfl
  checkpoint := by
    rintro l l' c mode r hidle rfl
    exact ⟨local_refl l' c, hidle⟩

end Write.Ledger

/-! ### Pools -/

namespace Pool

variable {p p' : Pool} {who c : Nat}

/-- All connections of a pool. -/
def connections (p : Pool) : List ConnectionId := p.idle ++ p.lent

theorem lends_perm (h : p.serve? who = some (.idle c, p')) :
    p'.connections.Perm p.connections := by
  obtain ⟨hidle, hlent⟩ := lends h
  rw [connections, connections, hidle, hlent]
  exact List.perm_middle

theorem places_connections (h : p.serve? who = some (.opening, p')) :
    p'.connections = p.connections := by
  obtain ⟨hidle, hlent⟩ := places h
  rw [connections, connections, hidle, hlent]

/-- The connection that was at rest is gone, and all others are as they were. -/
theorem renews (h : p.serve? who = some (.idle c, p')) :
    (p'.replace who c).lent = p.lent ∧
      (p'.replace who c).connections.Subperm p.connections := by
  have hlent := replace_lent h
  refine ⟨hlent, ?_⟩
  rw [connections, connections, hlent, (lends h).1]
  exact (List.sublist_cons_self c _).subperm

theorem opened_perm (p : Pool) (who c : Nat) :
    (p.opened who c).connections.Perm ([c] ++ p.connections) := List.perm_middle

theorem addIdle_perm (p : Pool) (c : Nat) :
    (p.addIdle c).connections.Perm ([c] ++ p.connections) := by
  rw [connections, connections, addIdle, List.append_assoc]
  exact List.perm_middle

theorem giveBack_connections (h : p.lent = [c]) :
    (p.giveBack c).lent = [] ∧ (p.giveBack c).connections = p.connections := by
  simp [connections, giveBack, h]

theorem forget_connections (h : p.lent = [c]) :
    (p.forget c).lent = [] ∧ (p.forget c).connections.Subperm p.connections := by
  have hlent : (p.forget c).lent = [] := by simp [forget, h]
  refine ⟨hlent, ?_⟩
  rw [connections, connections, hlent, List.append_nil]
  exact (List.sublist_append_left _ _).subperm

theorem close_connections (p : Pool) :
    p.close.2.lent = p.lent ∧ p.close.2.connections.Subperm p.connections :=
  ⟨rfl, (List.sublist_append_right _ _).subperm⟩

end Pool

end SingleWriter
