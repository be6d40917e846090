import Mathlib.Logic.Function.Basic
import SingleWriter.Write.Call

/-! What a write asks of a database, and what a database must do for writes to be safe.  A backend
stands for any engine; its laws are what the writes rely on.  `Ledger` is an engine in memory that
keeps them.

The laws speak of statements with SQLite's default way to fail: one that fails undoes what it has
done itself, and the transaction goes on.  They leave out the statements that ask for another way,
since `OR ROLLBACK` ends the whole transaction and `OR FAIL` keeps the rows that were changed before
the failure, and the failures after which the engine may end the transaction by itself, such as a
full disk or an I/O error.  After these an operation that goes on would run outside of its
transaction, and nothing here is said of it. -/

namespace SingleWriter.Write

/-! ### Operations -/

/-- What an operation does inside a transaction: it asks one statement after the other, each of its
choice, and comes to a result.  None of them begins or ends a transaction, nor does one that
fails. -/
inductive Program (Q R α : Type) where
  | done (r : Except WriteError α)
  | ask (q : Q) (next : Except SqlError R → Program Q R α)

/-- The statements of a transaction with their answers, oldest first. -/
abbrev Transcript (Q R : Type) := List (Q × Except SqlError R)

section

variable {K Q R α : Type}

/-- The program asks the statements of a transcript, and then a program is left. -/
inductive Program.Follows (p : Program Q R α) : Transcript Q R → Program Q R α → Prop
  | start : Follows p [] p
  | step {ts : Transcript Q R} {q : Q} {next : Except SqlError R → Program Q R α}
      (r : Except SqlError R) : Follows p ts (.ask q next) → Follows p (ts ++ [(q, r)]) (next r)

/-- What the statements of a transcript make of the contents, when `effect` says which answers and
which contents a statement may lead to.  A statement that fails undoes itself: `OR FAIL`, which
keeps a part, is left out. -/
inductive Replays (effect : Q → K → R → K → Prop) (k : K) : Transcript Q R → K → Prop
  | start : Replays effect k [] k
  | ok {ts : Transcript Q R} {q : Q} {r : R} {k' k'' : K} : Replays effect k ts k' →
      effect q k' r k'' → Replays effect k (ts ++ [(q, .ok r)]) k''
  | error {ts : Transcript Q R} {q : Q} {e : SqlError} {k' : K} : Replays effect k ts k' →
      Replays effect k (ts ++ [(q, .error e)]) k'

theorem Replays.append {effect : Q → K → R → K → Prop} {k k' k'' : K} {ts ts' : Transcript Q R}
    (h : Replays effect k ts k') (h' : Replays effect k' ts' k'') :
    Replays effect k (ts ++ ts') k'' := by
  induction h' with
  | start => rwa [List.append_nil]
  | ok _ heffect ih =>
    rw [← List.append_assoc]
    exact .ok ih heffect
  | error _ ih =>
    rw [← List.append_assoc]
    exact .error ih

end

/-! ### Engines -/

/-- Where a connection stands: outside a transaction, in one that has looked at nothing yet, or in
one that took its snapshot after `since` commits and has made a draft of it. -/
inductive Stance (K : Type) where
  | idle
  | fresh
  | seen (since : Nat) (base draft : K)

namespace Stance

variable {K Q R : Type}

/-- What a transaction works on while `n` commits have led to the contents `k`. -/
inductive Sees (n : Nat) (k : K) : Stance K → Nat → K → K → Prop
  | fresh : Sees n k .fresh n k k
  | seen {since : Nat} {base draft : K} : Sees n k (.seen since base draft) since base draft

/-- What a statement makes of a transaction while `n` commits have led to the contents `k`. -/
inductive Asked (effect : Q → K → R → K → Prop) (n : Nat) (k : K) (q : Q) :
    Stance K → Except SqlError R → Stance K → Prop
  | ok {σ : Stance K} {since : Nat} {base draft draft' : K} {r : R} :
      Sees n k σ since base draft → effect q draft r draft' →
      Asked effect n k q σ (.ok r) (.seen since base draft')
  | error {σ : Stance K} {e : SqlError} : Asked effect n k q σ (.error e) σ
  | look {e : SqlError} : Asked effect n k q .fresh (.error e) (.seen n k k)

end Stance

/-- An engine with connections.  Each statement is a relation between the states before and after
it, with its answer. -/
structure Backend (K Q R : Type) where
  State : Type
  /-- The committed contents. -/
  committed : State → K
  /-- The number of commits so far. -/
  commits : State → Nat
  stance : State → ConnectionId → Stance K
  /-- Which answers and which contents a statement may lead to. -/
  effect : Q → K → R → K → Prop
  begins : State → ConnectionId → Except SqlError Unit → State → Prop
  asks : State → ConnectionId → Q → Except SqlError R → State → Prop
  commit : State → ConnectionId → Except SqlError Unit → State → Prop
  rollback : State → ConnectionId → Except SqlError Unit → State → Prop
  /-- Opens a connection under a new number. -/
  connect : State → ConnectionId → State
  close : State → ConnectionId → State

namespace Backend

variable {K Q R : Type} (b : Backend K Q R)

/-- Nothing is committed, and no other connection notices anything. -/
structure Local (c : ConnectionId) (s s' : b.State) : Prop where
  committed : b.committed s' = b.committed s
  commits : b.commits s' = b.commits s
  apart : ∀ d, d ≠ c → b.stance s' d = b.stance s d

/-- What other transactions see of a step: at most that there is a newer commit. -/
def Moves (s s' : b.State) : Prop :=
  b.commits s < b.commits s' ∨ b.commits s' = b.commits s ∧ b.committed s' = b.committed s

/-- What writes rely on.  A transaction works on a snapshot, is seen by nobody before it commits,
and commits as a whole or not at all, and only if nothing was committed since its snapshot. -/
structure Lawful : Prop where
  begins_ok {s s' : b.State} {c : ConnectionId} : b.stance s c = .idle →
    b.begins s c (.ok ()) s' → b.Local c s s' ∧
      (b.stance s' c = .fresh ∨
        b.stance s' c = .seen (b.commits s) (b.committed s) (b.committed s))
  begins_error {s s' : b.State} {c : ConnectionId} {e : SqlError} : b.stance s c = .idle →
    b.begins s c (.error e) s' → b.Local c s s' ∧ b.stance s' c = .idle
  /-- A statement that works changes the draft of its transaction.  One that fails changes nothing
  and keeps the transaction open: none is run with `OR ROLLBACK` or `OR FAIL`, and no failure makes
  the engine roll back by itself. -/
  asks {s s' : b.State} {c : ConnectionId} {q : Q} {r : Except SqlError R} :
    b.stance s c ≠ .idle → b.asks s c q r s' → b.Local c s s' ∧
      Stance.Asked b.effect (b.commits s) (b.committed s) q (b.stance s c) r (b.stance s' c)
  commit_ok {s s' : b.State} {c : ConnectionId} {since : Nat} {base draft : K} :
    Stance.Sees (b.commits s) (b.committed s) (b.stance s c) since base draft →
    b.commit s c (.ok ()) s' → since = b.commits s ∧ b.committed s' = draft ∧
      b.stance s' c = .idle ∧ (∀ d, d ≠ c → b.stance s' d = b.stance s d) ∧ b.Moves s s'
  commit_error {s s' : b.State} {c : ConnectionId} {e : SqlError} : b.stance s c ≠ .idle →
    b.commit s c (.error e) s' → b.Local c s s'
  rollback_ok {s s' : b.State} {c : ConnectionId} : b.rollback s c (.ok ()) s' →
    b.Local c s s' ∧ b.stance s' c = .idle
  rollback_error {s s' : b.State} {c : ConnectionId} {e : SqlError} :
    b.rollback s c (.error e) s' → b.Local c s s'
  connect {s : b.State} {c : ConnectionId} :
    b.Local c s (b.connect s c) ∧ b.stance (b.connect s c) c = .idle
  close {s : b.State} {c : ConnectionId} : b.Local c s (b.close s c)

/-- The transaction of a connection has done what a transcript says, and nothing else. -/
def Tracks (s : b.State) (c : ConnectionId) (ts : Transcript Q R) : Prop :=
  match b.stance s c with
  | .idle => False
  | .fresh => ∀ k, Replays b.effect k ts k
  | .seen since base draft =>
    since ≤ b.commits s ∧ (since = b.commits s → base = b.committed s) ∧
      Replays b.effect base ts draft

/-- A step on one connection, as the others see it. -/
structure Beside (c : ConnectionId) (s s' : b.State) : Prop where
  apart : ∀ d, d ≠ c → b.stance s' d = b.stance s d
  moves : b.Moves s s'

variable {b} {s s' s'' : b.State} {c : ConnectionId} {ts : Transcript Q R}

theorem Moves.refl (s : b.State) : b.Moves s s := .inr ⟨rfl, rfl⟩

theorem Moves.trans (h : b.Moves s s') (h' : b.Moves s' s'') : b.Moves s s'' := by
  rcases h with h | ⟨h, hk⟩ <;> rcases h' with h' | ⟨h', hk'⟩
  · exact .inl (Nat.lt_trans h h')
  · exact .inl (by omega)
  · exact .inl (by omega)
  · exact .inr ⟨h'.trans h, hk'.trans hk⟩

theorem Beside.refl (c : ConnectionId) (s : b.State) : b.Beside c s s := ⟨fun _ _ => rfl, .refl s⟩

theorem Beside.trans (h : b.Beside c s s') (h' : b.Beside c s' s'') : b.Beside c s s'' :=
  ⟨fun d hd => (h'.apart d hd).trans (h.apart d hd), h.moves.trans h'.moves⟩

theorem Local.beside (h : b.Local c s s') : b.Beside c s s' :=
  ⟨h.apart, .inr ⟨h.commits, h.committed⟩⟩

theorem Tracks.ne_idle (h : b.Tracks s c ts) : b.stance s c ≠ .idle := by
  intro hidle
  rw [Tracks, hidle] at h
  exact h

theorem Tracks.sees (h : b.Tracks s c ts) : ∃ since base draft,
    Stance.Sees (b.commits s) (b.committed s) (b.stance s c) since base draft ∧
      since ≤ b.commits s ∧ (since = b.commits s → base = b.committed s) ∧
      Replays b.effect base ts draft := by
  unfold Tracks at h
  cases hσ : b.stance s c with
  | idle =>
    rw [hσ] at h
    exact h.elim
  | fresh =>
    rw [hσ] at h
    exact ⟨_, _, _, .fresh, Nat.le_refl _, fun _ => rfl, h _⟩
  | seen since base draft =>
    rw [hσ] at h
    exact ⟨_, _, _, .seen, h⟩

theorem Tracks.elsewhere (h : b.Tracks s c ts) (hc : b.stance s' c = b.stance s c)
    (hmoves : b.Moves s s') : b.Tracks s' c ts := by
  unfold Tracks at h ⊢
  rw [hc]
  cases hσ : b.stance s c with
  | idle | fresh =>
    rw [hσ] at h
    exact h
  | seen since base draft =>
    rw [hσ] at h
    obtain ⟨hle, hbase, hreplays⟩ := h
    rcases hmoves with hlt | ⟨hn, hk⟩
    · exact ⟨by omega, fun heq => absurd heq (by omega), hreplays⟩
    · rw [hn, hk]
      exact ⟨hle, hbase, hreplays⟩

theorem Lawful.tracks_begins (hb : b.Lawful) (hc : b.stance s c = .idle)
    (h : b.begins s c (.ok ()) s') : b.Tracks s' c [] := by
  obtain ⟨hlocal, hσ | hσ⟩ := hb.begins_ok hc h
  · rw [Tracks, hσ]
    exact fun _ => .start
  · rw [Tracks, hσ]
    exact ⟨Nat.le_of_eq hlocal.commits.symm, fun _ => hlocal.committed.symm, .start⟩

theorem Lawful.tracks_asks (hb : b.Lawful) (hc : b.Tracks s c ts) {q : Q}
    {r : Except SqlError R} (h : b.asks s c q r s') : b.Tracks s' c (ts ++ [(q, r)]) := by
  obtain ⟨hlocal, hasked⟩ := hb.asks hc.ne_idle h
  have hsees := hc.sees
  unfold Tracks at hc ⊢
  generalize b.stance s c = σ at hasked hc hsees
  rw [hlocal.commits, hlocal.committed]
  generalize b.stance s' c = σ' at hasked
  cases hasked with
  | ok hview heffect =>
    obtain ⟨_, _, _, hview', hle, hbase, hreplays⟩ := hsees
    cases hview <;> cases hview' <;> exact ⟨hle, hbase, .ok hreplays heffect⟩
  | error =>
    cases hview : σ with
    | idle =>
      rw [hview] at hc
      exact hc.elim
    | fresh =>
      rw [hview] at hc
      exact fun k => .error (hc k)
    | seen since base draft =>
      rw [hview] at hc
      exact ⟨hc.1, hc.2.1, .error hc.2.2⟩
  | look => exact ⟨Nat.le_refl _, fun _ => rfl, .error (hc _)⟩

theorem Lawful.replays (hb : b.Lawful) (hc : b.Tracks s c ts)
    (h : b.commit s c (.ok ()) s') :
    Replays b.effect (b.committed s) ts (b.committed s') ∧ b.stance s' c = .idle ∧
      b.Beside c s s' := by
  obtain ⟨since, base, draft, hsees, -, hbase, hreplays⟩ := hc.sees
  obtain ⟨hnewest, hdraft, hidle, hapart, hmoves⟩ := hb.commit_ok hsees h
  rw [hbase hnewest] at hreplays
  rw [← hdraft] at hreplays
  exact ⟨hreplays, hidle, ⟨hapart, hmoves⟩⟩

end Backend

/-! ### An engine in memory -/

/-- Rows that are written by one transaction at a time.  A transaction holds its draft and the only
place for one from its beginning to its end. -/
structure Ledger where
  rows : List String := []
  commits : Nat := 0
  draft : Option (ConnectionId × List String) := none
deriving DecidableEq

namespace Ledger

def vacate (l : Ledger) (c : ConnectionId) : Ledger :=
  match l.draft with
  | some (d, _) => if d = c then { l with draft := none } else l
  | none => l

def stance (l : Ledger) (c : ConnectionId) : Stance (List String) :=
  match l.draft with
  | some (d, rows) => if d = c then .seen l.commits l.rows rows else .idle
  | none => .idle

/-- Statements add a row and answer with its number.  Any of them may find the ledger locked and
does nothing then. -/
def backend : Backend (List String) String Nat where
  State := Ledger
  committed := rows
  commits := commits
  stance := stance
  effect q rows r rows' := r = rows.length + 1 ∧ rows' = rows ++ [q]
  begins l c r l' :=
    l.draft = none ∧ r = .ok () ∧ l' = { l with draft := some (c, l.rows) } ∨
      r = .error .locked ∧ l' = l
  asks l c q r l' :=
    (∃ rows, l.draft = some (c, rows) ∧ r = .ok (rows.length + 1) ∧
      l' = { l with draft := some (c, rows ++ [q]) }) ∨
      r = .error .locked ∧ l' = l
  commit l c r l' :=
    (∃ rows, l.draft = some (c, rows) ∧ r = .ok () ∧ l' = ⟨rows, l.commits + 1, none⟩) ∨
      r = .error .locked ∧ l' = l
  rollback l c r l' :=
    (∃ rows, l.draft = some (c, rows)) ∧ r = .ok () ∧ l' = { l with draft := none } ∨
      r = .error .locked ∧ l' = l
  connect := vacate
  close := vacate

variable {l : Ledger} {c : ConnectionId}

theorem local_refl (l : Ledger) (c : ConnectionId) : backend.Local c l l :=
  ⟨rfl, rfl, fun _ _ => rfl⟩

theorem local_draft {l : Ledger} {draft : Option (ConnectionId × List String)}
    (h : ∀ d rows, l.draft = some (d, rows) → d = c)
    (h' : ∀ d rows, draft = some (d, rows) → d = c) :
    backend.Local c l { l with draft } := by
  refine ⟨rfl, rfl, fun d hd => ?_⟩
  have hidle {l : Ledger} (h : ∀ d rows, l.draft = some (d, rows) → d = c) :
      l.stance d = .idle := by
    unfold stance
    split
    · rename_i d' rows hdraft
      rw [if_neg (by rw [h d' rows hdraft]; exact hd.symm)]
    · rfl
  exact (hidle (l := { l with draft }) h').trans (hidle h).symm

theorem local_vacate : backend.Local c l (l.vacate c) ∧ (l.vacate c).stance c = .idle := by
  unfold vacate
  split
  · rename_i d rows hdraft
    by_cases hd : d = c
    · rw [if_pos hd]
      exact ⟨local_draft (fun d' rows' h' => by rw [hdraft] at h'; cases h'; exact hd)
        (fun _ _ h' => by cases h'), rfl⟩
    · rw [if_neg hd]
      exact ⟨local_refl l c, by simp [stance, hdraft, hd]⟩
  · rename_i hdraft
    exact ⟨local_refl l c, by simp [stance, hdraft]⟩

theorem lawful : backend.Lawful where
  begins_ok := by
    rintro l l' c - (⟨hfree, -, rfl⟩ | ⟨h, -⟩)
    · refine ⟨local_draft (by simp [hfree]) (by simp), .inr ?_⟩
      simp [backend, stance]
    · cases h
  begins_error := by
    rintro l l' c e hidle (⟨-, h, -⟩ | ⟨-, rfl⟩)
    · cases h
    · exact ⟨local_refl _ c, hidle⟩
  asks := by
    rintro l l' c q r - (⟨rows, hdraft, rfl, rfl⟩ | ⟨rfl, rfl⟩)
    · refine ⟨local_draft (by simp [hdraft]) (by simp), ?_⟩
      have hafter : backend.stance { l with draft := some (c, rows ++ [q]) } c =
          .seen l.commits l.rows (rows ++ [q]) := by simp [backend, stance]
      have hbefore : backend.stance l c = .seen l.commits l.rows rows := by
        simp [backend, stance, hdraft]
      rw [hafter, hbefore]
      exact .ok .seen ⟨rfl, rfl⟩
    · exact ⟨local_refl _ c, .error⟩
  commit_ok := by
    rintro l l' c since base draft hsees (⟨rows, hdraft, -, rfl⟩ | ⟨h, -⟩)
    · have hbefore : backend.stance l c = .seen l.commits l.rows rows := by
        simp [backend, stance, hdraft]
      rw [hbefore] at hsees
      cases hsees
      refine ⟨rfl, rfl, rfl, fun d hd => ?_, .inl (Nat.lt_succ_self _)⟩
      simp [backend, stance, hdraft, hd.symm]
    · cases h
  commit_error := by
    rintro l l' c e - (⟨_, -, h, -⟩ | ⟨-, rfl⟩)
    · cases h
    · exact local_refl _ c
  rollback_ok := by
    rintro l l' c (⟨⟨rows, hdraft⟩, -, rfl⟩ | ⟨h, -⟩)
    · exact ⟨local_draft (by simp [hdraft]) (by simp), rfl⟩
    · cases h
  rollback_error := by
    rintro l l' c e (⟨-, h, -⟩ | ⟨-, rfl⟩)
    · cases h
    · exact local_refl _ c
  connect := local_vacate
  close := local_vacate.1

end Ledger

end SingleWriter.Write
