/-! The pool of one database's connections.  A connection is at rest or lent; those who want one
wait in line, and a place is free for the first of them while fewer connections are lent than
allowed. -/

namespace SingleWriter

/-- The connections of a pool and the line of those who wait. -/
structure Pool where
  limit : Nat
  minimum : Nat
  /-- The connections at rest, the one that rests longest first. -/
  idle : List Nat := []
  lent : List Nat := []
  /-- Those who have a place but no connection yet. -/
  opening : List Nat := []
  /-- Those who wait for a place, first come first served. -/
  line : List Nat := []
  closed : Bool := false
deriving DecidableEq

namespace Pool

def taken (p : Pool) : Nat := p.lent.length + p.opening.length

/-- All connections, those that are about to be opened included. -/
def size (p : Pool) : Nat := p.idle.length + p.taken

def enqueue (p : Pool) (who : Nat) : Pool := { p with line := p.line ++ [who] }

/-- Leaves the line, or gives up a place without a connection. -/
def withdraw (p : Pool) (who : Nat) : Pool :=
  { p with line := p.line.erase who, opening := p.opening.erase who }

/-- What the first in line gets: a connection at rest, or leave to open one. -/
inductive Grant where
  | idle (connection : Nat)
  | opening
deriving DecidableEq

/-- Serves someone who waits in line, if it is their turn and there is a place. -/
def serve? (p : Pool) (who : Nat) : Option (Grant × Pool) :=
  match p.line with
  | first :: rest =>
    if first = who ∧ p.taken < p.limit ∧ p.closed = false then
      match p.idle with
      | c :: cs => some (.idle c, { p with line := rest, idle := cs, lent := c :: p.lent })
      | [] => some (.opening, { p with line := rest, opening := who :: p.opening })
    else none
  | [] => none

def opened (p : Pool) (who connection : Nat) : Pool :=
  { p with opening := p.opening.erase who, lent := connection :: p.lent }

def giveBack (p : Pool) (connection : Nat) : Pool :=
  { p with lent := p.lent.erase connection, idle := p.idle ++ [connection] }

def forget (p : Pool) (connection : Nat) : Pool := { p with lent := p.lent.erase connection }

/-- A connection at rest is replaced by leave to open a new one. -/
def replace (p : Pool) (who connection : Nat) : Pool :=
  { p with lent := p.lent.erase connection, opening := who :: p.opening }

def addIdle (p : Pool) (connection : Nat) : Pool := { p with idle := p.idle ++ [connection] }

def wantsMore (p : Pool) : Bool := !p.closed && p.size < p.minimum

/-- Nobody is served any more; the connections at rest are to be closed. -/
def close (p : Pool) : List Nat × Pool := (p.idle, { p with idle := [], closed := true })

def drained (p : Pool) : Bool := p.closed && p.taken == 0

section

variable {p p' : Pool} {who c : Nat} {g : Grant}

/-- An open pool lends the connection that rests longest, or gives leave to open one. -/
theorem serve?_eq_some (h : p.serve? who = some (g, p')) : p.closed = false ∧
    ((∃ c, g = .idle c ∧ p.idle = c :: p'.idle ∧ p'.lent = c :: p.lent) ∨
      g = .opening ∧ p'.idle = p.idle ∧ p'.lent = p.lent) := by
  unfold serve? at h
  split at h
  · split at h
    · rename_i hturn
      refine ⟨hturn.2.2, ?_⟩
      split at h
      · rename_i hidle
        cases h
        exact .inl ⟨_, rfl, hidle, rfl⟩
      · cases h
        exact .inr ⟨rfl, rfl, rfl⟩
    · cases h
  · cases h

theorem open_of_serve? (h : p.serve? who = some (g, p')) : p.closed = false := (serve?_eq_some h).1

theorem lends (h : p.serve? who = some (.idle c, p')) :
    p.idle = c :: p'.idle ∧ p'.lent = c :: p.lent := by
  obtain ⟨-, ⟨c', hc, hlends⟩ | ⟨hc, -⟩⟩ := serve?_eq_some h
  · cases hc
    exact hlends
  · cases hc

theorem mem_idle_of_lends (h : p.serve? who = some (.idle c, p')) : c ∈ p.idle := by
  rw [(lends h).1]
  exact List.mem_cons_self

theorem mem_idle_of_lends_of_mem (h : p.serve? who = some (.idle c, p')) {d : Nat}
    (hd : d ∈ p'.idle) : d ∈ p.idle := by
  rw [(lends h).1]
  exact List.mem_cons_of_mem _ hd

/-- The connection that is lent is none of those that stay at rest. -/
theorem lends_apart (h : p.serve? who = some (.idle c, p')) (hnodup : p.idle.Nodup) :
    p'.idle.Nodup ∧ c ∉ p'.idle := by
  rw [(lends h).1, List.nodup_cons] at hnodup
  exact hnodup.symm

/-- A connection that is replaced was lent to nobody. -/
theorem replace_lent (h : p.serve? who = some (.idle c, p')) :
    (p'.replace who c).lent = p.lent := by
  simp [replace, (lends h).2]

theorem places (h : p.serve? who = some (.opening, p')) : p'.idle = p.idle ∧ p'.lent = p.lent := by
  obtain ⟨-, ⟨c, hc, -⟩ | ⟨-, hplaces⟩⟩ := serve?_eq_some h
  · cases hc
  · exact hplaces

end

end Pool

end SingleWriter
