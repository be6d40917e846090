/-! The lock by which the writes of one coordinator take turns.  It is fair: those who wait get it
in the order in which they came. -/

namespace SingleWriter.Write

/-- Who holds the lock and who waits for it, first come first. -/
structure Lock where
  holder : Option Nat := none
  line : List Nat := []
deriving DecidableEq

namespace Lock

/-- Gets in line, once. -/
def enqueue (l : Lock) (who : Nat) : Lock :=
  if who ∈ l.line then l else { l with line := l.line ++ [who] }

/-- Takes the lock if it is free and nobody is before in line. -/
def take? (l : Lock) (who : Nat) : Option Lock :=
  match l.holder, l.line with
  | none, first :: rest => if first = who then some ⟨some who, rest⟩ else none
  | _, _ => none

def free (l : Lock) : Lock := { l with holder := none }

def leave (l : Lock) (who : Nat) : Lock := { l with line := l.line.erase who }

theorem take?_eq_some {l l' : Lock} {who : Nat} (h : l.take? who = some l') :
    l.holder = none ∧ l'.holder = some who ∧ l.line = who :: l'.line := by
  unfold take? at h
  split at h
  · rename_i hfree hline
    split at h
    · rename_i hfirst
      cases h
      exact ⟨hfree, rfl, hfirst ▸ hline⟩
    · cases h
  · cases h

theorem holder_enqueue (l : Lock) (who : Nat) : (l.enqueue who).holder = l.holder := by
  unfold enqueue
  split <;> rfl

end Lock

end SingleWriter.Write
