import Mathlib.Data.List.Basic
import Mathlib.Data.List.Perm.Subperm

/-! Lists of pairs that are searched by their first half: what a search finds after an entry was
added, replaced or removed. -/

namespace SingleWriter

variable {α β : Type} [DecidableEq α] {k n : α}

theorem lookup_filter_ne (l : List (α × β)) (h : n ≠ k) :
    (l.filter (·.1 != n)).lookup k = l.lookup k := by
  induction l with
  | nil => rfl
  | cons x xs ih =>
    rw [List.filter_cons]
    split
    · rw [List.lookup_cons, List.lookup_cons, ih]
    · rename_i hx
      have hk : (k == x.1) = false := by
        simp only [bne_iff_ne, ne_eq, Decidable.not_not] at hx
        simpa [hx] using h.symm
      rw [ih, List.lookup_cons, hk]

theorem lookup_removed (l : List (α × β)) : (l.filter (·.1 != k)).lookup k = none := by
  induction l with
  | nil => rfl
  | cons x xs ih =>
    rw [List.filter_cons]
    split
    · rename_i hx
      have hk : (k == x.1) = false := beq_false_of_ne (Ne.symm (by simpa using hx))
      rw [List.lookup_cons, hk, ih]
    · exact ih

/-- An entry that is found makes up a list together with the entries of other names. -/
theorem subperm_of_lookup {l : List (α × β)} {x : β} (h : l.lookup k = some x) :
    ((k, x) :: l.filter (·.1 != k)).Subperm l := by
  induction l with
  | nil => cases h
  | cons y ys ih =>
    obtain ⟨i, old⟩ := y
    rw [List.lookup_cons] at h
    cases hk : k == i with
    | true =>
      rw [hk] at h
      obtain rfl := eq_of_beq hk
      obtain rfl := Option.some.inj h
      rw [List.filter_cons_of_neg (by simp)]
      exact (List.filter_sublist.cons_cons _).subperm
    | false =>
      rw [hk] at h
      rw [List.filter_cons_of_pos (by simpa using (ne_of_beq_false hk).symm)]
      exact (List.Perm.swap _ _ _).subperm.trans ((List.subperm_cons _).mpr (ih h))

/-- The entries after one of them has got a new place. -/
theorem lookup_assign (l : List (α × β)) (n : α) (x : β) :
    ((n, x) :: l.filter (·.1 != n)).lookup k = if n = k then some x else l.lookup k := by
  rw [List.lookup_cons]
  by_cases h : n = k
  · simp [h]
  · rw [beq_false_of_ne (Ne.symm h), if_neg h]
    exact lookup_filter_ne l h

/-- The entries after one of them has got a new value in its old place. -/
theorem lookup_replace (l : List (α × β)) (n : α) (x : β) :
    (l.map fun (i, old) => if i = n then (i, x) else (i, old)).lookup k =
      if n = k then (l.lookup k).map fun _ => x else l.lookup k := by
  induction l with
  | nil => simp
  | cons y ys ih =>
    obtain ⟨i, old⟩ := y
    have hfirst : (if i = n then (i, x) else (i, old)) = (i, if i = n then x else old) := by
      split <;> rfl
    rw [List.map_cons]
    dsimp only
    rw [hfirst, List.lookup_cons, List.lookup_cons, ih]
    by_cases h : n = k
    · rw [if_pos h, if_pos h]
      cases hk : k == i with
      | false => rfl
      | true =>
        rw [if_pos ((eq_of_beq hk).symm.trans h.symm)]
        rfl
    · rw [if_neg h, if_neg h]
      cases hk : k == i with
      | false => rfl
      | true => rw [if_neg fun hi => h (hi.symm.trans (eq_of_beq hk).symm)]

end SingleWriter
