import Mathlib.Data.List.Nodup
import SingleWriter.Engine.Disk

/-! The deletion of the files of a database.  A file system deletes one name or says why it cannot;
what it says of one name has nothing to do with the others.  `deleted` says of any such file system
what becomes of the names when they are deleted in order, and the place of a database is one. -/

namespace SingleWriter

/-- A file system, as far as it goes to look at a name and to delete one.  Names stand for
themselves: two of them never lead to one file. -/
structure FileSystem (σ ι : Type) where
  /-- What stands under a name, if anything. -/
  look : σ → String → Option ι
  unlink : σ → String → Except IoError σ
  look_missing : ∀ {s n}, unlink s n = .error .notFound → look s n = none
  look_other : ∀ {s s' m n}, unlink s n = .ok s' → m ≠ n → look s' m = look s m
  unlink_again : ∀ {s s' n}, unlink s n = .ok s' → unlink s' n = .error .notFound
  /-- Nothing stands in the way of a deletion because of another one. -/
  unlink_other : ∀ {s s' m n}, unlink s n = .ok s' → m ≠ n →
    ∀ e, unlink s' m = .error e ↔ unlink s m = .error e

namespace FileSystem

variable {σ ι : Type} (fs : FileSystem σ ι)

/-- Deletes names in order.  What is not there is passed over; any other error ends it. -/
def deleteAll : σ → List String → σ × Except IoError Unit
  | s, [] => (s, .ok ())
  | s, n :: ns =>
    match fs.unlink s n with
    | .ok s' => deleteAll s' ns
    | .error e => if e = .notFound then deleteAll s ns else (s, .error e)

/-- Nothing stands in the way of the deletion of this name. -/
def Free (s : σ) (n : String) : Prop := ∀ e, fs.unlink s n = .error e → e = .notFound

/-- Nothing stands under this name, as one sees when one looks at it and when one deletes it. -/
structure Absent (s : σ) (n : String) : Prop where
  unlink : fs.unlink s n = .error .notFound
  look : fs.look s n = none

/-- What stands under this name is left alone, and so is what stands in the way of its deletion. -/
structure Spared (s s' : σ) (n : String) : Prop where
  unlink : ∀ e, fs.unlink s' n = .error e ↔ fs.unlink s n = .error e
  look : fs.look s' n = fs.look s n

/-- What comes of a deletion of names: all of them are gone, or it ended at the first that something
stands in the way of.  Those before it are gone, it and those after it are as they were. -/
structure Deleted (ns : List String) (s : σ) (x : Except IoError Unit) (s' : σ) : Prop where
  gone : x = .ok () → ∀ n ∈ ns, fs.Absent s' n
  ended : ∀ e, x = .error e → ∃ first n rest, ns = first ++ n :: rest ∧
    e ≠ .notFound ∧ fs.unlink s n = .error e ∧
    (∀ m ∈ first, fs.Free s m ∧ fs.Absent s' m) ∧ ∀ m ∈ n :: rest, fs.Spared s s' m
  others : ∀ m, m ∉ ns → fs.Spared s s' m

variable {fs} {s s' t : σ} {n : String} {ns : List String} {x : Except IoError Unit}

theorem Absent.free (h : fs.Absent s n) : fs.Free s n := by
  intro e he
  rw [h.unlink] at he
  exact (Except.error.inj he).symm

theorem Spared.refl (s : σ) (n : String) : fs.Spared s s n := ⟨fun _ => Iff.rfl, rfl⟩

theorem Spared.trans (h : fs.Spared s s' n) (h' : fs.Spared s' t n) : fs.Spared s t n :=
  ⟨fun e => (h'.unlink e).trans (h.unlink e), h'.look.trans h.look⟩

theorem Spared.free (h : fs.Spared s s' n) : fs.Free s' n ↔ fs.Free s n :=
  forall_congr' fun e => imp_congr_left (h.unlink e)

theorem Spared.absent (h : fs.Spared s s' n) (hs : fs.Absent s n) : fs.Absent s' n :=
  ⟨(h.unlink _).mpr hs.unlink, h.look.trans hs.look⟩

/-- A name that is gone, and that does not come up again. -/
theorem Deleted.cons (h : fs.Deleted ns s' x t) (hn : n ∉ ns) (hfree : fs.Free s n)
    (hgone : fs.Absent s' n) (hothers : ∀ m, m ≠ n → fs.Spared s s' m) :
    fs.Deleted (n :: ns) s x t := by
  have hself : fs.Absent t n := (h.others n hn).absent hgone
  have hne {m : String} (hm : m ∈ ns) : m ≠ n := fun he => hn (he ▸ hm)
  refine ⟨fun hx m hm => ?_, fun e hx => ?_, fun m hm => ?_⟩
  · rcases List.mem_cons.mp hm with rfl | hm
    · exact hself
    · exact h.gone hx m hm
  · obtain ⟨first, k, rest, rfl, he, hk, hfirst, hrest⟩ := h.ended e hx
    refine ⟨n :: first, k, rest, rfl, he, ?_, fun m hm => ?_, fun m hm => ?_⟩
    · exact ((hothers k (hne (by simp))).unlink e).mp hk
    · rcases List.mem_cons.mp hm with rfl | hm
      · exact ⟨hfree, hself⟩
      · obtain ⟨hm', habsent⟩ := hfirst m hm
        exact ⟨(hothers m (hne (List.mem_append_left _ hm))).free.mp hm', habsent⟩
    · exact (hothers m (hne (List.mem_append_right _ hm))).trans (hrest m hm)
  · obtain ⟨hmn, hm⟩ := not_or.mp (List.mem_cons.not.mp hm)
    exact (hothers m hmn).trans (h.others m hm)

theorem deleted (hns : ns.Nodup) (s : σ) :
    fs.Deleted ns s (fs.deleteAll s ns).2 (fs.deleteAll s ns).1 := by
  induction ns generalizing s with
  | nil => exact ⟨nofun, nofun, fun m _ => .refl s m⟩
  | cons n ns ih =>
    obtain ⟨hn, hns⟩ := List.nodup_cons.mp hns
    rw [deleteAll]
    cases hunlink : fs.unlink s n with
    | ok s' =>
      have hagain := fs.unlink_again hunlink
      refine (ih hns s').cons hn (fun e he => ?_) ⟨hagain, fs.look_missing hagain⟩
        fun m hm => ⟨fs.unlink_other hunlink hm, fs.look_other hunlink hm⟩
      rw [hunlink] at he
      cases he
    | error e =>
      by_cases he : e = .notFound
      · subst he
        have habsent : fs.Absent s n := ⟨hunlink, fs.look_missing hunlink⟩
        simp only [if_true]
        exact (ih hns s).cons hn habsent.free habsent fun m _ => .refl s m
      · simp only [he, if_false]
        refine ⟨(fun hx => by cases hx), fun e' hx => ?_, fun m _ => .refl s m⟩
        cases hx
        exact ⟨[], n, ns, rfl, he, hunlink, by simp, fun m _ => .refl s m⟩

/-- With nothing in the way, all names are deleted. -/
theorem Deleted.ok (h : fs.Deleted ns s x s') (hfree : ∀ n ∈ ns, fs.Free s n) : x = .ok () := by
  cases x with
  | ok u => rfl
  | error e =>
    obtain ⟨first, n, rest, rfl, he, hunlink, -⟩ := h.ended e rfl
    exact absurd (hfree n (by simp) e hunlink) he

end FileSystem

/-! ### The names of a database -/

namespace Engine

def Part.all : List Part := [.main, .wal, .shm]

def Part.suffix : Part → String
  | .main => ""
  | .wal => "-wal"
  | .shm => "-shm"

/-- The name of a part of the database with this path. -/
def Part.name (path : String) (p : Part) : String := path ++ p.suffix

theorem Part.name_inj {path : String} {p q : Part} : p.name path = q.name path ↔ p = q := by
  rw [name, name, String.append_right_inj]
  cases p <;> cases q <;> decide

/-- The names that belong to the database with this path. -/
def files (path : String) : List String := Part.all.map (Part.name path)

theorem files_nodup (path : String) : (files path).Nodup :=
  List.Nodup.map (fun _ _ => Part.name_inj.mp) (by decide)

def Part.ofName? (path n : String) : Option Part :=
  Part.all.find? fun p => decide (p.name path = n)

theorem Part.ofName?_eq_some {path n : String} {p : Part} :
    ofName? path n = some p ↔ p.name path = n := by
  constructor
  · intro h
    simpa using List.find?_some h
  · rintro rfl
    simp only [ofName?, Part.name_inj]
    cases p <;> rfl

namespace Disk

variable {d d' : Disk} {p q : Part}

theorem entry_setEntry_self (d : Disk) (e : Entry) (p : Part) : (d.setEntry e p).entry p = e := by
  cases p <;> rfl

theorem entry_setEntry_ne (d : Disk) (e : Entry) (h : q ≠ p) :
    (d.setEntry e p).entry q = d.entry q := by
  cases p <;> cases q <;> first | rfl | exact absurd rfl h

theorem parent_setEntry (d : Disk) (e : Entry) (p : Part) :
    (d.setEntry e p).parent = d.parent := by
  cases p <;> rfl

theorem unlink_ok (h : d.unlink p = .ok d') : d' = d.setEntry .absent p := by
  unfold unlink at h
  split at h
  · split at h <;> cases h
    rfl
  · cases h
  · cases h

theorem unlink_missing (h : d.unlink p = .error .notFound) :
    ¬(d.parent = .directory ∧ d.entry p ≠ .absent) := by
  rintro ⟨hparent, hentry⟩
  rw [unlink, hparent] at h
  cases he : d.entry p <;> rw [he] at h
  · exact hentry he
  · cases h
  · cases h
  · cases h

theorem unlink_again (h : d.unlink p = .ok d') : d'.unlink p = .error .notFound := by
  have hparent : d.parent = .directory := by
    unfold unlink at h
    split at h
    · assumption
    · cases h
    · cases h
  rw [unlink_ok h, unlink, parent_setEntry, hparent, entry_setEntry_self]

/-- Whether a name can be deleted depends on what it lies in and what stands under it. -/
theorem unlink_error_congr (hparent : d'.parent = d.parent) (hentry : d'.entry p = d.entry p)
    (e : IoError) : d'.unlink p = .error e ↔ d.unlink p = .error e := by
  rw [unlink, unlink, hparent, hentry]
  split
  · split <;> simp
  · exact Iff.rfl
  · exact Iff.rfl

/-- The place of a database, as a file system that has no other names. -/
def under (path : String) : FileSystem Disk Entry where
  look d n := (Part.ofName? path n).bind fun p =>
    if d.parent = .directory ∧ d.entry p ≠ .absent then some (d.entry p) else none
  unlink d n :=
    match Part.ofName? path n with
    | some p => d.unlink p
    | none => .error .notFound
  look_missing {d n} h := by
    cases hp : Part.ofName? path n with
    | none => rfl
    | some p =>
      rw [hp] at h
      rw [Option.bind_some, if_neg (unlink_missing h)]
  look_other {d d' m n} h hmn := by
    cases hp : Part.ofName? path n with
    | none =>
      rw [hp] at h
      cases h
    | some p =>
      rw [hp] at h
      cases hq : Part.ofName? path m with
      | none => rfl
      | some q =>
        have hqp : q ≠ p := fun he =>
          hmn ((Part.ofName?_eq_some.mp hq).symm.trans (he ▸ Part.ofName?_eq_some.mp hp))
        rw [unlink_ok h, Option.bind_some, Option.bind_some, entry_setEntry_ne d _ hqp,
          parent_setEntry]
  unlink_again {d d' n} h := by
    cases hp : Part.ofName? path n with
    | none => rfl
    | some p =>
      rw [hp] at h
      exact unlink_again h
  unlink_other {d d' m n} h hmn e := by
    cases hp : Part.ofName? path n with
    | none =>
      rw [hp] at h
      cases h
    | some p =>
      rw [hp] at h
      cases hq : Part.ofName? path m with
      | none => exact Iff.rfl
      | some q =>
        have hqp : q ≠ p := fun he =>
          hmn ((Part.ofName?_eq_some.mp hq).symm.trans (he ▸ Part.ofName?_eq_some.mp hp))
        rw [unlink_ok h]
        exact unlink_error_congr (parent_setEntry ..) (entry_setEntry_ne d _ hqp) e

theorem under_unlink (path : String) (d : Disk) (p : Part) :
    (Disk.under path).unlink d (p.name path) = d.unlink p := by
  simp only [Disk.under, Part.ofName?_eq_some.mpr rfl]

/-- At the place of a database, its names are deleted as in any file system. -/
theorem unlinkAll_eq (path : String) (d : Disk) (ps : List Part) :
    d.unlinkAll ps = (Disk.under path).deleteAll d (ps.map (Part.name path)) := by
  induction ps generalizing d with
  | nil => rfl
  | cons p ps ih =>
    rw [unlinkAll, List.map_cons, FileSystem.deleteAll, under_unlink]
    cases d.unlink p with
    | ok d' => exact ih d'
    | error e =>
      by_cases he : e = .notFound
      · simp only [he, if_true]
        exact ih d
      · simp only [he, if_false]

end Disk

end Engine

end SingleWriter
