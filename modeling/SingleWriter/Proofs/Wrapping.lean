import Mathlib.Data.List.Infix
import SingleWriter.Busy

/-! Errors that an operation wraps.  A wrapper shows the text of what it wraps, and everything but
an SQL error that is wrapped once is classed by that text.  So wrapping keeps the class of an error
exactly when its text tells the same class, which is not always so for errors that are final
whatever they say, or whose result code decides. -/

namespace SingleWriter

/-! ### Texts with a label -/

namespace Busy

/-- No phrase begins within the label and goes on behind it. -/
def Apart (label : String) : Prop :=
  ∀ t ∈ (Text.lower label.toList).tails, t ≠ [] → ∀ p ∈ phrases, ¬t <+: p.toList

instance (label : String) : Decidable (Apart label) :=
  inferInstanceAs (Decidable (∀ t ∈ _, t ≠ [] → ∀ p ∈ phrases, ¬t <+: p.toList))

theorem readsBusy_iff {m : String} :
    readsBusy m = true ↔ ∃ p ∈ phrases, p.toList <:+: Text.lower m.toList := by
  simp only [readsBusy, List.any_eq_true, occurs_iff]

theorem readsBusy_append {label : String} (h : Apart label) (m : String) :
    readsBusy (label ++ m) = (readsBusy label || readsBusy m) := by
  have hlower : Text.lower (label ++ m).toList =
      Text.lower label.toList ++ Text.lower m.toList := by
    simp only [Text.lower, String.toList_append, List.map_append]
  rw [Bool.eq_iff_iff, Bool.or_eq_true]
  simp only [readsBusy_iff, hlower]
  constructor
  · rintro ⟨p, hp, hin⟩
    rcases List.infix_append_iff.mp hin with hin | hin | ⟨s, t, hst, hs, ht⟩
    · exact .inl ⟨p, hp, hin⟩
    · exact .inr ⟨p, hp, hin⟩
    -- A phrase that lies across the border would begin with an end of the label.
    · by_cases hnil : s = []
      · rw [hnil, List.nil_append] at hst
        exact .inr ⟨p, hp, hst ▸ ht.isInfix⟩
      · exact absurd ⟨t, hst.symm⟩ (h s ((List.mem_tails ..).mpr hs) hnil p hp)
  · rintro (⟨p, hp, hin⟩ | ⟨p, hp, hin⟩)
    · exact ⟨p, hp, hin.trans (List.prefix_append _ _).isInfix⟩
    · exact ⟨p, hp, hin.trans (List.suffix_append _ _).isInfix⟩

/-- A label that is apart and does not read busy itself says nothing about the rest. -/
theorem readsBusy_labelled {label : String} (h : Apart label) (hquiet : readsBusy label = false)
    (m : String) : readsBusy (label ++ m) = readsBusy m := by
  rw [readsBusy_append h, hquiet, Bool.false_or]

theorem classOf_inj {a b : Bool} : classOf a = classOf b ↔ a = b := by
  cases a <;> cases b <;> simp [classOf]

end Busy

open Busy

/-! ### Wrapping -/

/-- The error that a cause is when nothing wraps it. -/
def Cause.bare : Cause → WriteError
  | .app m => .other m
  | .io e => .io e
  | .sql e => .sql e
  | .connection e => .connection e
  | .write e => e

/-- A cause in a number of wrappers. -/
def Cause.wrapped (c : Cause) : Nat → WriteError
  | 0 => c.bare
  | 1 => .operation c
  | n + 2 => .operation (.write (c.wrapped (n + 1)))

namespace Cause

theorem message_wrapped (c : Cause) (n : Nat) : (c.wrapped (n + 1)).message = c.message := by
  induction n with
  | zero => rw [wrapped, WriteError.message]
  | succ n ih => rw [wrapped, WriteError.message, Cause.message, ih]

/-- The text with a cause's own label or without it: it makes no difference. -/
theorem readsBusy_bare (c : Cause) : readsBusy c.bare.message = readsBusy c.message := by
  cases c with
  | io e =>
    rw [bare, WriteError.message, Cause.message]
    exact readsBusy_labelled (by decide) (by decide) _
  | app | sql | connection | write => simp only [bare, WriteError.message, Cause.message]

/-- One wrapper around an SQL error leaves it to be seen; all others hide everything but the
text. -/
theorem errorClass_wrapped (c : Cause) (n : Nat) :
    (c.wrapped (n + 1)).errorClass =
      match n, c with
      | 0, .sql e => e.errorClass
      | _, _ => classOf (readsBusy c.message) := by
  cases n with
  | zero => cases c <;> simp only [wrapped, WriteError.errorClass]
  | succ n => simp only [wrapped, WriteError.errorClass, Cause.message, message_wrapped]

end Cause

/-! ### Errors that are classed by their text -/

/-- Whether the class of an error is the one that its text tells.  A result code has to agree with
the message. -/
def SqlError.TextDecides : SqlError → Prop
  | .poolTimedOut => False
  | .database code message => ∀ c, code.bind signedWord? = some c → isBusyCode c = readsBusy message
  | _ => True

/-- What is final must not read busy, and a checkpoint has the class of its cause. -/
def ConnectionError.TextDecides : ConnectionError → Prop
  | .io _ => True
  | .sql e => e.TextDecides
  | .opening path e => readsBusy (opening path e).message = false
  | .pragma statement e => readsBusy (pragma statement e).message = false
  | .notInitialized => True
  | .closed => True
  | .checkpoint mode e => e.errorClass = classOf (readsBusy (checkpoint mode e).message)

/-- The ends of a write are final, too. -/
def WriteError.TextDecides : WriteError → Prop
  | .sql e => e.TextDecides
  | .connection e => e.TextDecides
  | .exhausted name k last => readsBusy (exhausted name k last).message = false
  | .cancelled name k => readsBusy (cancelled name k).message = false
  | .operation (.sql e) => e.TextDecides
  | .operation _ => True
  | .io _ => True
  | .other _ => True

theorem SqlError.textDecides_iff (e : SqlError) :
    e.TextDecides ↔ e.errorClass = classOf (readsBusy e.message) := by
  cases e with
  | poolTimedOut =>
    refine iff_of_false id ?_
    rw [errorClass, show readsBusy poolTimedOut.message = false by decide]
    simp [classOf]
  | database code m =>
    have hlabel : readsBusy (database code m).message = readsBusy m :=
      readsBusy_labelled (by decide) (by decide) m
    rw [TextDecides, errorClass, hlabel]
    cases hc : code.bind signedWord? with
    | none => simp
    | some c => simp [classOf_inj]
  | _ => exact iff_of_true trivial rfl

theorem Busy.fatal_eq_classOf_iff {b : Bool} : ErrorClass.fatal = classOf b ↔ b = false := by
  cases b <;> simp [classOf]

theorem ConnectionError.textDecides_iff (e : ConnectionError) :
    e.TextDecides ↔ e.errorClass = classOf (readsBusy e.message) := by
  cases e with
  | io e => exact iff_of_true trivial rfl
  | sql e =>
    have hlabel : readsBusy (sql e).message = readsBusy e.message :=
      readsBusy_labelled (by decide) (by decide) _
    rw [TextDecides, errorClass, hlabel]
    exact e.textDecides_iff
  | opening | pragma => exact fatal_eq_classOf_iff.symm
  | notInitialized => exact iff_of_true trivial (by decide)
  | closed => exact iff_of_true trivial (by decide)
  | checkpoint mode e => exact Iff.rfl

theorem WriteError.textDecides_iff (e : WriteError) :
    e.TextDecides ↔ e.errorClass = classOf (readsBusy e.message) := by
  cases e with
  | sql e =>
    rw [TextDecides, errorClass, message]
    exact e.textDecides_iff
  | connection e =>
    rw [TextDecides, errorClass, message]
    exact e.textDecides_iff
  | exhausted | cancelled => exact fatal_eq_classOf_iff.symm
  | operation cause =>
    cases cause with
    | sql e =>
      rw [TextDecides, errorClass, message, Cause.message]
      exact e.textDecides_iff
    | app | io | connection | write =>
      simp only [TextDecides, errorClass, message]
  | io e =>
    refine iff_of_true trivial ?_
    rw [errorClass, message, readsBusy_labelled (by decide) (by decide)]
  | other m => simp only [TextDecides, errorClass, message]

/-- Wrapping keeps the class of an error exactly when it is an SQL error that is wrapped once, or
when its text tells its class. -/
theorem Cause.wrapped_keeps_class_iff (c : Cause) (n : Nat) :
    (c.wrapped (n + 1)).errorClass = c.bare.errorClass ↔
      (n = 0 ∧ ∃ e, c = .sql e) ∨ c.bare.TextDecides := by
  have htext : classOf (readsBusy c.message) = c.bare.errorClass ↔ c.bare.TextDecides := by
    rw [WriteError.textDecides_iff, readsBusy_bare, eq_comm]
  rw [errorClass_wrapped]
  cases n with
  | zero =>
    cases c with
    | sql e => exact iff_of_true rfl (.inl ⟨rfl, e, rfl⟩)
    | app | io | connection | write => simpa using htext
  | succ n => simpa using htext

/-- A database that cannot be opened is final, and so is a write that was cancelled; but within a
wrapper both may read as if they passed.  A constraint that fails is final by its code, within one
wrapper as well, but not within two. -/
theorem wrapped_finals_read_busy :
    let opening : Cause :=
      .connection (.opening "/tmp/app.db" (.database (some "5") "database is locked"))
    let cancelled : Cause := .write (.cancelled "busy_rows" 1)
    let constraint : Cause := .sql (.database (some "2067") "UNIQUE constraint failed: busy.id")
    (opening.bare.errorClass = .fatal ∧ (opening.wrapped 1).errorClass = .transient) ∧
      (cancelled.bare.errorClass = .fatal ∧ (cancelled.wrapped 1).errorClass = .transient) ∧
      constraint.bare.errorClass = .fatal ∧ (constraint.wrapped 1).errorClass = .fatal ∧
        (constraint.wrapped 2).errorClass = .transient := by
  decide

end SingleWriter
