import Mathlib.Data.UInt
import SingleWriter.Proofs.Numerals
import SingleWriter.Proofs.Wrapping

/-! The class of each error.  A database error has one of its own, which every way of raising it
keeps: its result code decides if the code's text is a number, however negative, and its message
only where there is no such code.  What keeps a database from opening and what ends a write is
final, whatever it holds. -/

namespace SingleWriter

/-! ### Result codes as texts -/

namespace Busy

/-- A numeral in signed decimal and the number it stands for. -/
inductive Numeral : List Char → Int → Prop where
  | bare {ds : List Char} (h : Json.Digits ds) : Numeral ds (Nat.ofDigitChars 10 ds 0)
  | plus {ds : List Char} (h : Json.Digits ds) : Numeral ('+' :: ds) (Nat.ofDigitChars 10 ds 0)
  | minus {ds : List Char} (h : Json.Digits ds) :
      Numeral ('-' :: ds) (-(Nat.ofDigitChars 10 ds 0 : Int))

/-- The text is a numeral for a word of 32 bits. -/
def Spells (text : String) (c : Int32) : Prop := Numeral text.toList c.toInt

theorem foldl_ofDigitChars (ds : List Char) (n : Nat) :
    ds.foldl (fun (n : Int) c => 10 * n + (c.toNat - '0'.toNat : Nat)) n =
      Nat.ofDigitChars 10 ds n := by
  induction ds generalizing n with
  | nil => rfl
  | cons d ds ih =>
    rw [List.foldl_cons, Nat.ofDigitChars_cons, ← ih]
    push_cast
    rfl

theorem digits_iff {ds : List Char} :
    ¬(ds.isEmpty || !ds.all Char.isDigit) = true ↔ Json.Digits ds := by
  constructor
  · intro h
    simp only [Bool.or_eq_true, List.isEmpty_iff, Bool.not_eq_true', List.all_eq_false, not_or,
      not_exists, not_and] at h
    exact ⟨h.1, fun d hd => by simpa using h.2 d hd⟩
  · intro h
    simp only [Bool.or_eq_true, List.isEmpty_iff, h.some, false_or, Bool.not_eq_true',
      Bool.not_eq_false, List.all_eq_true]
    exact h.all

/-- The number that a sign and the digits after it stand for. -/
def signed (negative : Bool) (ds : List Char) : Int :=
  if negative then -(Nat.ofDigitChars 10 ds 0 : Int) else Nat.ofDigitChars 10 ds 0

/-- A sign, or none, and what follows it. -/
inductive Signs : List Char → Bool → List Char → Prop where
  | minus (cs : List Char) : Signs ('-' :: cs) true cs
  | plus (cs : List Char) : Signs ('+' :: cs) false cs
  | bare {cs : List Char} (h : ∀ c ∈ cs.head?, c ≠ '-' ∧ c ≠ '+') : Signs cs false cs

theorem signs_total (cs : List Char) : ∃ negative ds, Signs cs negative ds := by
  rcases cs with _ | ⟨c, cs⟩
  · exact ⟨_, _, .bare (by simp)⟩
  by_cases hminus : c = '-'
  · subst hminus
    exact ⟨_, _, .minus cs⟩
  by_cases hplus : c = '+'
  · subst hplus
    exact ⟨_, _, .plus cs⟩
  · exact ⟨_, _, .bare (by simpa using ⟨hminus, hplus⟩)⟩

/-- No digit is a sign. -/
theorem Signs.of_digits {ds : List Char} (h : Json.Digits ds) :
    ∀ c ∈ ds.head?, c ≠ '-' ∧ c ≠ '+' := by
  intro c hc
  have hdigit := h.all c (List.mem_of_mem_head? hc)
  constructor
  · rintro rfl
    exact absurd hdigit (by decide)
  · rintro rfl
    exact absurd hdigit (by decide)

theorem Signs.numeral_iff {cs ds : List Char} {negative : Bool} {v : Int}
    (h : Signs cs negative ds) :
    Numeral cs v ↔ Json.Digits ds ∧ v = signed negative ds := by
  constructor
  · intro hv
    cases hv with
    | bare hds =>
      cases h with
      | minus | plus => exact absurd (Signs.of_digits hds _ rfl) (by decide)
      | bare => exact ⟨hds, rfl⟩
    | plus hds =>
      cases h with
      | plus => exact ⟨hds, rfl⟩
      | bare hno => exact absurd (hno _ rfl) (by decide)
    | minus hds =>
      cases h with
      | minus => exact ⟨hds, rfl⟩
      | bare hno => exact absurd (hno _ rfl) (by decide)
  · rintro ⟨hds, rfl⟩
    cases h with
    | minus => exact .minus hds
    | plus => exact .plus hds
    | bare => exact .bare hds

theorem signedWord?_of_signs {text : String} {ds : List Char} {negative : Bool}
    (h : Signs text.toList negative ds) :
    signedWord? text =
      if (ds.isEmpty || !ds.all Char.isDigit) = true then none
      else if -2147483648 ≤ signed negative ds ∧ signed negative ds ≤ 2147483647 then
        some (signed negative ds)
      else none := by
  have hfold := foldl_ofDigitChars ds 0
  rw [signedWord?]
  generalize text.toList = cs at h
  simp only [signed, ← hfold]
  cases h with
  | minus | plus => rfl
  | bare hno =>
    rcases ds with _ | ⟨c, cs⟩
    · rfl
    · obtain ⟨hminus, hplus⟩ := hno c rfl
      split <;> simp_all

theorem signedWord?_eq_some {text : String} {v : Int} :
    signedWord? text = some v ↔
      Numeral text.toList v ∧ -2147483648 ≤ v ∧ v ≤ 2147483647 := by
  obtain ⟨negative, ds, h⟩ := signs_total text.toList
  rw [signedWord?_of_signs h, h.numeral_iff, ← digits_iff]
  split
  · simp [*]
  · split
    · simp only [Option.some.injEq]
      constructor
      · rintro rfl
        exact ⟨⟨‹_›, rfl⟩, ‹_›⟩
      · exact fun h => h.1.2.symm
    · simp only [reduceCtorEq, false_iff]
      rintro ⟨⟨-, rfl⟩, hfits⟩
      contradiction

/-- The text of a result code is read as the word it spells, and as nothing else. -/
theorem signedWord?_iff {text : String} {v : Int} :
    signedWord? text = some v ↔ ∃ c : Int32, c.toInt = v ∧ Spells text c := by
  rw [signedWord?_eq_some]
  constructor
  · rintro ⟨hv, hlow, hhigh⟩
    have hword : (Int32.ofInt v).toInt = v := Int32.toInt_ofInt_of_le (by omega) (by omega)
    refine ⟨Int32.ofInt v, hword, ?_⟩
    rw [Spells, hword]
    exact hv
  · rintro ⟨c, rfl, hc⟩
    have hlow := c.le_toInt
    have hhigh := c.toInt_lt
    exact ⟨hc, by omega, by omega⟩

theorem digits_repr (n : Nat) :
    Json.Digits n.repr.toList ∧ Nat.ofDigitChars 10 n.repr.toList 0 = n := by
  rw [Nat.repr_eq_ofList_toDigits, String.toList_ofList]
  have hdigits : ∀ d ∈ Nat.toDigits 10 n, d.isDigit = true := fun d hd =>
    Nat.isDigit_of_mem_toDigits (by decide) (by decide) hd
  exact ⟨⟨Nat.toDigits_ne_nil, hdigits⟩, Nat.ofDigitChars_toDigits (by decide) (by decide)⟩

/-- Every word spells itself when it is written in decimal. -/
theorem spells_toString (c : Int32) : Spells (toString c.toInt) c := by
  rw [Spells]
  cases c.toInt with
  | ofNat n =>
    obtain ⟨hdigits, hvalue⟩ := digits_repr n
    have h := Numeral.bare hdigits
    rw [hvalue] at h
    exact h
  | negSucc n =>
    obtain ⟨hdigits, hvalue⟩ := digits_repr (n + 1)
    have h := Numeral.minus hdigits
    rw [hvalue] at h
    rw [show (toString (Int.negSucc n)) = "-" ++ (n + 1).repr from rfl, String.toList_append]
    exact h

/-- The low byte of a word, a negative one as well, is its remainder. -/
theorem toInt_low (c : Int32) : (c &&& 0xff).toInt = c.toInt % 256 := by
  have hlow : (c.toBitVec &&& 0xff#32).toNat = c.toBitVec.toNat % 256 := by
    rw [BitVec.toNat_and]
    exact Nat.and_two_pow_sub_one_eq_mod _ 8
  show (c.toBitVec &&& 0xff#32).toInt = c.toBitVec.toInt % 256
  rw [BitVec.toInt_eq_toNat_cond, BitVec.toInt_eq_toNat_cond, hlow]
  split <;> split <;> omega

theorem isBusyCode_iff (c : Int32) :
    isBusyCode c.toInt = true ↔ c &&& 0xff = 5 ∨ c &&& 0xff = 6 := by
  rw [← Int32.toInt_inj, ← Int32.toInt_inj, toInt_low, isBusyCode, Bool.or_eq_true, beq_iff_eq,
    beq_iff_eq]
  rfl

theorem classOf_eq_transient_iff {b : Bool} : classOf b = .transient ↔ b = true := by
  cases b <;> simp [classOf]

end Busy

open Busy

/-! ### The class of an SQL error -/

namespace SqlError

/-- A result code decides whatever the message says. -/
theorem errorClass_of_spelled {text : String} {c : Int32} (h : Spells text c) (message : String) :
    (database (some text) message).errorClass = classOf (isBusyCode c.toInt) := by
  have hread : signedWord? text = some c.toInt := signedWord?_iff.mpr ⟨c, rfl, h⟩
  rw [errorClass, Option.bind_some, hread]

theorem errorClass_of_uncoded {code : Option String} (h : ∀ text ∈ code, ∀ c, ¬Spells text c)
    (message : String) : (database code message).errorClass = classOf (readsBusy message) := by
  have hread : code.bind signedWord? = none := by
    rw [Option.bind_eq_none_iff]
    intro text htext
    rw [Option.eq_none_iff_forall_ne_some]
    intro v hv
    obtain ⟨c, -, hc⟩ := signedWord?_iff.mp hv
    exact h text htext c hc
  rw [errorClass, hread]

theorem errorClass_of_display {x : SqlError} (hdatabase : x.isDatabase = false)
    (hpool : x ≠ poolTimedOut) : x.errorClass = classOf (readsBusy x.message) := by
  cases x with
  | poolTimedOut => exact absurd rfl hpool
  | database => exact absurd hdatabase (by simp [isDatabase])
  | _ => rfl

/-- The ways in which an SQL error comes out of a write. -/
inductive RaisedAs (x : SqlError) : WriteError → Prop where
  | bare : RaisedAs x (.sql x)
  | connection : RaisedAs x (.connection (.sql x))
  | checkpoint (mode : String) : RaisedAs x (.connection (.checkpoint mode x))
  | operation : RaisedAs x (.operation (.sql x))

theorem RaisedAs.errorClass {x : SqlError} {e : WriteError} (h : x.RaisedAs e) :
    e.errorClass = x.errorClass := by
  cases h <;> simp only [WriteError.errorClass, ConnectionError.errorClass]

end SqlError

/-- The ways in which an I/O error comes out of a write. -/
inductive IoError.RaisedAs (i : IoError) : WriteError → Prop where
  | bare : RaisedAs i (.io i)
  | connection : RaisedAs i (.connection (.io i))
  | operation : RaisedAs i (.operation (.io i))

theorem IoError.RaisedAs.errorClass {i : IoError} {e : WriteError} (h : i.RaisedAs e) :
    e.errorClass = classOf (readsBusy i.message) := by
  cases h with
  | bare | operation => simp only [WriteError.errorClass, Cause.message]
  | connection =>
    have hlabel : readsBusy (ConnectionError.io i).message = readsBusy i.message :=
      readsBusy_labelled (by decide) (by decide) _
    simp only [WriteError.errorClass, ConnectionError.errorClass, hlabel]

/-- The errors that no text and no code makes worth another attempt. -/
inductive WriteError.Final : WriteError → Prop where
  | opening (path : String) (x : SqlError) : Final (.connection (.opening path x))
  | pragma (statement : String) (x : SqlError) : Final (.connection (.pragma statement x))
  | notInitialized : Final (.connection .notInitialized)
  | closed : Final (.connection .closed)
  | exhausted (name : String) (attempts : Nat) (last : WriteError) :
      Final (.exhausted name attempts last)
  | cancelled (name : String) (attempts : Nat) : Final (.cancelled name attempts)

theorem WriteError.Final.errorClass {e : WriteError} (h : e.Final) : e.errorClass = .fatal := by
  cases h <;> simp only [WriteError.errorClass, ConnectionError.errorClass]

/-- What decides whether a write is tried again.  An SQL error has one class however it is raised:
a pool that timed out is transient; a result code is transient if its low byte is one of the two
for locks, and the message has no part in it; without a code the message decides, and for all other
errors the text they show.  So it is for I/O errors.  The rest is final. -/
theorem errorClass_decided :
    (∀ (x : SqlError) e, x.RaisedAs e → e.errorClass = x.errorClass) ∧
      SqlError.poolTimedOut.errorClass = .transient ∧
      (∀ text (c : Int32) message, Spells text c →
        ((SqlError.database (some text) message).errorClass = .transient ↔
          c &&& 0xff = 5 ∨ c &&& 0xff = 6)) ∧
      (∀ (c : Int32) message message',
        (SqlError.database (some (toString c.toInt)) message).errorClass =
          (SqlError.database (some (toString c.toInt)) message').errorClass) ∧
      (∀ code message, (∀ text ∈ code, ∀ c, ¬Spells text c) →
        ((SqlError.database code message).errorClass = .transient ↔ readsBusy message = true)) ∧
      (∀ x : SqlError, x.isDatabase = false → x ≠ .poolTimedOut →
        (x.errorClass = .transient ↔ readsBusy x.message = true)) ∧
      (∀ (i : IoError) e, i.RaisedAs e → e.errorClass = classOf (readsBusy i.message)) ∧
      ∀ e : WriteError, e.Final → e.errorClass = .fatal := by
  refine ⟨fun x e h => h.errorClass, rfl, ?coded, ?decimal, ?uncoded, ?display,
    fun i e h => h.errorClass, fun e h => h.errorClass⟩
  case coded =>
    intro text c message h
    rw [SqlError.errorClass_of_spelled h, classOf_eq_transient_iff, isBusyCode_iff]
  case decimal =>
    intro c message message'
    have hspells := spells_toString c
    rw [SqlError.errorClass_of_spelled hspells, SqlError.errorClass_of_spelled hspells]
  case uncoded =>
    intro code message h
    rw [SqlError.errorClass_of_uncoded h, classOf_eq_transient_iff]
  case display =>
    intro x hdatabase hpool
    rw [SqlError.errorClass_of_display hdatabase hpool, classOf_eq_transient_iff]

/-- A code below zero with the low byte of a busy database, and a constraint on a column whose name
reads busy. -/
theorem errorClass_decided_codes :
    (WriteError.connection (.checkpoint "TRUNCATE"
        (.database (some "-251") "constraint failed"))).errorClass = .transient ∧
      (WriteError.operation (.sql
        (.database (some "+2067") "UNIQUE constraint failed: door.locked"))).errorClass ≠
          .transient := by
  obtain ⟨hraised, -, hcoded, -, -, -, -, -⟩ := errorClass_decided
  have hbusy : Spells "-251" (-251) := spells_toString (-251)
  have hdigits : ∀ d ∈ "2067".toList, d.isDigit := by simp [Char.isDigit]
  have hconstraint : Spells "+2067" 2067 := .plus ⟨by decide, hdigits⟩
  constructor
  · rw [hraised _ _ (.checkpoint "TRUNCATE")]
    exact (hcoded _ _ _ hbusy).mpr (by decide)
  · rw [hraised _ _ .operation]
    exact (hcoded _ _ _ hconstraint).not.mpr (by decide)

end SingleWriter
