import SingleWriter.Json.Lexical

/-! Numbers in JSON texts: their grammar, and what the readers make of them.  Only a whole part
alone, without a sign, is read as a natural number. -/

namespace SingleWriter.Json

/-! ### The grammar -/

/-- At least one digit. -/
structure Digits (ds : List Char) : Prop where
  some : ds ≠ []
  all : ∀ d ∈ ds, d.isDigit = true

theorem Digits.one {c : Char} (h : c.isDigit = true) : Digits [c] :=
  ⟨List.cons_ne_nil _ _, List.forall_mem_singleton.mpr h⟩

/-- The whole part of a number: only zero begins with a zero. -/
inductive Whole : List Char → Prop where
  | zero : Whole ['0']
  | digits {c : Char} {ds : List Char} (hc : c.isDigit = true) (hzero : c ≠ '0')
      (hds : ∀ d ∈ ds, d.isDigit = true) : Whole (c :: ds)

inductive Fraction : List Char → Prop where
  | none : Fraction []
  | digits {ds : List Char} (hds : Digits ds) : Fraction ('.' :: ds)

inductive Exponent : List Char → Prop where
  | none : Exponent []
  | digits {e : Char} {sign ds : List Char} (he : e = 'e' ∨ e = 'E')
      (hsign : sign = [] ∨ sign = ['+'] ∨ sign = ['-']) (hds : Digits ds) :
      Exponent (e :: (sign ++ ds))

/-- A number without its sign. -/
inductive Unsigned : List Char → Prop where
  | parts {whole fraction exponent : List Char} (hwhole : Whole whole)
      (hfraction : Fraction fraction) (hexponent : Exponent exponent) :
      Unsigned (whole ++ (fraction ++ exponent))

/-! ### Runs of digits -/

/-- A number ends before this text. -/
def EndsNumber (rest : List Char) : Prop :=
  ∀ c ∈ rest.head?, c.isDigit = false ∧ c ≠ '.' ∧ c ≠ 'e' ∧ c ≠ 'E'

/-- No digit comes next. -/
def EndsDigits (rest : List Char) : Prop := ∀ c ∈ rest.head?, c.isDigit = false

variable {ds whole fraction exponent rest : List Char}

theorem EndsNumber.endsDigits (h : EndsNumber rest) : EndsDigits rest := fun c hc => (h c hc).1

theorem takeWhile_digits (hds : ∀ d ∈ ds, d.isDigit = true) (hrest : EndsDigits rest) :
    (ds ++ rest).takeWhile Char.isDigit = ds := by
  rw [List.takeWhile_append_of_pos hds]
  cases rest with
  | nil => exact List.append_nil _
  | cons d r => rw [List.takeWhile_cons_of_neg (by simp [hrest d rfl]), List.append_nil]

theorem dropWhile_digits (hds : ∀ d ∈ ds, d.isDigit = true) (hrest : EndsDigits rest) :
    (ds ++ rest).dropWhile Char.isDigit = rest := by
  rw [List.dropWhile_append_of_pos hds]
  cases rest with
  | nil => rfl
  | cons d r => rw [List.dropWhile_cons_of_neg (by simp [hrest d rfl])]

theorem atExponent_of_endsNumber (h : EndsNumber rest) : atExponent rest = false := by
  cases rest with
  | nil => rfl
  | cons c r =>
    obtain ⟨-, -, he, hE⟩ := h c rfl
    simp [atExponent, he, hE]

theorem Exponent.endsDigits (h : Exponent exponent) (hrest : EndsNumber rest) :
    EndsDigits (exponent ++ rest) := by
  cases h with
  | none => exact hrest.endsDigits
  | digits he =>
    intro c hc
    cases hc
    rcases he with rfl | rfl <;> rfl

theorem Fraction.endsDigits (h : Fraction fraction) (he : Exponent exponent)
    (hrest : EndsNumber rest) : EndsDigits (fraction ++ (exponent ++ rest)) := by
  cases h with
  | none => exact he.endsDigits hrest
  | digits =>
    intro c hc
    cases hc
    rfl

/-! ### Passing over -/

theorem skipExponent_digits {sign : List Char} (hsign : sign = [] ∨ sign = ['+'] ∨ sign = ['-'])
    (hds : Digits ds) (hrest : EndsDigits rest) :
    skipExponent (sign ++ (ds ++ rest)) = .ok rest := by
  have hempty : ds.isEmpty = false := List.isEmpty_eq_false_iff.mpr hds.some
  have hplain : ∀ c r, ds ++ rest = c :: r → c ≠ '+' ∧ c ≠ '-' := by
    intro c r hc
    obtain ⟨d, ds, rfl⟩ := List.exists_cons_of_ne_nil hds.some
    cases hc
    have := hds.all c List.mem_cons_self
    constructor <;> rintro rfl <;> cases this
  rcases hsign with rfl | rfl | rfl
  · obtain ⟨c, r, hc⟩ : ∃ c r, ds ++ rest = c :: r := by
      obtain ⟨d, ds, rfl⟩ := List.exists_cons_of_ne_nil hds.some
      exact ⟨d, _, rfl⟩
    have htake := takeWhile_digits hds.all hrest
    have hdrop := dropWhile_digits hds.all hrest
    obtain ⟨hplus, hminus⟩ := hplain c r hc
    rw [hc] at htake hdrop
    simp [hc, skipExponent, hplus, hminus, htake, hdrop, hds.some]
  · simp [skipExponent, takeWhile_digits hds.all hrest, dropWhile_digits hds.all hrest, hempty]
  · simp [skipExponent, takeWhile_digits hds.all hrest, dropWhile_digits hds.all hrest, hempty]

theorem Exponent.skip (h : Exponent exponent) (hrest : EndsNumber rest) :
    (if atExponent (exponent ++ rest) then skipExponent ((exponent ++ rest).drop 1)
      else .ok (exponent ++ rest)) = .ok rest := by
  cases h with
  | none => simp [atExponent_of_endsNumber hrest]
  | @digits e sign ds he hsign hds =>
    have hat : atExponent (e :: (sign ++ ds) ++ rest) = true := by
      rcases he with rfl | rfl <;> rfl
    rw [if_pos hat, List.cons_append, List.drop_one, List.tail_cons, List.append_assoc]
    exact skipExponent_digits hsign hds hrest.endsDigits

theorem Exponent.not_point (h : Exponent exponent) (hrest : EndsNumber rest) (r : List Char) :
    exponent ++ rest ≠ '.' :: r := by
  intro heq
  cases h with
  | none => exact (hrest '.' (by simp_all)).2.1 rfl
  | digits he =>
    have := (List.cons.inj heq).1
    rcases he with rfl | rfl <;> cases this

theorem skipTail_parts (hfraction : Fraction fraction) (hexponent : Exponent exponent)
    (hrest : EndsNumber rest) : skipTail (fraction ++ (exponent ++ rest)) = .ok rest := by
  cases hfraction with
  | none =>
    rw [List.nil_append, skipTail]
    · exact hexponent.skip hrest
    · exact hexponent.not_point hrest
  | digits hds =>
    have hends := hexponent.endsDigits hrest
    rw [List.cons_append, skipTail]
    simp only [takeWhile_digits hds.all hends, dropWhile_digits hds.all hends,
      List.isEmpty_eq_false_iff.mpr hds.some, Bool.false_eq_true, if_false]
    exact hexponent.skip hrest

theorem Unsigned.skipNumber {s : List Char} (h : Unsigned s) (hrest : EndsNumber rest) :
    skipNumber (s ++ rest) = .ok rest := by
  cases h with
  | @parts whole fraction exponent hwhole hfraction hexponent =>
    have hends := hfraction.endsDigits hexponent hrest
    have htail := skipTail_parts hfraction hexponent hrest
    rw [List.append_assoc, List.append_assoc]
    cases hwhole with
    | zero =>
      show Json.skipNumber ('0' :: (fraction ++ (exponent ++ rest))) = _
      cases hr : fraction ++ (exponent ++ rest) with
      | nil =>
        rw [hr] at htail
        cases htail
        rfl
      | cons d r =>
        rw [hr] at hends htail
        simp [Json.skipNumber, hends d rfl, htail]
    | digits hc hzero hds =>
      simp only [List.cons_append, Json.skipNumber, hzero, hc, if_true, if_false,
        dropWhile_digits hds hends, htail]

/-! ### Reading -/

theorem le_ofDigitChars (acc : Nat) (ds : List Char) : acc ≤ Nat.ofDigitChars 10 ds acc := by
  induction ds generalizing acc with
  | nil => exact Nat.le_refl acc
  | cons c ds ih =>
    rw [Nat.ofDigitChars_cons]
    have := ih (10 * acc + (c.toNat - '0'.toNat))
    omega

/-- A word takes all digits of a number that it holds. -/
theorem fillWord_of_le {acc : Nat} (h : Nat.ofDigitChars 10 ds acc ≤ maxWord) :
    fillWord acc ds = (Nat.ofDigitChars 10 ds acc, []) := by
  induction ds generalizing acc with
  | nil => rfl
  | cons c ds ih =>
    rw [Nat.ofDigitChars_cons, Nat.mul_comm] at h ⊢
    have hnext := Nat.le_trans (le_ofDigitChars _ ds) h
    simp only [fillWord, if_pos hnext, ih h]

theorem fillWord_all {acc : Nat} (h : (fillWord acc ds).2 = []) :
    (fillWord acc ds).1 = Nat.ofDigitChars 10 ds acc := by
  induction ds generalizing acc with
  | nil => rfl
  | cons c ds ih =>
    simp only [fillWord] at h ⊢
    split
    · rename_i hnext
      rw [if_pos hnext] at h
      rw [ih h, Nat.ofDigitChars_cons, Nat.mul_comm]
    · rename_i hnext
      rw [if_neg hnext] at h
      cases h

/-- The rest of a number after the whole part, of which a word took some digits and not others. -/
def readTail (positive : Bool) (filled : Nat × List Char) : List Char → Reading Number
  | '.' :: r => readFraction positive filled.1 filled.2.length r
  | rest =>
    if atExponent rest then readExponent positive filled.1 filled.2.length (rest.drop 1)
    else if filled.2.isEmpty then .ok (Json.whole positive filled.1, rest)
    else (real positive filled.1 filled.2.length).map (·, rest)

theorem Whole.readNumber (h : Whole whole) (positive : Bool) (hrest : EndsDigits rest) :
    readNumber positive (whole ++ rest) = readTail positive (fillWord 0 whole) rest := by
  obtain ⟨c, ds, rfl, hc, hdigits⟩ : ∃ c ds, whole = c :: ds ∧ c.isDigit = true ∧
      (if c = '0' then ['0'] else (whole ++ rest).takeWhile Char.isDigit) = whole := by
    cases h with
    | zero => exact ⟨'0', [], rfl, rfl, rfl⟩
    | @digits c ds hc hzero hds =>
      refine ⟨c, ds, rfl, hc, ?_⟩
      rw [if_neg hzero, takeWhile_digits (List.forall_mem_cons.mpr ⟨hc, hds⟩) hrest]
  have hdrop : (c :: ds ++ rest).drop (c :: ds).length = rest := List.drop_left
  rw [List.cons_append] at hdigits hdrop ⊢
  simp only [Json.readNumber, hc, hdigits, hdrop, Bool.not_true, Bool.false_eq_true, if_false]
  unfold readTail
  cases rest with
  | nil => rfl
  | cons d r =>
    by_cases hpoint : d = '.'
    · subst hpoint
      rfl
    · simp [hpoint, hrest d rfl]

theorem Whole.readNumber_natural (h : Whole whole) (hle : Nat.ofDigitChars 10 whole 0 ≤ maxWord)
    (hrest : EndsNumber rest) :
    Json.readNumber true (whole ++ rest) = .ok (.natural (Nat.ofDigitChars 10 whole 0), rest) := by
  rw [h.readNumber true hrest.endsDigits]
  unfold readTail
  split
  · exact absurd rfl (hrest '.' rfl).2.1
  · simp [atExponent_of_endsNumber hrest, fillWord_of_le hle, Json.whole]

theorem real_ne_natural {positive : Bool} {word : Nat} {e : Int} {k : Nat} :
    real positive word e ≠ .ok (.natural k) := by
  unfold real
  split
  · exact fun h => nomatch Except.ok.inj h
  · exact fun h => nomatch h

theorem map_real_ne_natural {positive : Bool} {word : Nat} {e : Int} {k : Nat} {r r' : List Char} :
    (real positive word e).map (·, r) ≠ .ok (.natural k, r') := by
  intro h
  cases hreal : real positive word e with
  | error fault =>
    rw [hreal] at h
    cases h
  | ok n =>
    rw [hreal] at h
    cases h
    exact real_ne_natural hreal

theorem readExponent_ne_natural {positive : Bool} {word : Nat} {start : Int} {s r : List Char}
    {k : Nat} : readExponent positive word start s ≠ .ok (.natural k, r) := by
  unfold readExponent
  split
  rename_i up s' _
  split
  · exact fun h => nomatch h
  · split
    · exact fun h => nomatch h
    · dsimp only
      split
      · split
        · exact fun h => nomatch h
        · exact fun h => nomatch h
      · exact map_real_ne_natural

theorem readFraction_ne_natural {positive : Bool} {word : Nat} {start : Int} {s r : List Char}
    {k : Nat} : readFraction positive word start s ≠ .ok (.natural k, r) := by
  unfold readFraction
  dsimp only
  split
  · split
    · exact fun h => nomatch h
    · exact fun h => nomatch h
  · split
    · exact readExponent_ne_natural
    · exact map_real_ne_natural

/-- A number that is read as a natural number has no sign and is a whole part alone. -/
theorem Unsigned.natural {s r : List Char} {positive : Bool} {k : Nat} (h : Unsigned s)
    (hrest : EndsNumber rest) (hread : readNumber positive (s ++ rest) = .ok (.natural k, r)) :
    positive = true ∧ Whole s ∧ k = Nat.ofDigitChars 10 s 0 ∧ r = rest := by
  cases h with
  | @parts whole fraction exponent hwhole hfraction hexponent =>
    rw [List.append_assoc, List.append_assoc,
      hwhole.readNumber positive (hfraction.endsDigits hexponent hrest)] at hread
    cases hfraction with
    | digits => exact absurd hread readFraction_ne_natural
    | none =>
      rw [List.nil_append] at hread
      unfold readTail at hread
      split at hread
      · rename_i heq
        exact absurd heq (hexponent.not_point hrest _)
      · split at hread
        · exact absurd hread readExponent_ne_natural
        · rename_i hat
          cases hexponent with
          | digits he =>
            rcases he with rfl | rfl <;> exact absurd rfl hat
          | none =>
            split at hread
            · rename_i hempty
              obtain ⟨hnumber, hr⟩ := Prod.mk.inj (Except.ok.inj hread)
              rw [fillWord_all (List.isEmpty_iff.mp hempty)] at hnumber
              simp only [List.append_nil]
              cases positive with
              | true =>
                cases hnumber
                exact ⟨rfl, hwhole, rfl, hr.symm⟩
              | false =>
                unfold Json.whole at hnumber
                split at hnumber
                · contradiction
                · split at hnumber <;> cases hnumber
            · exact absurd hread map_real_ne_natural

end SingleWriter.Json
