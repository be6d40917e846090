import SingleWriter.Json.Typed
import SingleWriter.Proofs.Numerals

/-! What is written is read back: strings, whole numbers and words, each with any text after it that
cannot belong to it. -/

namespace SingleWriter.Json

/-! ### Strings -/

theorem readString_plainEscape {c d : Char} (h : plainEscape? c = some d) (rest : List Char) :
    readString ('\\' :: c :: rest) = push d (readString rest) := by
  have hu : c ≠ 'u' := by
    rintro rfl
    cases h
  rw [readString, h]
  exact hu

/-- Four digits of a character that is no surrogate. -/
theorem readString_hexEscape {rest : List Char} {n : Nat} (h : hexEscape rest = .ok n)
    (hleading : isLeading n = false) (htrailing : isTrailing n = false) :
    readString ('\\' :: 'u' :: rest) = push (Char.ofNat n) (readString (rest.drop 4)) := by
  rw [readString, h]
  simp [hleading, htrailing]

theorem readString_self {c : Char} (hquote : c ≠ '"') (hslash : c ≠ '\\') (hplain : 0x20 ≤ c.toNat)
    (rest : List Char) : readString (c :: rest) = push c (readString rest) := by
  rw [readString, if_neg (Nat.not_lt.mpr hplain)]
  · exact hquote
  · exact fun h => absurd h hslash
  · exact fun _ h => absurd h hslash
  · exact fun _ _ h => absurd h hslash

theorem hexDigit?_digitChar {k : Nat} (h : k < 16) : hexDigit? (Nat.digitChar k) = some k := by
  revert k
  decide

theorem utf8Size_digitChar {k : Nat} (h : k < 16) : (Nat.digitChar k).utf8Size = 1 := by
  revert k
  decide

theorem hexEscape_controlEscape {n : Nat} (h : n < 256) (rest : List Char) :
    hexEscape (controlEscape n ++ rest) = .ok n := by
  have hhigh : n / 16 < 16 := by omega
  have hlow : n % 16 < 16 := by omega
  have hsize : byteCount ((controlEscape n ++ rest).take 4) = 4 := by
    simp only [controlEscape, List.cons_append, List.nil_append, List.take_succ_cons,
      List.take_zero, byteCount, List.foldl_cons, List.foldl_nil, utf8Size_digitChar hhigh,
      utf8Size_digitChar hlow]
    rfl
  have hzero : hexDigit? '0' = some 0 := rfl
  unfold hexEscape
  rw [hsize, if_neg (by decide)]
  simp only [controlEscape, List.cons_append, hzero, hexDigit?_digitChar hhigh,
    hexDigit?_digitChar hlow, Except.ok.injEq]
  omega

/-- A character has a short escape, or it is a control with a long one, or it stands for itself. -/
theorem escapeChar_cases (c : Char) :
    (∃ d, escapeChar c = ['\\', d] ∧ plainEscape? d = some c) ∨
      c.toNat < 0x20 ∧ escapeChar c = '\\' :: 'u' :: controlEscape c.toNat ∨
      c ≠ '"' ∧ c ≠ '\\' ∧ 0x20 ≤ c.toNat ∧ escapeChar c = [c] := by
  by_cases h : c ∈ ['"', '\\', '\x08', '\x0c', '\n', '\r', '\t']
  · simp only [List.mem_cons, List.not_mem_nil, or_false] at h
    rcases h with rfl | rfl | rfl | rfl | rfl | rfl | rfl <;> exact .inl ⟨_, rfl, rfl⟩
  · simp only [List.mem_cons, List.not_mem_nil, or_false, not_or] at h
    obtain ⟨hquote, hslash, hb, hf, hn, hr, ht⟩ := h
    simp only [escapeChar, hquote, hslash, hb, hf, hn, hr, ht, if_false]
    by_cases hcontrol : c.toNat < 0x20
    · exact .inr (.inl ⟨hcontrol, if_pos hcontrol⟩)
    · exact .inr (.inr ⟨hquote, hslash, Nat.not_lt.mp hcontrol, if_neg hcontrol⟩)

theorem readString_escapeChar (c : Char) (rest : List Char) :
    readString (escapeChar c ++ rest) = push c (readString rest) := by
  rcases escapeChar_cases c with ⟨d, he, hd⟩ | ⟨hcontrol, he⟩ | ⟨hquote, hslash, hplain, he⟩ <;>
    rw [he]
  · exact readString_plainEscape hd rest
  · have hleading : isLeading c.toNat = false := by
      simp only [isLeading, Bool.and_eq_false_imp, decide_eq_true_eq, decide_eq_false_iff_not]
      omega
    have htrailing : isTrailing c.toNat = false := by
      simp only [isTrailing, Bool.and_eq_false_imp, decide_eq_true_eq, decide_eq_false_iff_not]
      omega
    have hescape := hexEscape_controlEscape (n := c.toNat) (by omega) rest
    rw [List.cons_append, List.cons_append, readString_hexEscape hescape hleading htrailing,
      Char.ofNat_toNat]
    rfl
  · exact readString_self hquote hslash hplain rest

theorem readString_written (s rest : List Char) :
    readString (s.flatMap escapeChar ++ '"' :: rest) = .ok (s, rest) := by
  induction s with
  | nil => simp [readString]
  | cons c s ih =>
    rw [List.flatMap_cons, List.append_assoc, readString_escapeChar, ih, push]

/-! ### Numbers -/

/-- Only zero begins with a zero. -/
theorem toDigits_eq_cons (n : Nat) :
    ∃ c cs, Nat.toDigits 10 n = c :: cs ∧ (c = '0' → n = 0 ∧ cs = []) := by
  induction n using Nat.strongRecOn with
  | ind n ih =>
    by_cases hlt : n < 10
    · refine ⟨_, [], Nat.toDigits_of_lt_base hlt, fun hzero => ⟨?_, rfl⟩⟩
      exact Nat.digitChar_eq_zero.mp hzero
    · obtain ⟨c, cs, hdigits, hzero⟩ := ih (n / 10) (by omega)
      rw [Nat.toDigits_of_base_le (by decide) (Nat.not_lt.mp hlt), hdigits]
      refine ⟨c, _, List.cons_append, fun hc => ?_⟩
      have := (hzero hc).1
      omega

theorem whole_toDigits (n : Nat) : Whole (Nat.toDigits 10 n) := by
  obtain ⟨c, cs, hdigits, hzero⟩ := toDigits_eq_cons n
  have hall : ∀ d ∈ c :: cs, d.isDigit = true := fun d hd =>
    Nat.isDigit_of_mem_toDigits (by decide) (by decide) (hdigits ▸ hd)
  rw [hdigits]
  by_cases hc : c = '0'
  · rw [hc, (hzero hc).2]
    exact .zero
  · exact .digits (hall c List.mem_cons_self) hc fun d hd => hall d (List.mem_cons_of_mem c hd)

theorem readNumber_toDigits {n : Nat} (h : n ≤ maxWord) {rest : List Char}
    (hrest : EndsNumber rest) :
    readNumber true (Nat.toDigits 10 n ++ rest) = .ok (.natural n, rest) := by
  have hvalue : Nat.ofDigitChars 10 (Nat.toDigits 10 n) 0 = n :=
    Nat.ofDigitChars_toDigits (by decide) (by decide)
  have hread := (whole_toDigits n).readNumber_natural (hvalue.symm ▸ h) hrest
  rwa [hvalue] at hread

/-! ### Values in their places -/

theorem skipBlank_of_not_blank {c : Char} (h : isBlank c = false) (r : List Char) :
    skipBlank (c :: r) = c :: r := List.dropWhile_cons_of_neg (by simp [h])

theorem not_blank_of_isDigit {c : Char} (h : c.isDigit = true) : isBlank c = false := by
  simp only [isBlank, Bool.or_eq_false_iff, beq_eq_false_iff_ne]
  refine ⟨⟨⟨?_, ?_⟩, ?_⟩, ?_⟩ <;> rintro rfl <;> cases h

theorem readSigned_of_isDigit {c : Char} (h : c.isDigit = true) (r : List Char) :
    readSigned (c :: r) = some (readNumber true (c :: r)) := by
  have hsign : c ≠ '-' := by
    rintro rfl
    cases h
  simp [readSigned, h]

theorem writeNatural (n : Nat) : writeNumber (.natural n) = Nat.toDigits 10 n := by
  rw [writeNumber, Nat.toString_eq_repr, Nat.toList_repr]

theorem writeNatural_eq_cons (n : Nat) :
    ∃ c cs, writeNumber (.natural n) = c :: cs ∧ c.isDigit = true := by
  obtain ⟨c, cs, hdigits, -⟩ := toDigits_eq_cons n
  refine ⟨c, cs, (writeNatural n).trans hdigits, ?_⟩
  exact Nat.isDigit_of_mem_toDigits (by decide) (by decide) (hdigits ▸ List.mem_cons_self)

theorem skipBlank_natural (n : Nat) (rest : List Char) :
    skipBlank (writeNumber (.natural n) ++ rest) = writeNumber (.natural n) ++ rest := by
  obtain ⟨c, cs, hwrite, hdigit⟩ := writeNatural_eq_cons n
  rw [hwrite]
  exact skipBlank_of_not_blank (not_blank_of_isDigit hdigit) _

theorem skipBlank_boolean (b : Bool) (rest : List Char) :
    skipBlank ((Value.boolean b).write ++ rest) = (Value.boolean b).write ++ rest := by
  cases b <;> rfl

variable {s rest : List Char}

theorem readNatural_written {n bound : Nat} (hs : skipBlank s = writeNumber (.natural n) ++ rest)
    (hn : n ≤ bound) (hbound : bound ≤ maxWord) (hrest : EndsNumber rest) (expected : String) :
    readNatural bound expected s = .ok (n, rest) := by
  have hread := readNumber_toDigits (Nat.le_trans hn hbound) hrest
  obtain ⟨c, cs, hwrite, hdigit⟩ := writeNatural_eq_cons n
  rw [← writeNatural, hwrite, List.cons_append] at hread
  rw [hwrite, List.cons_append] at hs
  unfold readNatural
  rw [hs]
  simp [readSigned_of_isDigit hdigit, hread, hn]

theorem readBoolean_written {b : Bool} (hs : skipBlank s = (Value.boolean b).write ++ rest) :
    readBoolean s = .ok (b, rest) := by
  unfold readBoolean
  rw [hs]
  cases b <;> rfl

theorem readText_written {text : String} (hs : skipBlank s = writeString text ++ rest)
    (expected : String) : readText expected s = .ok (text, rest) := by
  unfold readText
  rw [hs, writeString]
  have hread := readString_written text.toList rest
  simp only [List.cons_append, List.append_assoc, List.nil_append, if_true, hread, Except.map,
    String.ofList_toList]

theorem readOptional_null {reader : List Char → Reading α}
    (hs : skipBlank s = Value.null.write ++ rest) : readOptional reader s = .ok (none, rest) := by
  unfold readOptional
  rw [hs]
  rfl

theorem readOptional_some {reader : List Char → Reading α} {a : α} {c : Char} {r : List Char}
    (hs : skipBlank s = c :: r) (hc : c ≠ 'n') (hread : reader (c :: r) = .ok (a, rest)) :
    readOptional reader s = .ok (some a, rest) := by
  unfold readOptional
  rw [hs]
  simp [hc, hread, Except.map]

theorem readOptional_natural {n bound : Nat} (hs : skipBlank s = writeNumber (.natural n) ++ rest)
    (hn : n ≤ bound) (hbound : bound ≤ maxWord) (hrest : EndsNumber rest) (expected : String) :
    readOptional (readNatural bound expected) s = .ok (some n, rest) := by
  have hread := readNatural_written (skipBlank_natural n rest) hn hbound hrest expected
  obtain ⟨c, cs, hwrite, hdigit⟩ := writeNatural_eq_cons n
  rw [hwrite] at hs hread
  refine readOptional_some hs ?_ hread
  rintro rfl
  cases hdigit

/-! ### What was read -/

theorem map_eq_ok {α β : Type} {x : Except Fault α} {f : α → β} {b : β} (h : x.map f = .ok b) :
    ∃ a, x = .ok a ∧ f a = b := by
  cases x with
  | error e => cases h
  | ok a => exact ⟨a, rfl, Except.ok.inj h⟩

theorem of_readNatural {n bound : Nat} {expected : String}
    (h : readNatural bound expected s = .ok (n, rest)) :
    n ≤ bound ∧ readSigned (skipBlank s) = some (.ok (.natural n, rest)) := by
  unfold readNatural at h
  split at h
  · cases h
  · split at h
    · cases h
    · cases h
    · rename_i hsigned
      split at h
      · split at h
        · cases h
          exact ⟨by assumption, hsigned⟩
        · cases h
      · cases h
      · cases h

theorem readNatural_le {n bound : Nat} {expected : String}
    (h : readNatural bound expected s = .ok (n, rest)) : n ≤ bound := (of_readNatural h).1

theorem of_readOptional {α : Type} {reader : List Char → Reading α} {a : α}
    (h : readOptional reader s = .ok (some a, rest)) : reader (skipBlank s) = .ok (a, rest) := by
  unfold readOptional at h
  split at h
  · obtain ⟨_, -, hnone⟩ := map_eq_ok h
    cases hnone
  · obtain ⟨_, hread, heq⟩ := map_eq_ok h
    cases heq
    exact hread

theorem of_readOptional_none {α : Type} {reader : List Char → Reading α}
    (h : readOptional reader s = .ok (none, rest)) :
    ∃ r, skipBlank s = 'n' :: r ∧ readWord "ull".toList r = .ok rest := by
  unfold readOptional at h
  split at h
  · rename_i hs
    obtain ⟨_, hword, heq⟩ := map_eq_ok h
    cases heq
    exact ⟨_, hs, hword⟩
  · obtain ⟨_, -, heq⟩ := map_eq_ok h
    cases heq

end SingleWriter.Json
