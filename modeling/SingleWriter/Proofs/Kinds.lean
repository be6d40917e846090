import SingleWriter.Proofs.Grammar

/-! Values of one kind: which texts spell one, and that the readers take those texts and no others.
A text that is no value of the kind is refused, whatever value it is. -/

namespace SingleWriter.Json

/-- What a place wants, with the words that faults name it by. -/
inductive Kind where
  | text (expected : String)
  | flag
  | natural (bound : Nat) (expected : String)
  | optional (bound : Nat) (expected : String)

namespace Kind

/-- The kind's numbers fit a word. -/
def InWord : Kind → Prop
  | natural bound _ | optional bound _ => bound ≤ maxWord
  | _ => True

def read : Kind → List Char → Reading Value
  | text expected, s => (readText expected s).map fun (t, rest) => (.string t, rest)
  | flag, s => (readBoolean s).map fun (b, rest) => (.boolean b, rest)
  | natural bound expected, s =>
    (readNatural bound expected s).map fun (n, rest) => (.number (.natural n), rest)
  | optional bound expected, s =>
    (readOptional (readNatural bound expected) s).map fun (n, rest) =>
      (n.elim .null fun n => .number (.natural n), rest)

end Kind

/-- A text is a value of a kind. -/
inductive Denotes : Kind → List Char → Value → Prop where
  | text {expected : String} {s t : List Char} (h : Spells s t) :
      Denotes (.text expected) ('"' :: (s ++ ['"'])) (.string (String.ofList t))
  | flag (b : Bool) : Denotes .flag (Value.boolean b).write (.boolean b)
  | natural {bound : Nat} {expected : String} {s : List Char} (h : Whole s)
      (hle : Nat.ofDigitChars 10 s 0 ≤ bound) :
      Denotes (.natural bound expected) s (.number (.natural (Nat.ofDigitChars 10 s 0)))
  | null {bound : Nat} {expected : String} :
      Denotes (.optional bound expected) Value.null.write .null
  | some {bound : Nat} {expected : String} {s : List Char} {x : Value}
      (h : Denotes (.natural bound expected) s x) : Denotes (.optional bound expected) s x

variable {s rest r : List Char}

/-! ### What is of the kind -/

theorem Whole.head (h : Whole s) : ∃ c r, s = c :: r ∧ c.isDigit = true := by
  cases h with
  | zero => exact ⟨'0', [], rfl, rfl⟩
  | digits hc => exact ⟨_, _, rfl, hc⟩

theorem Whole.readNatural (h : Whole s) {bound : Nat} (hle : Nat.ofDigitChars 10 s 0 ≤ bound)
    (hbound : bound ≤ maxWord) (hrest : EndsNumber rest) (expected : String) :
    readNatural bound expected (s ++ rest) = .ok (Nat.ofDigitChars 10 s 0, rest) := by
  have hread := h.readNumber_natural (Nat.le_trans hle hbound) hrest
  obtain ⟨c, r, rfl, hc⟩ := h.head
  rw [List.cons_append] at hread ⊢
  unfold Json.readNatural
  rw [skipBlank_of_not_blank (not_blank_of_isDigit hc)]
  simp [readSigned_of_isDigit hc, hread, hle]

theorem read_skipBlank (k : Kind) (s : List Char) : k.read (skipBlank s) = k.read s := by
  cases k <;>
    simp only [Kind.read, readText, readBoolean, readNatural, readOptional, skipBlank_skipBlank]

/-- What is of the kind is read. -/
theorem Denotes.read {k : Kind} {x : Value} (h : Denotes k s x) (hk : k.InWord)
    (hrest : EndsNumber rest) : k.read (s ++ rest) = .ok (x, rest) := by
  induction h with
  | text h =>
    have hread := h.readString rest
    simp [Kind.read, readText, skipBlank, isBlank, hread, Except.map]
  | flag b => cases b <;> rfl
  | natural h hle => simp [Kind.read, h.readNatural hle hk hrest, Except.map]
  | null => rfl
  | some h =>
    cases h with
    | natural h hle =>
      have hread := h.readNatural hle hk hrest
      obtain ⟨c, r, rfl, hc⟩ := h.head
      have hn : c ≠ 'n' := by
        rintro rfl
        cases hc
      rw [List.cons_append] at hread ⊢
      simp only [Kind.read,
        readOptional_some (skipBlank_of_not_blank (not_blank_of_isDigit hc) _) hn (hread _)]
      rfl

theorem endsNumber_nil : EndsNumber [] := fun _ h => nomatch h

/-- A text denotes one value at most. -/
theorem Denotes.unique {k : Kind} {x y : Value} (hx : Denotes k s x) (hy : Denotes k s y)
    (hk : k.InWord) : x = y := by
  have heq := (hx.read hk endsNumber_nil).symm.trans (hy.read hk endsNumber_nil)
  exact (Prod.mk.inj (Except.ok.inj heq)).1

/-! ### What is not -/

/-- What a value can be, told by its first character. -/
theorem Grammar.shape (h : Grammar .value s) :
    s = Value.null.write ∨ (∃ b, s = (Value.boolean b).write) ∨ Unsigned s ∨
      (∃ t, s = '-' :: t ∧ Unsigned t) ∨ (∃ t, s = '"' :: (t ++ ['"']) ∧ Body t) ∨
      ∃ c t, s = c :: t ∧ (c = '[' ∨ c = '\x7b') := by
  cases h with
  | null => exact .inl rfl
  | boolean b => exact .inr (.inl ⟨b, rfl⟩)
  | unsigned h => exact .inr (.inr (.inl h))
  | negative h => exact .inr (.inr (.inr (.inl ⟨_, rfl, h⟩)))
  | string h => exact .inr (.inr (.inr (.inr (.inl ⟨_, rfl, h⟩))))
  | emptyArray | array => exact .inr (.inr (.inr (.inr (.inr ⟨_, _, rfl, .inl rfl⟩))))
  | object h => cases h <;> exact .inr (.inr (.inr (.inr (.inr ⟨_, _, rfl, .inr rfl⟩))))

theorem Grammar.skipBlank (h : Grammar .value s) (rest : List Char) :
    skipBlank (s ++ rest) = s ++ rest := by
  obtain ⟨c, r, rfl, hc⟩ := h.head
  exact skipBlank_of_not_blank hc.not_blank _

theorem Grammar.denotes_text {expected t : String} (h : Grammar .value s)
    (hread : readText expected (s ++ rest) = .ok (t, r)) :
    Denotes (.text expected) s (.string t) ∧ r = rest := by
  unfold readText at hread
  rw [h.skipBlank] at hread
  rcases h.shape with rfl | ⟨b, rfl⟩ | h | ⟨u, rfl, -⟩ | ⟨u, rfl, hu⟩ | ⟨c, u, rfl, hc⟩
  · cases hread
  · cases b <;> cases hread
  · obtain ⟨c, u, rfl, hc⟩ := h.head
    have hquote : c ≠ '"' := by
      rintro rfl
      cases hc
    simp [hquote] at hread
  · cases hread
  · simp only [List.cons_append, List.append_assoc, List.nil_append, if_true] at hread
    obtain ⟨⟨cs, u⟩, hstring, heq⟩ := map_eq_ok hread
    obtain ⟨rfl, rfl⟩ := Prod.mk.inj heq
    obtain ⟨hspells, hr⟩ := hu.spells hstring
    exact ⟨.text hspells, hr⟩
  · rcases hc with rfl | rfl <;> cases hread

theorem Grammar.denotes_flag {b : Bool} (h : Grammar .value s)
    (hread : readBoolean (s ++ rest) = .ok (b, r)) :
    Denotes .flag s (.boolean b) ∧ r = rest := by
  unfold readBoolean at hread
  rw [h.skipBlank] at hread
  rcases h.shape with rfl | ⟨b, rfl⟩ | h | ⟨u, rfl, -⟩ | ⟨u, rfl, hu⟩ | ⟨c, u, rfl, hc⟩
  · cases hread
  · cases b <;> cases hread <;> exact ⟨.flag _, rfl⟩
  · obtain ⟨c, u, rfl, hc⟩ := h.head
    have htrue : c ≠ 't' := by
      rintro rfl
      cases hc
    have hfalse : c ≠ 'f' := by
      rintro rfl
      cases hc
    simp [htrue, hfalse] at hread
  · cases hread
  · cases hread
  · rcases hc with rfl | rfl <;> cases hread

theorem Grammar.denotes_natural {bound n : Nat} {expected : String} (h : Grammar .value s)
    (hrest : EndsNumber rest) (hread : readNatural bound expected (s ++ rest) = .ok (n, r)) :
    Denotes (.natural bound expected) s (.number (.natural n)) ∧ r = rest := by
  obtain ⟨hle, hsigned⟩ := of_readNatural hread
  rw [h.skipBlank] at hsigned
  rcases h.shape with rfl | ⟨b, rfl⟩ | hu | ⟨u, rfl, hu⟩ | ⟨u, rfl, hu⟩ | ⟨c, u, rfl, hc⟩
  · cases hsigned
  · cases b <;> cases hsigned
  · obtain ⟨c, u, rfl, hc⟩ := hu.head
    rw [List.cons_append, readSigned_of_isDigit hc, ← List.cons_append] at hsigned
    obtain ⟨-, hwhole, rfl, hr⟩ := hu.natural hrest (Option.some.inj hsigned)
    exact ⟨.natural hwhole hle, hr⟩
  · obtain ⟨hpositive, -⟩ := hu.natural hrest (Option.some.inj hsigned)
    cases hpositive
  · cases hsigned
  · rcases hc with rfl | rfl <;> cases hsigned

/-- What is read is of the kind. -/
theorem Grammar.denotes {k : Kind} {x : Value} (h : Grammar .value s) (hrest : EndsNumber rest)
    (hread : k.read (s ++ rest) = .ok (x, r)) : Denotes k s x ∧ r = rest := by
  cases k with
  | text =>
    obtain ⟨⟨t, r⟩, hread, heq⟩ := map_eq_ok hread
    cases heq
    exact h.denotes_text hread
  | flag =>
    obtain ⟨⟨b, r⟩, hread, heq⟩ := map_eq_ok hread
    cases heq
    exact h.denotes_flag hread
  | natural =>
    obtain ⟨⟨n, r⟩, hread, heq⟩ := map_eq_ok hread
    cases heq
    exact h.denotes_natural hrest hread
  | optional bound expected =>
    obtain ⟨⟨n, r⟩, hread, heq⟩ := map_eq_ok hread
    cases heq
    cases n with
    | some n =>
      have hnatural := of_readOptional hread
      rw [h.skipBlank] at hnatural
      obtain ⟨hdenotes, hr⟩ := h.denotes_natural hrest hnatural
      exact ⟨.some hdenotes, hr⟩
    | none =>
      obtain ⟨u, hu, hword⟩ := of_readOptional_none hread
      rw [h.skipBlank] at hu
      rcases h.shape with rfl | ⟨b, rfl⟩ | hnumber | ⟨_, rfl, -⟩ | ⟨_, rfl, -⟩ | ⟨c, _, rfl, hc⟩
      · cases hu
        cases hword
        exact ⟨.null, rfl⟩
      · cases b <;> cases hu
      · obtain ⟨c, _, rfl, hc⟩ := hnumber.head
        cases hu
        cases hc
      · cases hu
      · cases hu
      · rcases hc with rfl | rfl <;> cases hu

end SingleWriter.Json
