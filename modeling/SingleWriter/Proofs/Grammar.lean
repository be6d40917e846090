import Mathlib.Data.List.DropRight
import SingleWriter.Proofs.Spelling

/-! The grammar of JSON texts, stated apart from the readers: how a string, a number, an array and
an object may be spelled, and which characters a string spells.  A value that is passed over is
passed over whole, however deep it is. -/

namespace SingleWriter.Json

/-! ### Strings -/

/-- Four hexadecimal digits and their number. -/
inductive Quad : List Char → Nat → Prop where
  | digits {a b c d : Char} {i j k l : Nat} (ha : hexDigit? a = some i) (hb : hexDigit? b = some j)
      (hc : hexDigit? c = some k) (hd : hexDigit? d = some l) :
      Quad [a, b, c, d] (((i * 16 + j) * 16 + k) * 16 + l)

/-- What may stand between the quotes of a string. -/
inductive Body : List Char → Prop where
  | nil : Body []
  | plain {c : Char} {s : List Char} (hquote : c ≠ '"') (hslash : c ≠ '\\')
      (hplain : 0x20 ≤ c.toNat) (hs : Body s) : Body (c :: s)
  | short {c d : Char} {s : List Char} (hescape : plainEscape? c = some d) (hs : Body s) :
      Body ('\\' :: c :: s)
  | long {q : List Char} {n : Nat} {s : List Char} (hquad : Quad q n) (hs : Body s) :
      Body ('\\' :: 'u' :: (q ++ s))

/-- A string with the body `s` spells the characters `t`.  Surrogates spell a character in pairs
only. -/
inductive Spells : List Char → List Char → Prop where
  | nil : Spells [] []
  | plain {c : Char} {s t : List Char} (hquote : c ≠ '"') (hslash : c ≠ '\\')
      (hplain : 0x20 ≤ c.toNat) (hs : Spells s t) : Spells (c :: s) (c :: t)
  | short {c d : Char} {s t : List Char} (hescape : plainEscape? c = some d) (hs : Spells s t) :
      Spells ('\\' :: c :: s) (d :: t)
  | long {q : List Char} {n : Nat} {s t : List Char} (hquad : Quad q n)
      (hleading : isLeading n = false) (htrailing : isTrailing n = false) (hs : Spells s t) :
      Spells ('\\' :: 'u' :: (q ++ s)) (Char.ofNat n :: t)
  | pair {q q' : List Char} {n m : Nat} {s t : List Char} (hquad : Quad q n)
      (hleading : isLeading n = true) (hquad' : Quad q' m) (htrailing : isTrailing m = true)
      (hs : Spells s t) :
      Spells ('\\' :: 'u' :: (q ++ '\\' :: 'u' :: (q' ++ s))) (combine n m :: t)

theorem utf8Size_of_hexDigit {c : Char} {n : Nat} (h : hexDigit? c = some n) : c.utf8Size = 1 := by
  have hle : c.toNat ≤ 127 := by
    unfold hexDigit? at h
    split at h
    · rename_i hdigit
      exact Nat.le_trans (Char.isDigit_iff_toNat.mp hdigit).2 (by decide)
    · split at h
      · rename_i hlower
        have : c.toNat ≤ 'f'.toNat := hlower.2
        exact Nat.le_trans this (by decide)
      · split at h
        · rename_i hupper
          have : c.toNat ≤ 'F'.toNat := hupper.2
          exact Nat.le_trans this (by decide)
        · cases h
  exact Char.utf8Size_eq_one_iff.mpr hle

variable {q s t rest : List Char} {n : Nat}

theorem Quad.drop (h : Quad q n) (rest : List Char) : (q ++ rest).drop 4 = rest := by
  cases h
  rfl

theorem Quad.hexEscape (h : Quad q n) (rest : List Char) : hexEscape (q ++ rest) = .ok n := by
  cases h with
  | digits ha hb hc hd =>
    unfold Json.hexEscape
    simp only [List.cons_append, List.nil_append, List.take_succ_cons, List.take_zero, byteCount,
      List.foldl_cons, List.foldl_nil, utf8Size_of_hexDigit ha, utf8Size_of_hexDigit hb,
      utf8Size_of_hexDigit hc, utf8Size_of_hexDigit hd, ha, hb, hc, hd]
    rfl

theorem Body.skipString (h : Body s) (rest : List Char) :
    skipString (s ++ '"' :: rest) = .ok rest := by
  induction h with
  | nil => simp [Json.skipString]
  | plain hquote hslash hplain _ ih =>
    rw [List.cons_append, Json.skipString, if_neg (Nat.not_lt.mpr hplain), ih]
    · exact hquote
    · exact fun h => absurd h hslash
    · exact fun _ h => absurd h hslash
    · exact fun _ _ h => absurd h hslash
  | @short c _ _ hescape _ ih =>
    have hu : c ≠ 'u' := by
      rintro rfl
      cases hescape
    rw [List.cons_append, List.cons_append, Json.skipString, hescape]
    · exact ih
    · exact hu
  | long hquad _ ih =>
    rw [List.cons_append, List.cons_append, List.append_assoc, Json.skipString, hquad.hexEscape]
    simp only [hquad.drop, ih]

/-- A leading surrogate and the trailing one after it. -/
theorem readString_pair {q' : List Char} {m : Nat} (hquad : Quad q n)
    (hleading : isLeading n = true) (hquad' : Quad q' m) (htrailing : isTrailing m = true)
    (rest : List Char) :
    readString ('\\' :: 'u' :: (q ++ '\\' :: 'u' :: (q' ++ rest))) =
      push (combine n m) (readString rest) := by
  have hnot : isTrailing n = false := by
    simp only [isLeading, isTrailing, Bool.and_eq_true, decide_eq_true_eq, Bool.and_eq_false_imp,
      decide_eq_false_iff_not] at hleading ⊢
    omega
  rw [readString, hquad.hexEscape]
  simp only [hnot, hleading, Bool.false_eq_true, if_false, if_true]
  split
  · rename_i hrest
    rw [hquad.drop] at hrest
    cases hrest
  · rename_i hrest
    rw [hquad.drop] at hrest
    cases hrest
  · rename_i hrest
    rw [hquad.drop] at hrest
    cases hrest
    rw [hquad'.hexEscape]
    simp only [htrailing, if_true, hquad'.drop]
  · rename_i hother
    exact absurd (hquad.drop _) (hother _)

theorem Spells.readString (h : Spells s t) (rest : List Char) :
    readString (s ++ '"' :: rest) = .ok (t, rest) := by
  induction h with
  | nil => simp [Json.readString]
  | plain hquote hslash hplain _ ih =>
    rw [List.cons_append, readString_self hquote hslash hplain, ih, push]
  | short hescape _ ih =>
    rw [List.cons_append, List.cons_append, readString_plainEscape hescape, ih, push]
  | long hquad hleading htrailing _ ih =>
    rw [List.cons_append, List.cons_append, List.append_assoc,
      readString_hexEscape (hquad.hexEscape _) hleading htrailing, hquad.drop, ih, push]
  | pair hquad hleading hquad' htrailing _ ih =>
    simp only [List.cons_append, List.append_assoc]
    rw [readString_pair hquad hleading hquad' htrailing, ih, push]

/-- Characters that need no escape spell themselves. -/
theorem Spells.self (h : (s.all fun c => c ≠ '"' ∧ c ≠ '\\' ∧ 0x20 ≤ c.toNat) = true) :
    Spells s s := by
  induction s with
  | nil => exact .nil
  | cons c s ih =>
    rw [List.all_cons, Bool.and_eq_true, decide_eq_true_eq] at h
    obtain ⟨⟨hquote, hslash, hplain⟩, hs⟩ := h
    exact .plain hquote hslash hplain (ih hs)

theorem Spells.body (h : Spells s t) : Body s := by
  induction h with
  | nil => exact .nil
  | plain hquote hslash hplain _ ih => exact .plain hquote hslash hplain ih
  | short hescape _ ih => exact .short hescape ih
  | long hquad _ _ _ ih => exact .long hquad ih
  | pair hquad _ hquad' _ _ ih => exact .long hquad (.long hquad' ih)

theorem push_eq_ok {c : Char} {x : Reading (List Char)} {r : List Char}
    (h : push c x = .ok (t, r)) : ∃ t', t = c :: t' ∧ x = .ok (t', r) := by
  cases x with
  | error e => cases h
  | ok x =>
    cases h
    exact ⟨_, rfl, rfl⟩

/-- What is read after a leading surrogate that is no pair is a fault. -/
theorem readString_leading (hquad : Quad q n) (hleading : isLeading n = true) {u : List Char}
    {out : List Char × List Char} (hread : Json.readString ('\\' :: 'u' :: (q ++ u)) = .ok out) :
    ∃ r m, u = '\\' :: 'u' :: r ∧ hexEscape r = .ok m ∧ isTrailing m = true := by
  have hnot : isTrailing n = false := by
    simp only [isLeading, isTrailing, Bool.and_eq_true, decide_eq_true_eq, Bool.and_eq_false_imp,
      decide_eq_false_iff_not] at hleading ⊢
    omega
  rw [Json.readString, hquad.hexEscape] at hread
  simp only [hnot, hleading, Bool.false_eq_true, if_false, if_true] at hread
  split at hread
  · cases hread
  · cases hread
  · rename_i r hrest
    rw [hquad.drop] at hrest
    split at hread
    · cases hread
    · rename_i m hescape
      split at hread
      · rename_i htrailing
        exact ⟨r, m, hrest, hescape, htrailing⟩
      · cases hread
  · cases hread

theorem readString_trailing (hquad : Quad q n) (htrailing : isTrailing n = true) (u : List Char) :
    Json.readString ('\\' :: 'u' :: (q ++ u)) = .error (.breach .loneSurrogate) := by
  rw [Json.readString, hquad.hexEscape]
  simp only [htrailing, if_true]

/-- A string that is read is read to its closing quote, and it spells what was read. -/
theorem Body.spells (h : Body s) {rest r t : List Char}
    (hread : Json.readString (s ++ '"' :: rest) = .ok (t, r)) : Spells s t ∧ r = rest := by
  induction hlength : s.length using Nat.strongRecOn generalizing s t with
  | ind length ih =>
    subst hlength
    cases h with
    | nil =>
      rw [List.nil_append, Json.readString] at hread
      cases hread
      exact ⟨.nil, rfl⟩
    | plain hquote hslash hplain hs =>
      rw [List.cons_append, readString_self hquote hslash hplain] at hread
      obtain ⟨t, rfl, htail⟩ := push_eq_ok hread
      obtain ⟨hspells, hr⟩ := ih _ (by simp) hs htail rfl
      exact ⟨.plain hquote hslash hplain hspells, hr⟩
    | short hescape hs =>
      rw [List.cons_append, List.cons_append, readString_plainEscape hescape] at hread
      obtain ⟨t, rfl, htail⟩ := push_eq_ok hread
      obtain ⟨hspells, hr⟩ := ih _ (by simp only [List.length_cons]; omega) hs htail rfl
      exact ⟨.short hescape hspells, hr⟩
    | @long q n s hquad hs =>
      rw [List.cons_append, List.cons_append, List.append_assoc] at hread
      cases htrailing : isTrailing n with
      | true =>
        rw [readString_trailing hquad htrailing] at hread
        cases hread
      | false =>
        cases hleading : isLeading n with
        | false =>
          rw [readString_hexEscape (hquad.hexEscape _) hleading htrailing, hquad.drop] at hread
          obtain ⟨t, rfl, htail⟩ := push_eq_ok hread
          obtain ⟨hspells, hr⟩ := ih _ (by simp; omega) hs htail rfl
          exact ⟨.long hquad hleading htrailing hspells, hr⟩
        | true =>
          -- Only another long escape can follow, and it is read with the first.
          obtain ⟨u, m, hu, hescape, hm⟩ := readString_leading hquad hleading hread
          cases hs with
          | nil => cases hu
          | plain _ hslash => exact absurd (List.cons.inj hu).1 hslash
          | short hplain =>
            cases (List.cons.inj (List.cons.inj hu).2).1
            cases hplain
          | @long q' m' s hquad' hs =>
            rw [List.cons_append, List.cons_append, List.append_assoc] at hu hread
            cases hu
            rw [hquad'.hexEscape] at hescape
            cases hescape
            rw [readString_pair hquad hleading hquad' hm] at hread
            obtain ⟨t, rfl, htail⟩ := push_eq_ok hread
            obtain ⟨hspells, hr⟩ := ih _ (by simp; omega) hs htail rfl
            exact ⟨.pair hquad hleading hquad' hm hspells, hr⟩

/-- A string spells one text at most. -/
theorem Spells.unique {t' : List Char} (h : Spells s t) (h' : Spells s t') : t = t' := by
  have heq := (h.readString []).symm.trans (h'.readString [])
  exact (Prod.mk.inj (Except.ok.inj heq)).1

/-! ### Values -/

def Blank (s : List Char) : Prop := ∀ c ∈ s, isBlank c = true

/-- What comes before the value of a member with the key `k`. -/
inductive Lead : List Char → List Char → Prop where
  | parts {b k b' b'' : List Char} (hb : Blank b) (hk : Body k) (hb' : Blank b')
      (hb'' : Blank b'') : Lead k (b ++ '"' :: (k ++ '"' :: (b' ++ ':' :: b'')))

theorem Blank.nil : Blank [] := fun _ h => nomatch h

/-- A key without blanks around it. -/
theorem Lead.tight {k : List Char} (hk : Body k) : Lead k ('"' :: (k ++ ['"', ':'])) :=
  @Lead.parts [] k [] [] .nil hk .nil .nil

/-- The parts of a value: elements and members stand between their brackets, at least one of them.
Members come with the bodies of their keys and with their values. -/
inductive Part where
  | value
  | elements
  | members (ms : List (List Char × List Char))
  | object (ms : List (List Char × List Char))

inductive Grammar : Part → List Char → Prop where
  | null : Grammar .value Value.null.write
  | boolean (b : Bool) : Grammar .value (Value.boolean b).write
  | unsigned {s : List Char} (h : Unsigned s) : Grammar .value s
  | negative {s : List Char} (h : Unsigned s) : Grammar .value ('-' :: s)
  | string {s : List Char} (h : Body s) : Grammar .value ('"' :: (s ++ ['"']))
  | emptyArray {b : List Char} (hb : Blank b) : Grammar .value ('[' :: (b ++ [']']))
  | array {s : List Char} (h : Grammar .elements s) : Grammar .value ('[' :: (s ++ [']']))
  | object {ms : List (List Char × List Char)} {s : List Char} (h : Grammar (.object ms) s) :
      Grammar .value s
  | lastElement {b v b' : List Char} (hb : Blank b) (hv : Grammar .value v) (hb' : Blank b') :
      Grammar .elements (b ++ (v ++ b'))
  | element {b v b' s : List Char} (hb : Blank b) (hv : Grammar .value v) (hb' : Blank b')
      (hs : Grammar .elements s) : Grammar .elements (b ++ (v ++ (b' ++ ',' :: s)))
  | lastMember {k l v b : List Char} (hl : Lead k l) (hv : Grammar .value v) (hb : Blank b) :
      Grammar (.members [(k, v)]) (l ++ (v ++ b))
  | member {k l v b s : List Char} {ms : List (List Char × List Char)} (hl : Lead k l)
      (hv : Grammar .value v) (hb : Blank b) (hs : Grammar (.members ms) s) :
      Grammar (.members ((k, v) :: ms)) (l ++ (v ++ (b ++ ',' :: s)))
  | emptyObject {b : List Char} (hb : Blank b) : Grammar (.object []) ('\x7b' :: (b ++ ['\x7d']))
  | fullObject {ms : List (List Char × List Char)} {s : List Char} (h : Grammar (.members ms) s) :
      Grammar (.object ms) ('\x7b' :: (s ++ ['\x7d']))

/-! ### Passing over -/

theorem skipBlank_append {b : List Char} (hb : Blank b) (s : List Char) :
    skipBlank (b ++ s) = skipBlank s := List.dropWhile_append_of_pos hb

theorem skipBlank_of_blank {b : List Char} (hb : Blank b) {c : Char} (hc : isBlank c = false)
    (r : List Char) : skipBlank (b ++ c :: r) = c :: r :=
  (skipBlank_append hb _).trans (skipBlank_of_not_blank hc r)

theorem endsNumber_of_blank {b : List Char} (hb : Blank b) (hrest : EndsNumber rest) :
    EndsNumber (b ++ rest) := by
  cases b with
  | nil => exact hrest
  | cons c b =>
    intro d hd
    cases hd
    have hc := hb c List.mem_cons_self
    simp only [isBlank, Bool.or_eq_true, beq_iff_eq] at hc
    rcases hc with ((rfl | rfl) | rfl) | rfl <;> decide

theorem endsNumber_cons {c : Char} (hc : c = ',' ∨ c = ']' ∨ c = '\x7d') (r : List Char) :
    EndsNumber (c :: r) := by
  intro d hd
  cases hd
  rcases hc with rfl | rfl | rfl <;> decide

/-- How a value begins. -/
def Opens (c : Char) : Prop := c ∈ ['n', 't', 'f', '-', '"', '[', '\x7b'] ∨ c.isDigit = true

theorem Opens.not_blank {c : Char} (h : Opens c) : isBlank c = false := by
  rcases h with h | h
  · simp only [List.mem_cons, List.not_mem_nil, or_false] at h
    rcases h with rfl | rfl | rfl | rfl | rfl | rfl | rfl <;> rfl
  · exact not_blank_of_isDigit h

theorem Opens.not_bracket {c : Char} (h : Opens c) : c ≠ ']' := by
  rintro rfl
  rcases h with h | h <;> exact absurd h (by decide)

theorem Unsigned.head {s : List Char} (h : Unsigned s) :
    ∃ c r, s = c :: r ∧ c.isDigit = true := by
  cases h with
  | parts hwhole =>
    cases hwhole with
    | zero => exact ⟨'0', _, rfl, rfl⟩
    | digits hc => exact ⟨_, _, rfl, hc⟩

theorem Grammar.head {p : Part} (h : Grammar p s) :
    match p with
    | .value | .object _ => ∃ c r, s = c :: r ∧ Opens c
    | _ => True := by
  induction h with
  | null => exact ⟨'n', _, rfl, .inl (by decide)⟩
  | boolean b => cases b <;> exact ⟨_, _, rfl, .inl (by decide)⟩
  | unsigned h =>
    obtain ⟨c, r, hs, hc⟩ := h.head
    exact ⟨c, r, hs, .inr hc⟩
  | negative | string | emptyArray | array => exact ⟨_, _, rfl, .inl (by decide)⟩
  | emptyObject | fullObject => exact ⟨_, _, rfl, .inl (by decide)⟩
  | object _ ih => exact ih
  | lastElement | element | lastMember | member => trivial

theorem skipBlank_skipBlank (s : List Char) : skipBlank (skipBlank s) = skipBlank s :=
  List.dropWhile_idempotent isBlank s

theorem skipValue_skipBlank (fuel : Nat) (s : List Char) :
    skipValue fuel (skipBlank s) = skipValue fuel s := by
  cases fuel with
  | zero => rfl
  | succ fuel => simp only [skipValue, skipBlank_skipBlank]

theorem skipElements_skipBlank (fuel : Nat) (s : List Char) :
    skipElements fuel (skipBlank s) = skipElements fuel s := by
  cases fuel with
  | zero => rfl
  | succ fuel => simp only [skipElements, skipValue_skipBlank]

theorem skipMembers_skipBlank (fuel : Nat) (s : List Char) :
    skipMembers fuel (skipBlank s) = skipMembers fuel s := by
  cases fuel with
  | zero => rfl
  | succ fuel => simp only [skipMembers, skipBlank_skipBlank]

theorem skipValue_blank {b : List Char} (hb : Blank b) (fuel : Nat) (s : List Char) :
    skipValue fuel (b ++ s) = skipValue fuel s := by
  rw [← skipValue_skipBlank, skipBlank_append hb, skipValue_skipBlank]

variable {ms : List (List Char × List Char)}

/-- The first character of the elements, after the blanks. -/
theorem Grammar.skipBlank_elements (h : Grammar .elements s) (rest : List Char) :
    ∃ c r, skipBlank (s ++ rest) = c :: r ∧ c ≠ ']' := by
  cases h with
  | lastElement hb hv | element hb hv =>
    obtain ⟨c, r, rfl, hc⟩ := hv.head
    rw [List.append_assoc, skipBlank_append hb]
    exact ⟨c, _, skipBlank_of_not_blank hc.not_blank _, hc.not_bracket⟩

theorem Grammar.skipBlank_members (h : Grammar (.members ms) s) (rest : List Char) :
    ∃ r, skipBlank (s ++ rest) = '"' :: r := by
  cases h with
  | lastMember hl | member hl =>
    cases hl with
    | parts hb =>
      rw [List.append_assoc, List.append_assoc]
      exact ⟨_, skipBlank_of_blank hb rfl _⟩

/-- What is passed over of a part, with enough steps. -/
def Skipped (s : List Char) : Part → Prop
  | .value | .object _ => ∀ fuel rest, s.length ≤ fuel → EndsNumber rest →
      skipValue fuel (s ++ rest) = .ok rest
  | .elements => ∀ fuel rest, s.length < fuel → skipElements fuel (s ++ ']' :: rest) = .ok rest
  | .members _ => ∀ fuel rest, s.length < fuel → skipMembers fuel (s ++ '\x7d' :: rest) = .ok rest

theorem readColon_of_blank {b : List Char} (hb : Blank b) (r : List Char) :
    readColon (b ++ ':' :: r) = .ok r := by
  simp only [readColon, skipBlank_of_blank hb (c := ':') rfl, if_true]

theorem Lead.length_le {k l : List Char} (hl : Lead k l) : 3 ≤ l.length := by
  cases hl with
  | parts =>
    simp only [List.length_append, List.length_cons]
    omega

theorem skipValue_digit {c : Char} (hc : c.isDigit = true) (fuel : Nat) (r : List Char) :
    skipValue (fuel + 1) (c :: r) = skipNumber (c :: r) := by
  have hne {d : Char} (hd : d.isDigit = false) : c ≠ d := by
    rintro rfl
    rw [hc] at hd
    cases hd
  simp only [skipValue, skipBlank_of_not_blank (not_blank_of_isDigit hc), hc,
    hne (d := 'n') rfl, hne (d := 't') rfl, hne (d := 'f') rfl, hne (d := '-') rfl, if_true,
    if_false]

theorem skipValue_bracket (fuel : Nat) (s : List Char) :
    skipValue (fuel + 1) ('[' :: s) =
      match skipBlank s with
      | [] => .error (.ended .list)
      | c :: r => if c = ']' then .ok r else skipElements fuel (c :: r) := rfl

theorem skipValue_brace (fuel : Nat) (s : List Char) :
    skipValue (fuel + 1) ('\x7b' :: s) =
      match skipBlank s with
      | [] => .error (.ended .object)
      | c :: r => if c = '\x7d' then .ok r else skipMembers fuel (c :: r) := rfl

theorem skipValue_elements (h : Grammar .elements s) (fuel : Nat) (rest : List Char) :
    skipValue (fuel + 1) ('[' :: (s ++ rest)) = skipElements fuel (s ++ rest) := by
  obtain ⟨c, r, hblank, hc⟩ := h.skipBlank_elements rest
  rw [skipValue_bracket, ← skipElements_skipBlank, hblank]
  exact if_neg hc

theorem skipValue_members (h : Grammar (.members ms) s) (fuel : Nat) (rest : List Char) :
    skipValue (fuel + 1) ('\x7b' :: (s ++ rest)) = skipMembers fuel (s ++ rest) := by
  obtain ⟨r, hblank⟩ := h.skipBlank_members rest
  rw [skipValue_brace, ← skipMembers_skipBlank, hblank]
  rfl

/-- The elements of an array are passed over one by one. -/
theorem skipElements_value {fuel : Nat} {b v b' : List Char} (hb : Blank b) (hb' : Blank b')
    (hv : ∀ rest, EndsNumber rest → skipValue fuel (v ++ rest) = .ok rest) {c : Char}
    (hc : c = ',' ∨ c = ']') (r : List Char) :
    skipElements (fuel + 1) (b ++ (v ++ (b' ++ c :: r))) =
      if c = ']' then .ok r else skipElements fuel r := by
  have hends : EndsNumber (b' ++ c :: r) :=
    endsNumber_of_blank hb' (endsNumber_cons (by tauto) r)
  have hblank : isBlank c = false := by rcases hc with rfl | rfl <;> rfl
  simp only [skipElements, skipValue_blank hb, hv _ hends, skipBlank_of_blank hb' hblank]
  rcases hc with rfl | rfl <;> rfl

/-- The members of an object are passed over one by one. -/
theorem skipMembers_value {fuel : Nat} {k l v b : List Char} (hl : Lead k l) (hb : Blank b)
    (hv : ∀ rest, EndsNumber rest → skipValue fuel (v ++ rest) = .ok rest) {c : Char}
    (hc : c = ',' ∨ c = '\x7d') (r : List Char) :
    skipMembers (fuel + 1) (l ++ (v ++ (b ++ c :: r))) =
      if c = '\x7d' then .ok r else skipMembers fuel r := by
  have hends : EndsNumber (b ++ c :: r) :=
    endsNumber_of_blank hb (endsNumber_cons (by tauto) r)
  have hblank : isBlank c = false := by rcases hc with rfl | rfl <;> rfl
  cases hl with
  | parts hlead hk hcolon hvalue =>
    simp only [List.append_assoc, List.cons_append, skipMembers,
      skipBlank_of_blank hlead (c := '"') rfl, ne_eq, not_true_eq_false, if_false, hk.skipString,
      readColon_of_blank hcolon, skipValue_blank hvalue, hv _ hends,
      skipBlank_of_blank hb hblank]
    rcases hc with rfl | rfl <;> rfl

/-- Every part is passed over whole. -/
theorem Grammar.skipped {p : Part} (h : Grammar p s) : Skipped s p := by
  induction h with
  | null =>
    intro fuel rest hfuel _
    obtain ⟨fuel, rfl⟩ := Nat.exists_eq_add_of_le' (Nat.le_trans (by decide : 1 ≤ 4) hfuel)
    rfl
  | boolean b =>
    intro fuel rest hfuel _
    cases b with
    | true =>
      obtain ⟨fuel, rfl⟩ := Nat.exists_eq_add_of_le' (Nat.le_trans (by decide : 1 ≤ 4) hfuel)
      rfl
    | false =>
      obtain ⟨fuel, rfl⟩ := Nat.exists_eq_add_of_le' (Nat.le_trans (by decide : 1 ≤ 5) hfuel)
      rfl
  | unsigned h =>
    intro fuel rest hfuel hrest
    have hskip := h.skipNumber hrest
    obtain ⟨c, r, rfl, hc⟩ := h.head
    obtain ⟨fuel, rfl⟩ := Nat.exists_eq_add_of_le' (Nat.le_trans (Nat.le_add_left 1 _) hfuel)
    rw [List.cons_append, skipValue_digit hc]
    exact hskip
  | negative h =>
    intro fuel rest hfuel hrest
    obtain ⟨fuel, rfl⟩ := Nat.exists_eq_add_of_le' (Nat.le_trans (Nat.le_add_left 1 _) hfuel)
    exact h.skipNumber hrest
  | string h =>
    intro fuel rest hfuel _
    obtain ⟨fuel, rfl⟩ := Nat.exists_eq_add_of_le' (Nat.le_trans (Nat.le_add_left 1 _) hfuel)
    rw [List.cons_append, List.append_assoc]
    exact h.skipString rest
  | emptyArray hb =>
    intro fuel rest hfuel _
    obtain ⟨fuel, rfl⟩ := Nat.exists_eq_add_of_le' (Nat.le_trans (Nat.le_add_left 1 _) hfuel)
    rw [List.cons_append, List.append_assoc, List.singleton_append, skipValue_bracket,
      skipBlank_of_blank hb rfl]
    rfl
  | array h ih =>
    intro fuel rest hfuel _
    obtain ⟨fuel, rfl⟩ := Nat.exists_eq_add_of_le' (Nat.le_trans (Nat.le_add_left 1 _) hfuel)
    simp only [List.length_cons, List.length_append, List.length_nil] at hfuel
    rw [List.cons_append, List.append_assoc, List.singleton_append, skipValue_elements h]
    exact ih fuel rest (by omega)
  | object _ ih => exact ih
  | lastElement hb hv hb' ih =>
    intro fuel rest hfuel
    obtain ⟨fuel, rfl⟩ := Nat.exists_eq_add_of_le' (Nat.one_le_of_lt hfuel)
    simp only [List.length_append] at hfuel
    have hvalue := skipElements_value hb hb' (fun rest => ih fuel rest (by omega)) (.inr rfl) rest
    rw [List.append_assoc, List.append_assoc, hvalue, if_pos rfl]
  | element hb hv hb' hs ihv ihs =>
    intro fuel rest hfuel
    obtain ⟨fuel, rfl⟩ := Nat.exists_eq_add_of_le' (Nat.one_le_of_lt hfuel)
    simp only [List.length_append, List.length_cons] at hfuel
    have hvalue := skipElements_value hb hb' (fun rest => ihv fuel rest (by omega)) (.inl rfl)
    rw [List.append_assoc, List.append_assoc, List.append_assoc, List.cons_append, hvalue,
      if_neg (by decide), ihs fuel rest (by omega)]
  | lastMember hl hv hb ih =>
    intro fuel rest hfuel
    obtain ⟨fuel, rfl⟩ := Nat.exists_eq_add_of_le' (Nat.one_le_of_lt hfuel)
    simp only [List.length_append] at hfuel
    have hvalue := skipMembers_value hl hb (fun rest => ih fuel rest (by omega)) (.inr rfl) rest
    rw [List.append_assoc, List.append_assoc, hvalue, if_pos rfl]
  | member hl hv hb hs ihv ihs =>
    intro fuel rest hfuel
    obtain ⟨fuel, rfl⟩ := Nat.exists_eq_add_of_le' (Nat.one_le_of_lt hfuel)
    simp only [List.length_append, List.length_cons] at hfuel
    have hvalue := skipMembers_value hl hb (fun rest => ihv fuel rest (by omega)) (.inl rfl)
    rw [List.append_assoc, List.append_assoc, List.append_assoc, List.cons_append, hvalue,
      if_neg (by decide), ihs fuel rest (by omega)]
  | emptyObject hb =>
    intro fuel rest hfuel _
    obtain ⟨fuel, rfl⟩ := Nat.exists_eq_add_of_le' (Nat.le_trans (Nat.le_add_left 1 _) hfuel)
    rw [List.cons_append, List.append_assoc, List.singleton_append, skipValue_brace,
      skipBlank_of_blank hb rfl]
    rfl
  | fullObject h ih =>
    intro fuel rest hfuel _
    obtain ⟨fuel, rfl⟩ := Nat.exists_eq_add_of_le' (Nat.le_trans (Nat.le_add_left 1 _) hfuel)
    simp only [List.length_cons, List.length_append, List.length_nil] at hfuel
    rw [List.cons_append, List.append_assoc, List.singleton_append, skipValue_members h]
    exact ih fuel rest (by omega)

end SingleWriter.Json
