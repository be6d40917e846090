import SingleWriter.Proofs.Kinds
import SingleWriter.Proofs.RoundTrip

/-! Configurations from objects.  The members may come in any order and in any spelling, with others
among them that no configuration has: what is listed replaces the default, and the rest stays. -/

namespace SingleWriter

namespace Json.Value

def text : Value → String
  | string t => t
  | _ => ""

def flag : Value → Bool
  | boolean b => b
  | _ => false

def natural? : Value → Option Nat
  | number (.natural n) => some n
  | _ => none

end Json.Value

namespace StoreConfig

open Json

/-! ### Members of a configuration -/

def Field.kind : Field → Kind
  | path => .text "path string"
  | checkpointMode => .text "a string"
  | enableWal | txImmediate | useNativeQueuing => .flag
  | maxOpenConns | maxIdleConns | maxRetries => .natural max32 "u32"
  | connMaxLifetimeMs | busyTimeoutMs | baseDelayMs | maxDelayMs => .natural max64 "u64"
  | checkpointIntervalMs => .optional max64 "u64"

theorem Field.kind_inWord (f : Field) : f.kind.InWord := by
  cases f <;> simp [kind, Kind.InWord, max32, max64, maxWord]

/-- A configuration with another value of one member. -/
def set (c : StoreConfig) (x : Value) : Field → StoreConfig
  | .path => { c with path := x.text }
  | .maxOpenConns => { c with maxOpenConns := x.natural?.getD 0 }
  | .maxIdleConns => { c with maxIdleConns := x.natural?.getD 0 }
  | .connMaxLifetimeMs => { c with connMaxLifetimeMs := x.natural?.getD 0 }
  | .busyTimeoutMs => { c with busyTimeoutMs := x.natural?.getD 0 }
  | .enableWal => { c with enableWal := x.flag }
  | .txImmediate => { c with txImmediate := x.flag }
  | .useNativeQueuing => { c with useNativeQueuing := x.flag }
  | .maxRetries => { c with maxRetries := x.natural?.getD 0 }
  | .baseDelayMs => { c with baseDelayMs := x.natural?.getD 0 }
  | .maxDelayMs => { c with maxDelayMs := x.natural?.getD 0 }
  | .checkpointIntervalMs => { c with checkpointIntervalMs := x.natural? }
  | .checkpointMode => { c with checkpointMode := x.text }

variable {c : StoreConfig} {f : Field} {s : List Char} {x : Value}

theorem fieldValue_set_self (h : Denotes f.kind s x) : (c.set x f).fieldValue f = x := by
  cases f <;> cases h <;> try rfl
  rename_i h
  cases h
  rfl

theorem fieldValue_set_ne {g : Field} (h : g ≠ f) : (c.set x f).fieldValue g = c.fieldValue g := by
  cases f <;> cases g <;> first | rfl | exact absurd rfl h

theorem map_map_ok {α β γ : Type} (r : Except Fault α) (f : α → β) (g : β → γ) :
    (r.map f).map g = r.map fun a => g (f a) := by
  cases r <;> rfl

/-- A member is read by its kind alone. -/
theorem readField_eq (c : StoreConfig) (f : Field) (s : List Char) :
    c.readField f s = (f.kind.read s).map fun (x, rest) => (c.set x f, rest) := by
  cases f <;> simp only [readField, Field.kind, Kind.read, map_map_ok] <;> try rfl
  congr 1
  funext x
  obtain ⟨n, rest⟩ := x
  cases n <;> rfl

theorem readField_blank {b : List Char} (hb : Blank b) (c : StoreConfig) (f : Field)
    (s : List Char) : c.readField f (b ++ s) = c.readField f s := by
  rw [readField_eq, readField_eq, ← read_skipBlank, skipBlank_append hb, read_skipBlank]

theorem ext_fieldValue {c d : StoreConfig} (h : ∀ f, c.fieldValue f = d.fieldValue f) : c = d := by
  have hset (e : StoreConfig) : Field.all.foldl (fun c f => c.set (e.fieldValue f) f) {} = e := by
    obtain ⟨_, _, _, _, _, _, _, _, _, _, _, interval, _⟩ := e
    cases interval <;> rfl
  rw [← hset c, ← hset d]
  simp only [h]

/-! ### What an object lists -/

/-- The key with the body `k` is that of a member, whatever way it is spelled. -/
def Names (k : List Char) (f : Field) : Prop := Spells k f.key.toList

theorem Field.ofKey?_eq_some {key : String} {f : Field} : ofKey? key = some f ↔ key = f.key := by
  refine ⟨fun h => ?_, fun h => h ▸ ofKey?_key f⟩
  have := List.find?_some h
  exact (eq_of_beq this).symm

theorem names_iff {k : List Char} {f : Field} :
    Names k f ↔ ∃ t, Spells k t ∧ Field.ofKey? (String.ofList t) = some f := by
  refine ⟨fun h => ⟨_, h, ?_⟩, ?_⟩
  · rw [String.ofList_toList]
    exact f.ofKey?_key
  · rintro ⟨t, ht, hf⟩
    rw [Names, ← Field.ofKey?_eq_some.mp hf, String.toList_ofList]
    exact ht

/-- Members by the bodies of their keys and by their values. -/
abbrev Members := List (List Char × List Char)

/-- The members list the value `x` for `f`. -/
def Lists (ms : Members) (f : Field) (x : Value) : Prop :=
  ∃ m ∈ ms, Names m.1 f ∧ Denotes f.kind m.2 x

/-- Every key spells a text. -/
def Spelled (ms : Members) : Prop := ∀ m ∈ ms, ∃ t, Spells m.1 t

/-- No member of a configuration comes twice, and each has a value of its kind. -/
structure Conforms (ms : Members) : Prop where
  once : ms.Pairwise fun m n => ∀ f, Names m.1 f → ¬ Names n.1 f
  typed : ∀ m ∈ ms, ∀ f, Names m.1 f → ∃ x, Denotes f.kind m.2 x

/-- `c'` is `c` with exactly the listed values in place of its own. -/
structure Replaces (ms : Members) (c c' : StoreConfig) : Prop where
  listed : ∀ f x, Lists ms f x → c'.fieldValue f = x
  kept : ∀ f, (∀ m ∈ ms, ¬ Names m.1 f) → c'.fieldValue f = c.fieldValue f

/-- A text of an object with the members `ms`, with blanks around it or not. -/
inductive Document (ms : Members) : String → Prop where
  | text {b s b' : List Char} (hb : Blank b) (h : Grammar (.object ms) s) (hb' : Blank b') :
      Document ms (String.ofList (b ++ (s ++ b')))

/-! ### One member after the other -/

/-- What reading the members in their order makes of a configuration; `seen` have a value
already. -/
inductive Takes : List Field → StoreConfig → Members → StoreConfig → Prop where
  | nil {seen : List Field} {c : StoreConfig} : Takes seen c [] c
  | other {seen : List Field} {c c' : StoreConfig} {k v t : List Char} {ms : Members}
      (hk : Spells k t) (hother : Field.ofKey? (String.ofList t) = none)
      (hms : Takes seen c ms c') : Takes seen c ((k, v) :: ms) c'
  | known {seen : List Field} {c c' : StoreConfig} {k v : List Char} {f : Field} {x : Value}
      {ms : Members} (hk : Names k f) (hseen : f ∉ seen) (hv : Denotes f.kind v x)
      (hms : Takes (f :: seen) (c.set x f) ms c') : Takes seen c ((k, v) :: ms) c'

/-- The rest of a member after its key and the colon, and what comes after it. -/
def readMember (fuel : Nat) (seen : List Field) (c : StoreConfig) (s : List Char) :
    Option Field → Reading StoreConfig
  | none =>
    match skipValue fuel s with
    | .error e => .error e
    | .ok rest => readFields fuel false seen c rest
  | some f =>
    if f ∈ seen then .error (.duplicate f.key) else
      match c.readField f s with
      | .error e => .error e
      | .ok (c, rest) => readFields fuel false (f :: seen) c rest

/-- Where members are read: at the first one, or before the comma that comes after another. -/
inductive Before (s : List Char) : Bool → List Char → Prop where
  | first : Before s true s
  | comma {b : List Char} (hb : Blank b) : Before s false (b ++ ',' :: s)

theorem nextKey_of_blank {b s s' : List Char} {first : Bool} (hb : Blank b)
    (hs' : Before (b ++ '"' :: s) first s') : nextKey first s' = .ok (some s) := by
  unfold nextKey
  cases hs' with
  | first =>
    rw [skipBlank_of_blank hb rfl]
    rfl
  | comma hb' =>
    rw [skipBlank_of_blank hb' rfl]
    simp [skipBlank_of_blank hb (c := '"') rfl]

theorem readFields_lead {k l r s' : List Char} {first : Bool} (hl : Lead k l)
    (hs' : Before (l ++ r) first s') {t : List Char} (ht : Spells k t) (fuel : Nat)
    (seen : List Field) (c : StoreConfig) :
    readFields (fuel + 1) first seen c s' =
      readMember fuel seen c r (Field.ofKey? (String.ofList t)) := by
  cases hl with
  | @parts b k b' b'' hb hk hb' hb'' =>
    simp only [List.append_assoc, List.cons_append] at hs'
    simp only [readFields, nextKey_of_blank hb hs', ht.readString, readColon_of_blank hb']
    cases Field.ofKey? (String.ofList t) with
    | none =>
      cases hrest : skipValue fuel r <;> simp only [readMember, skipValue_blank hb'', hrest]
    | some f =>
      cases hrest : c.readField f r <;> simp only [readMember, readField_blank hb'', hrest]

theorem spells_of_readFields {k l r s' : List Char} {first : Bool} (hl : Lead k l)
    (hs' : Before (l ++ r) first s') {fuel : Nat} {seen : List Field} {c : StoreConfig}
    {out : StoreConfig × List Char}
    (hread : readFields (fuel + 1) first seen c s' = .ok out) : ∃ t, Spells k t := by
  cases hl with
  | @parts b k b' b'' hb hk hb' hb'' =>
    simp only [List.append_assoc, List.cons_append] at hs'
    simp only [readFields, nextKey_of_blank hb hs'] at hread
    split at hread
    · cases hread
    · rename_i hstring
      exact ⟨_, (hk.spells hstring).1⟩

/-- The value of a member is read if it is of the member's kind and the member's first. -/
theorem readMember_some {v tail : List Char} (hv : Grammar .value v) (htail : EndsNumber tail)
    {fuel : Nat} {seen : List Field} {c : StoreConfig} {f : Field} {out : StoreConfig × List Char} :
    readMember fuel seen c (v ++ tail) (some f) = .ok out ↔
      f ∉ seen ∧ ∃ x, Denotes f.kind v x ∧
        readFields fuel false (f :: seen) (c.set x f) tail = .ok out := by
  unfold readMember
  by_cases hseen : f ∈ seen
  · simp [hseen]
  · simp only [hseen, if_false, not_false_eq_true, true_and, readField_eq]
    constructor
    · intro hread
      cases hvalue : f.kind.read (v ++ tail) with
      | error e =>
        rw [hvalue] at hread
        cases hread
      | ok value =>
        obtain ⟨x, r⟩ := value
        obtain ⟨hx, rfl⟩ := hv.denotes htail hvalue
        rw [hvalue] at hread
        exact ⟨x, hx, hread⟩
    · rintro ⟨x, hx, hread⟩
      rw [hx.read f.kind_inWord htail]
      exact hread

/-- A member is taken as it is read, if what comes after it is. -/
theorem readFields_iff {k l v s' rest tail : List Char} {ms : Members} {first : Bool}
    (hl : Lead k l) (hv : Grammar .value v) (htail : EndsNumber tail)
    (hs' : Before (l ++ (v ++ tail)) first s') {fuel : Nat} (hfuel : v.length ≤ fuel)
    {seen : List Field} {c : StoreConfig} {out : StoreConfig × List Char}
    (ih : ∀ seen c, readFields fuel false seen c tail = .ok out ↔
      ∃ c', Takes seen c ms c' ∧ out = (c', rest)) :
    readFields (fuel + 1) first seen c s' = .ok out ↔
      ∃ c', Takes seen c ((k, v) :: ms) c' ∧ out = (c', rest) := by
  have hskip : readMember fuel seen c (v ++ tail) none = readFields fuel false seen c tail := by
    simp only [readMember, hv.skipped fuel tail hfuel htail]
  constructor
  · intro hread
    obtain ⟨t, ht⟩ := spells_of_readFields hl hs' hread
    rw [readFields_lead hl hs' ht] at hread
    cases hkey : Field.ofKey? (String.ofList t) with
    | none =>
      rw [hkey, hskip] at hread
      obtain ⟨c', hms, hout⟩ := (ih _ _).mp hread
      exact ⟨c', .other ht hkey hms, hout⟩
    | some f =>
      rw [hkey] at hread
      obtain ⟨hseen, x, hx, hread⟩ := (readMember_some hv htail).mp hread
      obtain ⟨c', hms, hout⟩ := (ih _ _).mp hread
      exact ⟨c', .known (names_iff.mpr ⟨t, ht, hkey⟩) hseen hx hms, hout⟩
  · rintro ⟨c', htakes, hout⟩
    cases htakes with
    | other ht hother hms =>
      rw [readFields_lead hl hs' ht, hother, hskip]
      exact (ih _ _).mpr ⟨c', hms, hout⟩
    | known hk hseen hx hms =>
      obtain ⟨t, ht, hkey⟩ := names_iff.mp hk
      rw [readFields_lead hl hs' ht, hkey]
      exact (readMember_some hv htail).mpr ⟨hseen, _, hx, (ih _ _).mpr ⟨c', hms, hout⟩⟩

/-- The readers of an object at its end. -/
theorem readFields_end {b : List Char} (hb : Blank b) (fuel : Nat) (first : Bool)
    (seen : List Field) (c : StoreConfig) (rest : List Char) :
    readFields (fuel + 1) first seen c (b ++ '\x7d' :: rest) = .ok (c, rest) := by
  simp [readFields, nextKey, afterBracket, skipBlank_of_blank hb (c := '\x7d') rfl]

/-- The members of an object are taken as they are read, with what closes the object. -/
theorem readFields_members_iff {ms : Members} {s s' : List Char} (h : Grammar (.members ms) s)
    {first : Bool} {rest : List Char} (hs' : Before (s ++ '\x7d' :: rest) first s') {fuel : Nat}
    (hfuel : s.length < fuel) {seen : List Field} {c : StoreConfig}
    {out : StoreConfig × List Char} :
    readFields fuel first seen c s' = .ok out ↔ ∃ c', Takes seen c ms c' ∧ out = (c', rest) := by
  induction ms generalizing s s' first fuel seen c with
  | nil => cases h
  | cons m ms ih =>
    obtain ⟨fuel, rfl⟩ := Nat.exists_eq_add_of_le' (Nat.one_le_of_lt hfuel)
    cases h with
    | lastMember hl hv hb =>
      simp only [List.length_append] at hfuel
      have hlead := hl.length_le
      simp only [List.append_assoc] at hs'
      refine readFields_iff hl hv (endsNumber_of_blank hb (endsNumber_cons (by simp) rest)) hs'
        (by omega) fun seen c => ?_
      obtain ⟨fuel, rfl⟩ := Nat.exists_eq_add_of_le' (show 1 ≤ fuel by omega)
      rw [readFields_end hb]
      constructor
      · intro hout
        exact ⟨c, .nil, (Except.ok.inj hout).symm⟩
      · rintro ⟨c', hnil, rfl⟩
        cases hnil
        rfl
    | member hl hv hb hs =>
      simp only [List.length_append, List.length_cons] at hfuel
      simp only [List.append_assoc, List.cons_append] at hs'
      exact readFields_iff hl hv (endsNumber_of_blank hb (endsNumber_cons (by simp) _)) hs'
        (by omega) fun seen c => ih hs (.comma hb) (by omega)

theorem readEnd_of_blank {b : List Char} (hb : Blank b) : readEnd b = .ok () := by
  have hend : skipBlank b = [] := List.dropWhile_eq_nil_iff.mpr hb
  simp only [readEnd, hend]

/-- A text of an object is read just if its members can be taken in their order. -/
theorem ofText_eq_ok {ms : Members} {text : String} (h : Document ms text) {c : StoreConfig} :
    ofText text = .ok c ↔ Takes [] {} ms c := by
  cases h with
  | @text b s b' hb h hb' =>
    have hread {r : List Char} (hr : s ++ b' = '\x7b' :: r) :
        read (b ++ (s ++ b')) = readFields (stepBound r) true [] {} r := by
      unfold read
      rw [hr, skipBlank_of_blank hb rfl]
      rfl
    simp only [ofText, String.toList_ofList]
    cases h with
    | emptyObject hinner =>
      rw [hread (by simp; rfl), stepBound, readFields_end hinner]
      simp only [readEnd_of_blank hb']
      constructor
      · rintro ⟨⟩
        exact .nil
      · rintro ⟨⟩
        rfl
    | @fullObject _ s h =>
      have hbound : s.length < stepBound (s ++ '\x7d' :: b') := by
        simp only [stepBound, List.length_append, List.length_cons]
        omega
      have hiff {out : StoreConfig × List Char} :
          readFields (stepBound (s ++ '\x7d' :: b')) true [] {} (s ++ '\x7d' :: b') = .ok out ↔
            ∃ c', Takes [] {} ms c' ∧ out = (c', b') :=
        readFields_members_iff h .first hbound
      rw [hread (by simp; rfl)]
      constructor
      · intro htext
        split at htext
        · cases htext
        · rename_i c' rest hfields
          obtain ⟨_, -, rfl⟩ := map_eq_ok htext
          obtain ⟨_, htakes, heq⟩ := hiff.mp hfields
          cases heq
          exact htakes
      · intro htakes
        simp only [hiff.mpr ⟨c, htakes, rfl⟩, readEnd_of_blank hb']
        rfl

/-! ### What is taken -/

theorem Takes.spelled {seen : List Field} {c c' : StoreConfig} {ms : Members}
    (h : Takes seen c ms c') : Spelled ms := by
  induction h with
  | nil => exact fun m hm => absurd hm List.not_mem_nil
  | other hk _ _ ih => exact List.forall_mem_cons.mpr ⟨⟨_, hk⟩, ih⟩
  | known hk _ _ _ ih => exact List.forall_mem_cons.mpr ⟨⟨_, hk⟩, ih⟩

theorem names_unique {k : List Char} {f g : Field} (hf : Names k f) (hg : Names k g) : f = g := by
  have hkey := String.toList_inj.mp (Spells.unique hf hg)
  rw [← Option.some.injEq, ← f.ofKey?_key, ← g.ofKey?_key, hkey]

theorem not_names {k t : List Char} (hk : Spells k t)
    (hother : Field.ofKey? (String.ofList t) = none) (f : Field) : ¬ Names k f := by
  intro hf
  obtain ⟨u, hu, hkey⟩ := names_iff.mp hf
  rw [hk.unique hu, hkey] at hother
  cases hother

/-- What `seen` has is not among the members. -/
def Fresh (seen : List Field) (ms : Members) : Prop := ∀ m ∈ ms, ∀ f ∈ seen, ¬ Names m.1 f

theorem Takes.fresh {seen : List Field} {c c' : StoreConfig} {ms : Members}
    (h : Takes seen c ms c') : Fresh seen ms := by
  induction h with
  | nil => exact fun m hm => absurd hm List.not_mem_nil
  | other hk hother _ ih => exact List.forall_mem_cons.mpr ⟨fun f _ => not_names hk hother f, ih⟩
  | known hk hseen _ _ ih =>
    refine List.forall_mem_cons.mpr ⟨fun g hg hname => ?_, fun m hm g hg => ?_⟩
    · exact hseen (names_unique hk hname ▸ hg)
    · exact ih m hm g (List.mem_cons_of_mem _ hg)

theorem Takes.conforms {seen : List Field} {c c' : StoreConfig} {ms : Members}
    (h : Takes seen c ms c') : Conforms ms := by
  induction h with
  | nil => exact ⟨.nil, fun m hm => absurd hm List.not_mem_nil⟩
  | other hk hother _ ih =>
    refine ⟨.cons (fun m _ f hf => absurd hf (not_names hk hother f)) ih.once, ?_⟩
    exact List.forall_mem_cons.mpr ⟨fun f hf => absurd hf (not_names hk hother f), ih.typed⟩
  | known hk _ hv hms ih =>
    refine ⟨.cons (fun m hm g hg => ?_) ih.once,
      List.forall_mem_cons.mpr ⟨fun g hg => ?_, ih.typed⟩⟩
    · cases names_unique hk hg
      exact hms.fresh m hm _ List.mem_cons_self
    · cases names_unique hk hg
      exact ⟨_, hv⟩

theorem Takes.replaces {seen : List Field} {c c' : StoreConfig} {ms : Members}
    (h : Takes seen c ms c') : Replaces ms c c' := by
  induction h with
  | nil => exact ⟨fun f x ⟨m, hm, _⟩ => absurd hm List.not_mem_nil, fun _ _ => rfl⟩
  | other hk hother _ ih =>
    refine ⟨fun f x ⟨m, hm, hname, hx⟩ => ?_, fun f hf => ?_⟩
    · rcases List.mem_cons.mp hm with rfl | hm
      · exact absurd hname (not_names hk hother f)
      · exact ih.listed f x ⟨m, hm, hname, hx⟩
    · exact ih.kept f fun m hm => hf m (List.mem_cons_of_mem _ hm)
  | @known seen c c' k v f x ms hk _ hv hms ih =>
    have hself : c'.fieldValue f = x := by
      rw [ih.kept f fun m hm => hms.fresh m hm f List.mem_cons_self, fieldValue_set_self hv]
    refine ⟨fun g y ⟨m, hm, hname, hy⟩ => ?_, fun g hg => ?_⟩
    · rcases List.mem_cons.mp hm with rfl | hm
      · cases names_unique hk hname
        rw [hself, hv.unique hy f.kind_inWord]
      · exact ih.listed g y ⟨m, hm, hname, hy⟩
    · have hne : g ≠ f := by
        rintro rfl
        exact hg _ List.mem_cons_self hk
      rw [ih.kept g fun m hm => hg m (List.mem_cons_of_mem _ hm), fieldValue_set_ne hne]

theorem Conforms.takes {ms : Members} (h : Conforms ms) (hspelled : Spelled ms)
    {seen : List Field} (hfresh : Fresh seen ms) (c : StoreConfig) : ∃ c', Takes seen c ms c' := by
  induction ms generalizing seen c with
  | nil => exact ⟨c, .nil⟩
  | cons m ms ih =>
    obtain ⟨k, v⟩ := m
    obtain ⟨hfirst, honce⟩ := List.pairwise_cons.mp h.once
    obtain ⟨hvalue, htyped⟩ := List.forall_mem_cons.mp h.typed
    obtain ⟨⟨t, ht⟩, hspelled⟩ := List.forall_mem_cons.mp hspelled
    obtain ⟨hkey, hfresh⟩ := List.forall_mem_cons.mp hfresh
    cases hfield : Field.ofKey? (String.ofList t) with
    | none =>
      obtain ⟨c', hms⟩ := ih ⟨honce, htyped⟩ hspelled hfresh c
      exact ⟨c', .other ht hfield hms⟩
    | some f =>
      have hname : Names k f := names_iff.mpr ⟨t, ht, hfield⟩
      obtain ⟨x, hx⟩ := hvalue f hname
      have hrest : Fresh (f :: seen) ms := fun m hm =>
        List.forall_mem_cons.mpr ⟨hfirst m hm f hname, hfresh m hm⟩
      obtain ⟨c', hms⟩ := ih ⟨honce, htyped⟩ hspelled hrest (c.set x f)
      exact ⟨c', .known hname (fun hseen => hkey f hseen hname) hx hms⟩

theorem takes_iff {ms : Members} : (∃ c, Takes [] {} ms c) ↔ Spelled ms ∧ Conforms ms := by
  constructor
  · rintro ⟨c, h⟩
    exact ⟨h.spelled, h.conforms⟩
  · rintro ⟨hspelled, hconforms⟩
    exact hconforms.takes hspelled (fun _ _ _ h => absurd h List.not_mem_nil) {}

/-- What is listed, and the defaults, make the configuration. -/
theorem Replaces.unique {ms ms' : Members} {c d d' : StoreConfig} (h : Replaces ms c d)
    (h' : Replaces ms' c d') (hconforms : Conforms ms) (hconforms' : Conforms ms')
    (hlists : ∀ f x, Lists ms f x ↔ Lists ms' f x) : d = d' := by
  refine ext_fieldValue fun f => ?_
  by_cases hf : ∃ x, Lists ms f x
  · obtain ⟨x, hx⟩ := hf
    rw [h.listed f x hx, h'.listed f x ((hlists f x).mp hx)]
  · have hnone (m) (hm : m ∈ ms) (hname : Names m.1 f) : False := by
      obtain ⟨x, hx⟩ := hconforms.typed m hm f hname
      exact hf ⟨x, m, hm, hname, hx⟩
    have hnone' (m) (hm : m ∈ ms') (hname : Names m.1 f) : False := by
      obtain ⟨x, hx⟩ := hconforms'.typed m hm f hname
      exact hf ⟨x, (hlists f x).mpr ⟨m, hm, hname, hx⟩⟩
    rw [h.kept f hnone, h'.kept f hnone']

/-! ### Loading -/

theorem load_of_ofText {text : String} {c : StoreConfig} (h : ofText text = .ok c) :
    load text = if c.path = "" then .error .pathRequired else .ok c := by
  unfold load
  rw [h]
  by_cases hpath : c.path = ""
  · simp [validate, isValid, hpath, Except.map]
  · simp [validate, isValid, hpath, Except.map]

/-- An object whose keys spell texts and whose members conform gives the default configuration with
just the listed values in place of its own, if that has a path.  Any other object is refused while
it is read.  Nothing but the listed values matters. -/
theorem load_object {ms : Members} {text : String} (h : Document ms text) :
    (Spelled ms → Conforms ms → ∃ c, Replaces ms {} c ∧
      load text = if c.path = "" then .error .pathRequired else .ok c) ∧
    (¬ (Spelled ms ∧ Conforms ms) → ∃ fault, load text = .error (.configParse fault)) ∧
    ∀ (ms' : Members) (text' : String), Document ms' text' → Spelled ms → Conforms ms →
      Spelled ms' → Conforms ms' → (∀ f x, Lists ms f x ↔ Lists ms' f x) →
      load text = load text' := by
  have hload {ms : Members} {text : String} (h : Document ms text) (hspelled : Spelled ms)
      (hconforms : Conforms ms) : ∃ c, Replaces ms {} c ∧
        load text = if c.path = "" then .error .pathRequired else .ok c := by
    obtain ⟨c, htakes⟩ := takes_iff.mpr ⟨hspelled, hconforms⟩
    exact ⟨c, htakes.replaces, load_of_ofText ((ofText_eq_ok h).mpr htakes)⟩
  refine ⟨hload h, fun hnot => ?_,
    fun ms' text' h' hspelled hconforms hspelled' hconforms' hlists => ?_⟩
  · cases htext : ofText text with
    | ok c => exact absurd (takes_iff.mp ⟨c, (ofText_eq_ok h).mp htext⟩) hnot
    | error fault =>
      refine ⟨fault, ?_⟩
      simp only [load, htext]
  · obtain ⟨c, hc, htext⟩ := hload h hspelled hconforms
    obtain ⟨c', hc', htext'⟩ := hload h' hspelled' hconforms'
    rw [htext, htext', hc.unique hc' hconforms hconforms' hlists]

/-- A member that no configuration has, with a nested value and an unpaired surrogate in it, and a
path that is spelled by escapes. -/
def escaped : Members :=
  [(['z'], "[-0.5e+3,\"\\ud800\"]".toList), ("\\u0070ath".toList, "\"\\ud83d\\ude00\"".toList)]

theorem escaped_document :
    Document escaped "\x7b\"z\":[-0.5e+3,\"\\ud800\"] , \"\\u0070ath\":\"\\ud83d\\ude00\"\x7d" := by
  have hspace : Blank [' '] := List.forall_mem_singleton.mpr rfl
  have hfraction : Fraction ['.', '5'] := .digits (.one rfl)
  have hexponent : Exponent ('e' :: (['+'] ++ ['3'])) :=
    .digits (.inl rfl) (.inr (.inl rfl)) (.one rfl)
  have hnumber : Grammar .value ('-' :: "0.5e+3".toList) :=
    .negative (.parts .zero hfraction hexponent)
  have hsurrogate : Grammar .value "\"\\ud800\"".toList :=
    .string (.long (q := ['d', '8', '0', '0']) (.digits rfl rfl rfl rfl) .nil)
  have helements : Grammar .elements "-0.5e+3,\"\\ud800\"".toList :=
    .element .nil hnumber .nil (.lastElement .nil hsurrogate .nil)
  have hkey : Body "\\u0070ath".toList :=
    .long (q := ['0', '0', '7', '0']) (.digits rfl rfl rfl rfl) (Spells.self rfl).body
  have hpath : Grammar .value "\"\\ud83d\\ude00\"".toList :=
    .string (.long (q := ['d', '8', '3', 'd']) (.digits rfl rfl rfl rfl)
      (.long (q := ['d', 'e', '0', '0']) (.digits rfl rfl rfl rfl) .nil))
  have hz : Body ['z'] := (Spells.self rfl).body
  have hmembers : Grammar (.members escaped) _ :=
    .member (.tight hz) (.array helements) hspace
      (.lastMember (.parts hspace hkey .nil .nil) hpath .nil)
  exact .text .nil (.fullObject hmembers) .nil

theorem spells_z : Spells ['z'] ['z'] := .self rfl

theorem names_escaped_path : Names "\\u0070ath".toList .path :=
  .long (q := ['0', '0', '7', '0']) (.digits rfl rfl rfl rfl) rfl rfl (.self rfl)

theorem escaped_spelled : Spelled escaped :=
  List.forall_mem_cons.mpr ⟨⟨_, spells_z⟩, List.forall_mem_singleton.mpr ⟨_, names_escaped_path⟩⟩

theorem escaped_conforms : Conforms escaped := by
  have hz (f : Field) : ¬ Names ['z'] f := not_names spells_z rfl f
  refine ⟨List.pairwise_pair.mpr fun f hf => absurd hf (hz f), ?_⟩
  refine List.forall_mem_cons.mpr ⟨fun f hf => absurd hf (hz f), ?_⟩
  refine List.forall_mem_singleton.mpr fun f hf => ?_
  cases names_unique hf names_escaped_path
  exact ⟨_, .text (@Spells.pair ['d', '8', '3', 'd'] ['d', 'e', '0', '0'] _ _ _ _
    (.digits rfl rfl rfl rfl) rfl (.digits rfl rfl rfl rfl) rfl .nil)⟩

/-- A path that is no string. -/
def mistypedPath : Members := [("path".toList, ['1'])]

theorem whole_one : Whole ['1'] := .digits rfl (by decide) (List.forall_mem_nil _)

theorem spells_path : Names "path".toList .path := .self rfl

theorem mistypedPath_document : Document mistypedPath "\x7b\"path\":1\x7d" := by
  have hone : Grammar .value ['1'] :=
    .unsigned (.parts whole_one .none .none)
  exact .text .nil (.fullObject (.lastMember (.tight (Spells.body spells_path)) hone .nil)) .nil

theorem load_object_escaped :
    let text := "\x7b\"z\":[-0.5e+3,\"\\ud800\"] , \"\\u0070ath\":\"\\ud83d\\ude00\"\x7d"
    (Document escaped text ∧ Spelled escaped ∧ Conforms escaped ∧
      (∃ c, Replaces escaped {} c ∧
        load text = if c.path = "" then .error .pathRequired else .ok c) ∧
      load text = .ok { path := "😀" }) ∧
    Document mistypedPath "\x7b\"path\":1\x7d" ∧ ¬ Conforms mistypedPath ∧
      ∃ fault, load "\x7b\"path\":1\x7d" = .error (.configParse fault) := by
  have hload := load_object escaped_document
  have hnot : ¬ Conforms mistypedPath := by
    intro h
    obtain ⟨x, hx⟩ := h.typed _ List.mem_cons_self .path spells_path
    cases hx
  have hread : ofText
      "\x7b\"z\":[-0.5e+3,\"\\ud800\"] , \"\\u0070ath\":\"\\ud83d\\ude00\"\x7d" =
        .ok { path := "😀" } := by decide +kernel
  refine ⟨⟨escaped_document, escaped_spelled, escaped_conforms,
    hload.1 escaped_spelled escaped_conforms, load_eq_ok.mpr ⟨hread, by decide⟩⟩,
    mistypedPath_document, hnot, ?_⟩
  exact (load_object mistypedPath_document).2.1 fun h => hnot h.2

/-- Two members, the key of the second of which is an unpaired surrogate. -/
def unpaired : Members := [("path".toList, "\"a\"".toList), ("\\ud800".toList, ['1'])]

theorem unpaired_document : Document unpaired "\x7b\"path\":\"a\",\"\\ud800\":1\x7d" := by
  have hkey : Body "\\ud800".toList :=
    .long (q := ['d', '8', '0', '0']) (.digits rfl rfl rfl rfl) .nil
  have hvalue : Grammar .value "\"a\"".toList :=
    .string (s := ['a']) (Spells.self rfl).body
  have hone : Grammar .value ['1'] :=
    .unsigned (.parts whole_one .none .none)
  have hmembers : Grammar (.members unpaired) _ :=
    .member (.tight (Spells.body spells_path)) hvalue .nil (.lastMember (.tight hkey) hone .nil)
  exact .text .nil (.fullObject hmembers) .nil

theorem unpaired_spells_nothing (t : List Char) : ¬ Spells "\\ud800".toList t := by
  intro h
  have hread := h.readString []
  have hfault : readString ("\\ud800".toList ++ ['"']) = .error (.breach .unfinishedSurrogate) := by
    decide +kernel
  rw [hfault] at hread
  cases hread

/-- An object is refused for a key that spells no text, though no configuration has the member. -/
theorem unpaired_key_refused :
    Document unpaired "\x7b\"path\":\"a\",\"\\ud800\":1\x7d" ∧ Conforms unpaired ∧
      load "\x7b\"path\":\"a\",\"\\ud800\":1\x7d" =
        .error (.configParse (.breach .unfinishedSurrogate)) := by
  have hunpaired (f : Field) : ¬ Names "\\ud800".toList f := unpaired_spells_nothing _
  have hread : ofText "\x7b\"path\":\"a\",\"\\ud800\":1\x7d" =
      .error (.breach .unfinishedSurrogate) := by decide +kernel
  refine ⟨unpaired_document, ⟨List.pairwise_pair.mpr fun f _ => hunpaired f, ?_⟩,
    by rw [load, hread]⟩
  refine List.forall_mem_cons.mpr ⟨fun f hf => ?_, ?_⟩
  · cases names_unique hf spells_path
    exact ⟨_, .text (.self (s := ['a']) rfl)⟩
  · exact List.forall_mem_singleton.mpr fun f hf => absurd hf (hunpaired f)

end StoreConfig

end SingleWriter
