import Mathlib.Data.List.Basic
import SingleWriter.Proofs.Spelling
import SingleWriter.Store

/-! Configurations and their texts.  A configuration that is written and read again is the same. -/

namespace SingleWriter.StoreConfig

open Json

/-- The numbers of a configuration fit the words that hold them. -/
structure Fits (c : StoreConfig) : Prop where
  maxOpenConns : c.maxOpenConns ≤ max32
  maxIdleConns : c.maxIdleConns ≤ max32
  connMaxLifetimeMs : c.connMaxLifetimeMs ≤ max64
  busyTimeoutMs : c.busyTimeoutMs ≤ max64
  maxRetries : c.maxRetries ≤ max32
  baseDelayMs : c.baseDelayMs ≤ max64
  maxDelayMs : c.maxDelayMs ≤ max64
  checkpointIntervalMs : ∀ n ∈ c.checkpointIntervalMs, n ≤ max64

/-- A configuration with one member of `d`. -/
def assign (d c : StoreConfig) : Field → StoreConfig
  | .path => { c with path := d.path }
  | .maxOpenConns => { c with maxOpenConns := d.maxOpenConns }
  | .maxIdleConns => { c with maxIdleConns := d.maxIdleConns }
  | .connMaxLifetimeMs => { c with connMaxLifetimeMs := d.connMaxLifetimeMs }
  | .busyTimeoutMs => { c with busyTimeoutMs := d.busyTimeoutMs }
  | .enableWal => { c with enableWal := d.enableWal }
  | .txImmediate => { c with txImmediate := d.txImmediate }
  | .useNativeQueuing => { c with useNativeQueuing := d.useNativeQueuing }
  | .maxRetries => { c with maxRetries := d.maxRetries }
  | .baseDelayMs => { c with baseDelayMs := d.baseDelayMs }
  | .maxDelayMs => { c with maxDelayMs := d.maxDelayMs }
  | .checkpointIntervalMs => { c with checkpointIntervalMs := d.checkpointIntervalMs }
  | .checkpointMode => { c with checkpointMode := d.checkpointMode }

theorem assign_all (d c : StoreConfig) : Field.all.foldl d.assign c = d := by
  simp only [Field.all, List.foldl_cons, List.foldl_nil, assign]

theorem Field.ofKey?_key (f : Field) : ofKey? f.key = some f := by
  cases f <;> rfl

variable {d : StoreConfig} {s rest : List Char}

/-- A member is read from its written value, with blanks before it or not. -/
theorem readField_written (hd : d.Fits) (c : StoreConfig) (f : Field)
    (hs : skipBlank s = (d.fieldValue f).write ++ rest) (hrest : EndsNumber rest) :
    c.readField f s = .ok (d.assign c f, rest) := by
  have word32 {n : Nat} (hn : n ≤ max32) (hs : skipBlank s = writeNumber (.natural n) ++ rest) :
      readNatural max32 "u32" s = .ok (n, rest) :=
    readNatural_written hs hn (by decide) hrest _
  have word64 {n : Nat} (hn : n ≤ max64) (hs : skipBlank s = writeNumber (.natural n) ++ rest) :
      readNatural max64 "u64" s = .ok (n, rest) :=
    readNatural_written hs hn (Nat.le_refl _) hrest _
  cases f with
  | path | checkpointMode =>
    simp only [readField, readText_written hs]
    rfl
  | enableWal | txImmediate | useNativeQueuing =>
    simp only [readField, readBoolean_written hs]
    rfl
  | maxOpenConns =>
    simp only [readField, word32 hd.maxOpenConns hs]
    rfl
  | maxIdleConns =>
    simp only [readField, word32 hd.maxIdleConns hs]
    rfl
  | maxRetries =>
    simp only [readField, word32 hd.maxRetries hs]
    rfl
  | connMaxLifetimeMs =>
    simp only [readField, word64 hd.connMaxLifetimeMs hs]
    rfl
  | busyTimeoutMs =>
    simp only [readField, word64 hd.busyTimeoutMs hs]
    rfl
  | baseDelayMs =>
    simp only [readField, word64 hd.baseDelayMs hs]
    rfl
  | maxDelayMs =>
    simp only [readField, word64 hd.maxDelayMs hs]
    rfl
  | checkpointIntervalMs =>
    have hread : readOptional (readNatural max64 "u64") s = .ok (d.checkpointIntervalMs, rest) := by
      cases hinterval : d.checkpointIntervalMs with
      | none =>
        simp only [fieldValue, hinterval] at hs
        exact readOptional_null hs
      | some n =>
        simp only [fieldValue, hinterval] at hs
        exact readOptional_natural hs (hd.checkpointIntervalMs n hinterval) (Nat.le_refl _) hrest _
    simp only [readField, hread]
    rfl

/-! ### Objects -/

theorem skipBlank_fieldValue (d : StoreConfig) (f : Field) (rest : List Char) :
    skipBlank ((d.fieldValue f).write ++ rest) = (d.fieldValue f).write ++ rest := by
  cases f with
  | path | checkpointMode => rfl
  | enableWal | txImmediate | useNativeQueuing => exact skipBlank_boolean _ rest
  | checkpointIntervalMs =>
    cases hb : d.checkpointIntervalMs <;> simp only [fieldValue, hb]
    · rfl
    · exact skipBlank_natural _ rest
  | maxOpenConns | maxIdleConns | connMaxLifetimeMs | busyTimeoutMs | maxRetries | baseDelayMs
  | maxDelayMs => exact skipBlank_natural _ rest

/-- A member as it is written. -/
def member (d : StoreConfig) (f : Field) : List Char :=
  writeString f.key ++ ':' :: (d.fieldValue f).write

theorem member_append (d : StoreConfig) (f : Field) (r : List Char) :
    d.member f ++ r =
      '"' :: (f.key.toList.flatMap escapeChar ++ '"' :: ':' :: ((d.fieldValue f).write ++ r)) := by
  simp [member, writeString]

/-- Members as they are written after another one. -/
def members (d : StoreConfig) (fs : List Field) : List Char := fs.flatMap fun f => ',' :: d.member f

theorem writeMembers_fields (d : StoreConfig) (f : Field) (fs : List Field) :
    writeMembers ((f :: fs).map fun f => (f.key, d.fieldValue f)) =
      d.member f ++ d.members fs := by
  induction fs generalizing f with
  | nil => simp [writeMembers, member, members]
  | cons g fs ih =>
    simp only [List.map_cons] at ih ⊢
    rw [writeMembers, ih g]
    simp [member, members]

theorem endsNumber_members (d : StoreConfig) (fs : List Field) :
    EndsNumber (d.members fs ++ ['\x7d']) := by
  intro c hc
  cases fs with
  | nil =>
    cases hc
    decide
  | cons f fs =>
    cases hc
    decide

/-- The next member of an object is read. -/
theorem readFields_member (hd : d.Fits) (c : StoreConfig) {f : Field} {seen : List Field}
    (hf : f ∉ seen) {fuel : Nat} {first : Bool}
    (hnext : nextKey first s = .ok (some (f.key.toList.flatMap escapeChar ++
      '"' :: ':' :: ((d.fieldValue f).write ++ rest)))) (hrest : EndsNumber rest) :
    readFields (fuel + 1) first seen c s =
      readFields fuel false (f :: seen) (d.assign c f) rest := by
  have hvalue := readField_written hd c f (skipBlank_fieldValue d f rest) hrest
  have hcolon (r : List Char) : skipBlank (':' :: r) = ':' :: r := rfl
  simp only [readFields, hnext, readString_written, String.ofList_toList, Field.ofKey?_key, hf,
    if_false, Json.readColon, hcolon, if_true, hvalue]

theorem readFields_members (hd : d.Fits) {fs : List Field} (hnodup : fs.Nodup) (c : StoreConfig)
    {seen : List Field} (hseen : ∀ f ∈ fs, f ∉ seen) {fuel : Nat} (hfuel : fs.length < fuel) :
    readFields fuel false seen c (d.members fs ++ ['\x7d']) = .ok (fs.foldl d.assign c, []) := by
  induction fs generalizing c seen fuel with
  | nil =>
    obtain ⟨fuel, rfl⟩ := Nat.exists_eq_add_one_of_ne_zero (Nat.ne_of_gt hfuel)
    rfl
  | cons f fs ih =>
    obtain ⟨fuel, rfl⟩ := Nat.exists_eq_add_one_of_ne_zero (Nat.ne_of_gt (Nat.zero_lt_of_lt hfuel))
    rw [List.nodup_cons] at hnodup
    rw [List.forall_mem_cons] at hseen
    rw [readFields_member hd c hseen.1 ?next (endsNumber_members d fs)]
    · refine ih hnodup.2 (d.assign c f) (fun g hg => ?_) (Nat.lt_of_succ_lt_succ hfuel)
      rw [List.mem_cons, not_or]
      exact ⟨fun hgf => hnodup.1 (hgf ▸ hg), hseen.2 g hg⟩
    case next =>
      rw [members, List.flatMap_cons, List.cons_append, List.cons_append, List.append_assoc,
        member_append]
      rfl

theorem toText_toList (d : StoreConfig) : d.toText.toList =
    '\x7b' :: (d.member .path ++ (d.members Field.all.tail ++ ['\x7d'])) := by
  have hmembers := writeMembers_fields d .path Field.all.tail
  rw [toText, Value.toText, String.toList_ofList, toJson, Value.write]
  show '\x7b' :: writeMembers ((.path :: Field.all.tail).map _) ++ _ = _
  rw [hmembers, List.cons_append, List.append_assoc]

theorem read_object (r : List Char) :
    read ('\x7b' :: r) = readFields (stepBound r) true [] {} r := rfl

theorem ofText_toText (hd : d.Fits) : ofText d.toText = .ok d := by
  have hlength : 7 ≤ (d.member .path).length := by
    have hkey : (writeString "path").length = 6 := rfl
    show 7 ≤ (writeString "path" ++ _ :: _).length
    rw [List.length_append, List.length_cons, hkey]
    omega
  have hnext : nextKey true (d.member .path ++ (d.members Field.all.tail ++ ['\x7d'])) =
      .ok (some (Field.path.key.toList.flatMap escapeChar ++ '"' :: ':' ::
        ((d.fieldValue .path).write ++ (d.members Field.all.tail ++ ['\x7d'])))) := by
    rw [member_append]
    rfl
  obtain ⟨fuel, hfuel⟩ := Nat.exists_eq_add_of_le'
    (show 14 ≤ stepBound (d.member .path ++ (d.members Field.all.tail ++ ['\x7d'])) by
      simp only [stepBound, List.length_append]
      omega)
  have hrest : readFields (fuel + 13) false [.path] (d.assign {} .path)
      (d.members Field.all.tail ++ ['\x7d']) =
        .ok (Field.all.tail.foldl d.assign (d.assign {} .path), []) :=
    readFields_members hd (by decide) _ (by decide) (by simp [Field.all])
  rw [ofText, toText_toList, read_object, hfuel,
    readFields_member hd {} (List.not_mem_nil) hnext (endsNumber_members d _), hrest]
  have hall : Field.all.tail.foldl d.assign (d.assign {} .path) = d := by
    rw [← List.foldl_cons]
    exact d.assign_all {}
  rw [hall]
  rfl

/-! ### What texts spell -/

theorem fits_default : Fits {} := by
  refine ⟨?_, ?_, ?_, ?_, ?_, ?_, ?_, ?_⟩ <;> decide

theorem Fits.readField {c c' : StoreConfig} (h : c.Fits) {f : Field}
    (hread : c.readField f s = .ok (c', rest)) : c'.Fits := by
  cases f with
  | path | checkpointMode | enableWal | txImmediate | useNativeQueuing =>
    obtain ⟨_, -, heq⟩ := map_eq_ok hread
    cases heq
    exact { h with }
  | maxOpenConns =>
    obtain ⟨_, hn, heq⟩ := map_eq_ok hread
    cases heq
    exact { h with maxOpenConns := readNatural_le hn }
  | maxIdleConns =>
    obtain ⟨_, hn, heq⟩ := map_eq_ok hread
    cases heq
    exact { h with maxIdleConns := readNatural_le hn }
  | connMaxLifetimeMs =>
    obtain ⟨_, hn, heq⟩ := map_eq_ok hread
    cases heq
    exact { h with connMaxLifetimeMs := readNatural_le hn }
  | busyTimeoutMs =>
    obtain ⟨_, hn, heq⟩ := map_eq_ok hread
    cases heq
    exact { h with busyTimeoutMs := readNatural_le hn }
  | maxRetries =>
    obtain ⟨_, hn, heq⟩ := map_eq_ok hread
    cases heq
    exact { h with maxRetries := readNatural_le hn }
  | baseDelayMs =>
    obtain ⟨_, hn, heq⟩ := map_eq_ok hread
    cases heq
    exact { h with baseDelayMs := readNatural_le hn }
  | maxDelayMs =>
    obtain ⟨_, hn, heq⟩ := map_eq_ok hread
    cases heq
    exact { h with maxDelayMs := readNatural_le hn }
  | checkpointIntervalMs =>
    obtain ⟨⟨interval, _⟩, hread, heq⟩ := map_eq_ok hread
    cases heq
    refine { h with checkpointIntervalMs := fun n hn => ?_ }
    obtain rfl : interval = some n := hn
    exact readNatural_le (of_readOptional hread)

variable {c c' : StoreConfig}

theorem Fits.readFields {fuel : Nat} {first : Bool} {seen : List Field} (h : c.Fits)
    (hread : StoreConfig.readFields fuel first seen c s = .ok (c', rest)) : c'.Fits := by
  induction fuel generalizing first seen c s with
  | zero => cases hread
  | succ fuel ih =>
    simp only [StoreConfig.readFields] at hread
    split at hread
    · cases hread
    · cases hread
      exact h
    · split at hread
      · cases hread
      · split at hread
        · split at hread
          · cases hread
          · split at hread
            · cases hread
            · exact ih h hread
        · split at hread
          · cases hread
          · split at hread
            · cases hread
            · split at hread
              · cases hread
              · rename_i hfield
                exact ih (h.readField hfield) hread

theorem Fits.readPlaces {fs : List Field} {first : Bool} (h : c.Fits)
    (hread : StoreConfig.readPlaces first c s fs = .ok (c', rest)) : c'.Fits := by
  induction fs generalizing first c s with
  | nil =>
    obtain ⟨_, -, heq⟩ := map_eq_ok hread
    cases heq
    exact h
  | cons f fs ih =>
    simp only [StoreConfig.readPlaces] at hread
    split at hread
    · cases hread
    · cases hread
      exact h
    · split at hread
      · cases hread
      · rename_i hfield
        exact ih (h.readField hfield) hread

theorem fits_of_read (hread : read s = .ok (c, rest)) : c.Fits := by
  unfold read at hread
  split at hread
  · cases hread
  · split at hread
    · exact fits_default.readPlaces hread
    · split at hread
      · exact fits_default.readFields hread
      · cases hread

theorem fits_of_ofText {text : String} (h : ofText text = .ok c) : c.Fits := by
  unfold ofText at h
  split at h
  · cases h
  · rename_i hread
    obtain ⟨_, -, rfl⟩ := map_eq_ok h
    exact fits_of_read hread

/-! ### Loading -/

theorem load_eq_ok {text : String} : load text = .ok c ↔ ofText text = .ok c ∧ c.path ≠ "" := by
  unfold load
  cases ofText text with
  | error e => simp
  | ok c' =>
    by_cases hpath : c'.path = ""
    · have hinvalid : c'.validate = .error .pathRequired := by simp [validate, isValid, hpath]
      simp only [hinvalid, Except.map]
      refine iff_of_false (by simp) ?_
      rintro ⟨hc, hne⟩
      cases hc
      exact hne hpath
    · have hvalid : c'.validate = .ok () := by simp [validate, isValid, hpath]
      simp only [hvalid, Except.map]
      refine ⟨fun hc => ?_, fun hc => ?_⟩
      · cases hc
        exact ⟨rfl, hpath⟩
      · rw [Except.ok.inj hc.1]

/-- A configuration with a path whose numbers fit their words is read back from its text just as it
was.  So what a text spells is spelled by the text of the configuration that was read from it. -/
theorem load_toText :
    (∀ c : StoreConfig, c.path ≠ "" → c.Fits → load c.toText = .ok c) ∧
      ∀ (text : String) (c : StoreConfig), load text = .ok c → load c.toText = .ok c := by
  have hback (c : StoreConfig) (hpath : c.path ≠ "") (hfits : c.Fits) : load c.toText = .ok c :=
    load_eq_ok.mpr ⟨ofText_toText hfits, hpath⟩
  refine ⟨hback, fun text c hload => ?_⟩
  obtain ⟨htext, hpath⟩ := load_eq_ok.mp hload
  exact hback c hpath (fits_of_ofText htext)

/-- Escapes of every kind, characters of one to four bytes, and the greatest numbers. -/
def ornate : StoreConfig where
  path := "q\"b\\s/\x00\x08\x0c\n\r\t\x1f\x7f\u00e9\u2028😀"
  maxOpenConns := max32
  maxIdleConns := 0
  connMaxLifetimeMs := max64
  busyTimeoutMs := 10
  enableWal := false
  maxRetries := max32
  baseDelayMs := max64
  checkpointIntervalMs := some max64
  checkpointMode := "\x00\""

theorem load_toText_ornate :
    ornate.path ≠ "" ∧ ornate.Fits ∧ load ornate.toText = .ok ornate ∧
      let text := "\x7b \"ignored\" : [0], \"path\" : \"\\u0061\" \x7d"
      load text = .ok { path := "a" } ∧ load (toText { path := "a" }) = .ok { path := "a" } := by
  have hpath : ornate.path ≠ "" := by decide
  have hfits : ornate.Fits := by
    refine ⟨?_, ?_, ?_, ?_, ?_, ?_, ?_, ?_⟩ <;> decide
  have hread : ofText "\x7b \"ignored\" : [0], \"path\" : \"\\u0061\" \x7d" =
      .ok { path := "a" } := by decide +kernel
  have hload := load_eq_ok.mpr ⟨hread, by decide⟩
  exact ⟨hpath, hfits, load_toText.1 ornate hpath hfits, hload, load_toText.2 _ _ hload⟩

end SingleWriter.StoreConfig
