import SingleWriter.Proofs.Rounding
import SingleWriter.RetryPolicy

/-! The share of the wait that jitter adds.  It is a product of binary64 numbers that are rounded
four times on the way, so it may come to a little more than a quarter of the wait, but by less than
one part in `2^50` and a nanosecond.  Each step stays far below the largest number, whatever the
jitter is, and the wait grows with the jitter. -/

namespace SingleWriter

/-! ### The steps, with overflow -/

namespace Binary64

variable {num den : ℕ} {x y : Binary64}

theorem ofRatio_eq (h : ofRatio? num den = some x) : ofRatio num den = x := by
  rw [ofRatio, h, Option.getD_some]

/-- No quotient up to `2^100` overflows, and no step here goes beyond it. -/
theorem ofRatio?_of_le (hden : 0 < den) (h : (num : ℚ) / den ≤ 2 ^ 100) :
    ∃ x, ofRatio? num den = some x ∧ x.toRat = rounded ((num : ℚ) / den) := by
  rcases ofRatio?_cases num hden with hsome | ⟨-, hlarge⟩
  · exact hsome
  have hgrid : Grid (2 ^ 100) := ⟨1, 100, by decide, by decide, by norm_num⟩
  have hle : rounded ((num : ℚ) / den) ≤ 2 ^ 100 := by
    rw [← hgrid.rounded]
    exact rounded_mono (by positivity) h
  have hlt : (2 : ℚ) ^ 100 < 2 ^ 1024 := pow_lt_pow_right₀ one_lt_two (by decide)
  exact absurd (hlarge.trans hle) hlt.not_ge

theorem ofRatio?_natCast {n : ℕ} (h : (n : ℚ) ≤ 2 ^ 100) :
    ∃ x, ofRatio? n 1 = some x ∧ x.toRat = rounded n := by
  have hvalue : (n : ℚ) = (n : ℚ) / (1 : ℕ) := by rw [Nat.cast_one, div_one]
  rw [hvalue] at h ⊢
  exact ofRatio?_of_le one_pos h

/-- The sum, or nothing if it overflows. -/
def add? (x y : Binary64) : Option Binary64 :=
  ofRatio? (x.num * y.den + y.num * x.den) (x.den * y.den)

/-- The quotient, or nothing if it overflows. -/
def div? (x y : Binary64) : Option Binary64 := ofRatio? (x.num * y.den) (x.den * y.num)

theorem mul?_of_le (h : x.toRat * y.toRat ≤ 2 ^ 100) :
    ∃ z, mul? x y = some z ∧ z.toRat = rounded (x.toRat * y.toRat) := by
  have hvalue : x.toRat * y.toRat = ((x.num * y.num : ℕ) : ℚ) / (x.den * y.den : ℕ) := by
    rw [toRat_eq, toRat_eq, div_mul_div_comm, Nat.cast_mul, Nat.cast_mul]
  rw [hvalue] at h ⊢
  exact ofRatio?_of_le (Nat.mul_pos x.den_pos y.den_pos) h

theorem add?_of_le (h : x.toRat + y.toRat ≤ 2 ^ 100) :
    ∃ z, add? x y = some z ∧ z.toRat = rounded (x.toRat + y.toRat) := by
  have hx : (x.den : ℚ) ≠ 0 := by exact_mod_cast x.den_pos.ne'
  have hy : (y.den : ℚ) ≠ 0 := by exact_mod_cast y.den_pos.ne'
  have hvalue : x.toRat + y.toRat =
      ((x.num * y.den + y.num * x.den : ℕ) : ℚ) / (x.den * y.den : ℕ) := by
    rw [toRat_eq, toRat_eq, div_add_div _ _ hx hy]
    push_cast
    ring
  rw [hvalue] at h ⊢
  exact ofRatio?_of_le (Nat.mul_pos x.den_pos y.den_pos) h

theorem div?_of_le (hy : 0 < y.toRat) (h : x.toRat / y.toRat ≤ 2 ^ 100) :
    ∃ z, div? x y = some z ∧ z.toRat = rounded (x.toRat / y.toRat) := by
  have hnum : 0 < y.num := by
    rw [Nat.pos_iff_ne_zero]
    intro hzero
    rw [toRat_eq, hzero, Nat.cast_zero, zero_div] at hy
    exact hy.false
  have hvalue : x.toRat / y.toRat = ((x.num * y.den : ℕ) : ℚ) / (x.den * y.num : ℕ) := by
    rw [toRat_eq, toRat_eq, div_div_div_eq, Nat.cast_mul, Nat.cast_mul]
  rw [hvalue] at h ⊢
  exact ofRatio?_of_le (Nat.mul_pos x.den_pos hnum) h

end Binary64

open Binary64

/-! ### Seconds -/

theorem cast_nanosPerSecond : ((nanosPerSecond : ℕ) : ℚ) = 10 ^ 9 := by norm_num [nanosPerSecond]

/-- A duration in seconds, or nothing if a step overflows. -/
def seconds? (d : Duration) : Option Binary64 :=
  (ofRatio? d.seconds 1).bind fun whole =>
    (ofRatio? d.subsecond 1).bind fun part =>
      (ofRatio? nanosPerSecond 1).bind fun unit =>
        (div? part unit).bind fun share => add? whole share

/-- The value of a duration in seconds as it is computed. -/
def secondsValue (d : Duration) : ℚ :=
  rounded (rounded d.seconds + rounded (d.subsecond / nanosPerSecond))

theorem rounded_le_one {q : ℚ} (hq : 0 ≤ q) (h : q ≤ 1) : rounded q ≤ 1 := by
  have hone : rounded 1 = 1 := by exact_mod_cast rounded_natCast (n := 1) (by decide)
  rw [← hone]
  exact rounded_mono hq h

theorem seconds?_eq (d : Duration) :
    ∃ x, seconds? d = some x ∧ x.toRat = secondsValue d ∧ Binary64.ofDuration d = x := by
  have hwhole : (d.seconds : ℚ) ≤ 2 ^ 64 := by
    have : d.seconds ≤ 2 ^ 64 := by
      have := d.le_max
      simp only [Duration.seconds, maxNanos, nanosPerSecond] at *
      omega
    exact_mod_cast this
  have hpart : d.subsecond < nanosPerSecond := Nat.mod_lt _ (by decide)
  have hpartRat : (d.subsecond : ℚ) < nanosPerSecond := by exact_mod_cast hpart
  have hunit := cast_nanosPerSecond
  obtain ⟨whole, hw, hwv⟩ := ofRatio?_natCast (n := d.seconds) (by linarith)
  obtain ⟨part, hp, hpv⟩ := ofRatio?_natCast (n := d.subsecond) (by linarith)
  obtain ⟨unit, hu, huv⟩ := ofRatio?_natCast (n := nanosPerSecond) (by linarith)
  rw [rounded_natCast (lt_trans hpart (by decide))] at hpv
  rw [rounded_natCast (by decide)] at huv
  have hshare : part.toRat / unit.toRat ≤ 1 := by
    rw [hpv, huv]
    exact div_le_one_of_le₀ hpartRat.le (Nat.cast_nonneg _)
  obtain ⟨share, hs, hsv⟩ := div?_of_le (x := part) (y := unit) (by rw [huv, hunit]; norm_num)
    (by linarith)
  have hsle : share.toRat ≤ 1 := by
    rw [hsv]
    exact rounded_le_one (div_nonneg part.toRat_nonneg unit.toRat_nonneg) hshare
  have hwle : whole.toRat ≤ 2 ^ 64 := by
    have hgrid : Grid (2 ^ 64) := ⟨1, 64, by decide, by decide, by norm_num⟩
    rw [hwv, ← hgrid.rounded]
    exact rounded_mono (Nat.cast_nonneg _) hwhole
  obtain ⟨sum, ht, htv⟩ := add?_of_le (x := whole) (y := share) (by linarith)
  refine ⟨sum, ?_, ?_, ?_⟩
  · rw [seconds?, hw, Option.bind_some, hp, Option.bind_some, hu, Option.bind_some, hs,
      Option.bind_some, ht]
  · rw [htv, hwv, hsv, hpv, huv, secondsValue]
  · rw [Binary64.ofDuration, ofNat, ofNat, ofNat, ofRatio_eq hw, ofRatio_eq hp, ofRatio_eq hu,
      Binary64.div, ofRatio_eq hs, Binary64.add, ofRatio_eq ht]

/-- A product with one more part in `2^53` for each rounding. -/
def grown (q : ℚ) : ℚ := q * (1 + 1 / 2 ^ 53)

/-- Multiples of a normal number are normal or zero, so rounding them adds one part in `2^53`. -/
theorem rounded_le_grown {p r : ℚ} (n : ℕ) (hp : 0 ≤ p) (hr : (2 : ℚ) ^ (-1022 : ℤ) ≤ r)
    (h : p ≤ n * r) : rounded p ≤ n * grown r := by
  rcases Nat.eq_zero_or_pos n with rfl | hn
  · rw [Nat.cast_zero, zero_mul] at h ⊢
    rw [le_antisymm h hp, rounded_zero]
  have hone : (1 : ℚ) ≤ n := by exact_mod_cast hn
  have hnormal : (2 : ℚ) ^ (-1022 : ℤ) ≤ n * r :=
    hr.trans (le_mul_of_one_le_left ((two_zpow_pos _).le.trans hr) hone)
  calc rounded p ≤ rounded (n * r) := rounded_mono hp h
    _ ≤ n * r * (1 + 1 / 2 ^ 53) := rounded_le_mul hnormal
    _ = n * grown r := mul_assoc _ _ _

theorem normal_of_le {r : ℚ} (h : 1 / 2 ^ 32 ≤ r) : (2 : ℚ) ^ (-1022 : ℤ) ≤ r := by
  refine le_trans ?_ h
  rw [one_div, ← zpow_natCast, ← zpow_neg]
  exact zpow_le_zpow_right₀ one_le_two (by decide)

/-- The seconds come out too large by no more than two roundings. -/
theorem secondsValue_le (d : Duration) :
    secondsValue d ≤ d.nanos * grown (grown (1 / nanosPerSecond)) := by
  have hwhole : rounded d.seconds ≤ d.seconds * grown 1 :=
    rounded_le_grown _ (Nat.cast_nonneg _) (normal_of_le (by norm_num)) (mul_one _).ge
  have hpart : rounded (d.subsecond / nanosPerSecond) ≤
      d.subsecond * grown (1 / nanosPerSecond) := by
    refine rounded_le_grown _ (by positivity) (normal_of_le ?_) (mul_one_div _ _).ge
    rw [cast_nanosPerSecond]
    norm_num
  have hsplit : (d.nanos : ℚ) = d.seconds * nanosPerSecond + d.subsecond := by
    exact_mod_cast (Nat.div_add_mod' d.nanos nanosPerSecond).symm
  refine rounded_le_grown _ (add_nonneg (rounded_nonneg _) (rounded_nonneg _)) (normal_of_le ?_) ?_
  · rw [cast_nanosPerSecond, grown]
    norm_num
  · refine (add_le_add hwhole hpart).trans_eq ?_
    rw [hsplit, cast_nanosPerSecond, grown, grown]
    ring

/-! ### The share of the wait -/

/-- The product that jitter adds to the wait in seconds, or nothing if a step overflows. -/
def jitterProduct? (wait : Duration) (jitter : Signed64) : Option Binary64 :=
  (ofRatio? 1 4).bind fun quarter =>
    (mul? quarter (RetryPolicy.jitterUnit jitter)).bind fun share =>
      (seconds? wait).bind fun seconds => mul? share seconds

/-- The number that a jitter stands for, unless it is infinite or none. -/
def Signed64.value? : Signed64 → Option ℚ
  | .finite negative x => some (if negative then -x.toRat else x.toRat)
  | .infinite _ => none
  | .nan => none

/-- A jitter brought within zero and one; what is no finite number counts as zero. -/
def Signed64.unit (j : Signed64) : ℚ := max 0 (min (j.value?.getD 0) 1)

theorem Signed64.unit_nonneg (j : Signed64) : 0 ≤ j.unit := le_max_left _ _

theorem Signed64.unit_le_one (j : Signed64) : j.unit ≤ 1 :=
  max_le zero_le_one (min_le_right _ _)

theorem Signed64.unit_eq_zero {j : Signed64} (h : ∀ v ∈ j.value?, v ≤ 0) : j.unit = 0 := by
  rw [unit]
  cases hv : j.value? with
  | none => simp
  | some v =>
    have hle := h v hv
    rw [Option.getD_some, min_eq_left (hle.trans zero_le_one), max_eq_left hle]

theorem Signed64.unit_eq_one {j : Signed64} (h : ∃ v ∈ j.value?, 1 ≤ v) : j.unit = 1 := by
  obtain ⟨v, hv, hle⟩ := h
  rw [unit, Option.mem_def.mp hv, Option.getD_some, min_eq_right hle, max_eq_right zero_le_one]

theorem Signed64.unit_mono {j j' : Signed64} (h : ∃ v ∈ j.value?, ∃ w ∈ j'.value?, v ≤ w) :
    j.unit ≤ j'.unit := by
  obtain ⟨v, hv, w, hw, hle⟩ := h
  rw [unit, unit, Option.mem_def.mp hv, Option.mem_def.mp hw]
  exact max_le_max_left _ (min_le_min_right _ hle)

theorem toRat_ofNat_one : (Binary64.ofNat 1).toRat = 1 := by
  obtain ⟨x, hx, hvalue⟩ := ofRatio?_natCast (n := 1) (by norm_num)
  rw [rounded_natCast (by decide), Nat.cast_one] at hvalue
  rw [Binary64.ofNat, ofRatio_eq hx, hvalue]

theorem toRat_jitterUnit (j : Signed64) : (RetryPolicy.jitterUnit j).toRat = j.unit := by
  cases j with
  | finite negative x =>
    have hx := x.toRat_nonneg
    cases negative with
    | true =>
      show zero.toRat = _
      rw [toRat_zero, Signed64.unit]
      simp [Signed64.value?, hx]
    | false =>
      rw [RetryPolicy.jitterUnit, Signed64.unit]
      simp only [Signed64.value?, Option.getD_some, Bool.false_eq_true, if_false]
      split
      case isTrue hle =>
        rw [le_iff, toRat_ofNat_one] at hle
        rw [min_eq_left hle, max_eq_right hx]
      case isFalse hgt =>
        rw [le_iff, toRat_ofNat_one, not_le] at hgt
        rw [toRat_ofNat_one, min_eq_right hgt.le, max_eq_right zero_le_one]
  | infinite | nan =>
    show zero.toRat = _
    rw [toRat_zero, Signed64.unit]
    simp [Signed64.value?]

/-- The value of the product as it is computed. -/
def productValue (d : Duration) (u : ℚ) : ℚ := rounded (rounded (1 / 4 * u) * secondsValue d)

section Bounds

variable (d : Duration) {u w : ℚ}

theorem nanos_le_pow : (d.nanos : ℚ) ≤ 2 ^ 64 * 10 ^ 9 := by
  have : d.nanos ≤ 2 ^ 64 * 10 ^ 9 := d.le_max.trans (by decide)
  exact_mod_cast this

theorem quarter_le (hu : 0 ≤ u) (h : u ≤ 1) : rounded (1 / 4 * u) ≤ 1 / 4 := by
  have hgrid : Grid (1 / 4) := ⟨1, -2, by decide, by decide, by norm_num⟩
  calc rounded (1 / 4 * u) ≤ rounded (1 / 4) := rounded_mono (by positivity) (by linarith)
    _ = 1 / 4 := hgrid.rounded

theorem secondsValue_nonneg : 0 ≤ secondsValue d := rounded_nonneg _

theorem productValue_nonneg : 0 ≤ productValue d u := rounded_nonneg _

theorem productValue_mono (hu : 0 ≤ u) (h : u ≤ w) : productValue d u ≤ productValue d w := by
  have hshare : rounded (1 / 4 * u) ≤ rounded (1 / 4 * w) :=
    rounded_mono (by positivity) (by linarith)
  exact rounded_mono (mul_nonneg (rounded_nonneg _) (secondsValue_nonneg d))
    (mul_le_mul_of_nonneg_right hshare (secondsValue_nonneg d))

theorem productValue_zero : productValue d 0 = 0 := by
  rw [productValue, mul_zero, rounded_zero, zero_mul, rounded_zero]

/-- The product before its own rounding is a quarter of the seconds at most. -/
theorem share_mul_le (hu : 0 ≤ u) (h : u ≤ 1) :
    rounded (1 / 4 * u) * secondsValue d ≤
      d.nanos * (grown (grown (1 / nanosPerSecond)) / 4) := by
  have hseconds := secondsValue_le d
  calc rounded (1 / 4 * u) * secondsValue d ≤ 1 / 4 * secondsValue d :=
        mul_le_mul_of_nonneg_right (quarter_le hu h) (secondsValue_nonneg d)
    _ ≤ 1 / 4 * (d.nanos * grown (grown (1 / nanosPerSecond))) := by linarith
    _ = _ := by ring

theorem share_mul_le_pow (hu : 0 ≤ u) (h : u ≤ 1) :
    rounded (1 / 4 * u) * secondsValue d ≤ 2 ^ 100 := by
  refine (share_mul_le d hu h).trans ?_
  rw [cast_nanosPerSecond, grown, grown]
  calc _ ≤ 2 ^ 64 * 10 ^ 9 * (1 / 10 ^ 9 * (1 + 1 / 2 ^ 53) * (1 + 1 / 2 ^ 53) / 4 : ℚ) :=
        mul_le_mul_of_nonneg_right (nanos_le_pow d) (by positivity)
    _ ≤ 2 ^ 100 := by norm_num

/-- Three roundings make less than one part in `2^50`. -/
theorem productValue_le (hu : 0 ≤ u) (h : u ≤ 1) :
    productValue d u * nanosPerSecond ≤ d.nanos / 4 * (1 + 1 / 2 ^ 50) := by
  have hle : productValue d u ≤ d.nanos * grown (grown (grown (1 / nanosPerSecond)) / 4) := by
    refine rounded_le_grown _ (mul_nonneg (rounded_nonneg _) (secondsValue_nonneg d))
      (normal_of_le ?_) (share_mul_le d hu h)
    rw [cast_nanosPerSecond, grown, grown]
    norm_num
  have hfactor : grown (grown (grown (1 / nanosPerSecond)) / 4) * nanosPerSecond ≤
      1 / 4 * (1 + 1 / 2 ^ 50) := by
    rw [cast_nanosPerSecond, grown, grown, grown]
    norm_num
  have hnanos : (0 : ℚ) ≤ d.nanos := Nat.cast_nonneg _
  calc productValue d u * nanosPerSecond
      ≤ d.nanos * grown (grown (grown (1 / nanosPerSecond)) / 4) * nanosPerSecond :=
        mul_le_mul_of_nonneg_right hle (Nat.cast_nonneg _)
    _ = d.nanos * (grown (grown (grown (1 / nanosPerSecond)) / 4) * nanosPerSecond) :=
        mul_assoc _ _ _
    _ ≤ d.nanos * (1 / 4 * (1 + 1 / 2 ^ 50)) := mul_le_mul_of_nonneg_left hfactor hnanos
    _ = _ := by ring

theorem productValue_le_seconds (hu : 0 ≤ u) (h : u ≤ 1) : productValue d u ≤ 2 ^ 63 := by
  have hmax := nanos_le_pow d
  have hle := productValue_le d hu h
  rw [cast_nanosPerSecond] at hle
  linarith

/-- The jitter in nanoseconds fits a duration without a cap. -/
theorem nearest_productValue_le (hu : 0 ≤ u) (h : u ≤ 1) :
    nearest (productValue d u * nanosPerSecond) ≤ maxNanos := by
  have hseconds := productValue_le_seconds d hu h
  have hnear := nearest_le_add (q := productValue d u * nanosPerSecond)
    (mul_nonneg (productValue_nonneg d) (Nat.cast_nonneg _))
  rw [cast_nanosPerSecond] at hnear
  have hmax : ((maxNanos : ℕ) : ℚ) = 2 ^ 64 * 10 ^ 9 - 1 := by norm_num [maxNanos, nanosPerSecond]
  have hle : (nearest (productValue d u * nanosPerSecond) : ℚ) ≤ maxNanos := by
    rw [hmax, cast_nanosPerSecond]
    calc _ ≤ productValue d u * 10 ^ 9 + 1 / 2 := hnear
      _ ≤ 2 ^ 63 * 10 ^ 9 + 1 / 2 := by gcongr
      _ ≤ 2 ^ 64 * 10 ^ 9 - 1 := by norm_num
  exact_mod_cast hle

end Bounds

/-- Every step of the product is computed without overflow, and it is what jitter adds. -/
theorem jitterProduct?_eq (d : Duration) (j : Signed64) :
    ∃ x, jitterProduct? d j = some x ∧ x.toRat = productValue d j.unit ∧
      RetryPolicy.jitterPart d j = x.toDuration := by
  have hgrid : Grid (1 / 4) := ⟨1, -2, by decide, by decide, by norm_num⟩
  have hsmall : ((1 : ℕ) : ℚ) / (4 : ℕ) ≤ 2 ^ 100 := by norm_num
  obtain ⟨quarter, hq, hqv⟩ := ofRatio?_of_le (by decide) hsmall
  rw [show ((1 : ℕ) : ℚ) / (4 : ℕ) = 1 / 4 by norm_num, hgrid.rounded] at hqv
  have hone := j.unit_le_one
  have hzero := j.unit_nonneg
  obtain ⟨share, hs, hsv⟩ := mul?_of_le (x := quarter) (y := RetryPolicy.jitterUnit j) (by
    rw [hqv, toRat_jitterUnit]
    linarith)
  rw [hqv, toRat_jitterUnit] at hsv
  obtain ⟨seconds, ht, htv, hduration⟩ := seconds?_eq d
  have hsmall : share.toRat * seconds.toRat ≤ 2 ^ 100 := by
    rw [hsv, htv]
    exact share_mul_le_pow d hzero hone
  obtain ⟨x, hx, hxv⟩ := mul?_of_le hsmall
  refine ⟨x, ?_, by rw [hxv, hsv, htv, productValue], ?_⟩
  · rw [jitterProduct?, hq, Option.bind_some, hs, Option.bind_some, ht, Option.bind_some, hx]
  · have hshare : quarter.mul (RetryPolicy.jitterUnit j) = share := by
      rw [mul, hs, Option.getD_some]
    rw [RetryPolicy.jitterPart, ofRatio_eq hq, hshare, hduration, mul, hx, Option.getD_some]

theorem nanos_toDuration (x : Binary64) :
    x.toDuration.nanos = min (nearest (x.toRat * nanosPerSecond)) maxNanos := by
  rw [toDuration, Duration.nanos_ofNanos, roundDivEven_eq_nearest _ x.den_pos, Nat.cast_mul,
    toRat_eq, div_mul_eq_mul_div]

/-- The nanoseconds that jitter adds; the cap at the longest duration is never reached. -/
theorem nanos_jitterPart (d : Duration) (j : Signed64) :
    (RetryPolicy.jitterPart d j).nanos = nearest (productValue d j.unit * nanosPerSecond) := by
  obtain ⟨x, -, hvalue, hpart⟩ := jitterProduct?_eq d j
  rw [hpart, nanos_toDuration, hvalue]
  exact Nat.min_eq_left (nearest_productValue_le d j.unit_nonneg j.unit_le_one)

theorem jitterPart_mono (d : Duration) {j j' : Signed64} (h : j.unit ≤ j'.unit) :
    RetryPolicy.jitterPart d j ≤ RetryPolicy.jitterPart d j' := by
  rw [Duration.le_def, nanos_jitterPart, nanos_jitterPart]
  exact nearest_mono (mul_nonneg (productValue_nonneg d) (Nat.cast_nonneg _))
    (mul_le_mul_of_nonneg_right (productValue_mono d j.unit_nonneg h) (Nat.cast_nonneg _))

theorem jitterPart_zero (d : Duration) {j : Signed64} (h : j.unit = 0) :
    (RetryPolicy.jitterPart d j).nanos = 0 := by
  rw [nanos_jitterPart, h, productValue_zero, zero_mul]
  exact_mod_cast nearest_natCast 0

theorem jitterPart_le (d : Duration) (j : Signed64) :
    ((RetryPolicy.jitterPart d j).nanos : ℚ) ≤ d.nanos / 4 * (1 + 1 / 2 ^ 50) + 1 / 2 := by
  have hproduct := productValue_le d j.unit_nonneg j.unit_le_one
  have hnear := nearest_le_add (q := productValue d j.unit * nanosPerSecond)
    (mul_nonneg (productValue_nonneg d) (Nat.cast_nonneg _))
  rw [nanos_jitterPart]
  linarith

namespace RetryPolicy

variable (p : RetryPolicy) (a : ℕ)

theorem backoffDelay_mono {j j' : Signed64} (h : j.unit ≤ j'.unit) :
    p.backoffDelay a j ≤ p.backoffDelay a j' := by
  have hpart := jitterPart_mono (p.baseBackoff a) h
  rw [Duration.le_def] at hpart ⊢
  rw [backoffDelay, backoffDelay, Duration.nanos_add, Duration.nanos_add]
  exact min_le_min_right _ (Nat.add_le_add_left hpart _)

theorem backoffDelay_of_unit_zero {j : Signed64} (h : j.unit = 0) :
    p.backoffDelay a j = p.baseBackoff a := by
  apply Duration.ext_nanos
  rw [backoffDelay, Duration.nanos_add, jitterPart_zero _ h, Nat.add_zero]
  exact Nat.min_eq_left (p.baseBackoff a).le_max

theorem backoffDelay_congr {j j' : Signed64} (h : j.unit = j'.unit) :
    p.backoffDelay a j = p.backoffDelay a j' := by
  apply Duration.ext_nanos
  rw [backoffDelay, backoffDelay, Duration.nanos_add, Duration.nanos_add, nanos_jitterPart,
    nanos_jitterPart, h]

theorem backoffDelay_le (j : Signed64) :
    ((p.backoffDelay a j).nanos : ℚ) ≤
      min ((p.baseBackoff a).nanos + (p.baseBackoff a).nanos / 4 * (1 + 1 / 2 ^ 50) + 1 : ℚ)
        maxNanos := by
  have hpart := jitterPart_le (p.baseBackoff a) j
  rw [backoffDelay, Duration.nanos_add, Nat.cast_min, Nat.cast_add]
  apply min_le_min_right
  linarith

/-- The wait with jitter, whatever the jitter is.  Its product is a finite number of seconds that a
duration holds, rounded to the nearest nanosecond.  The wait lies between the wait without jitter
and a quarter more with what the roundings add; jitter that is no finite number or not above zero
adds nothing, all jitter from one on adds the same, and more jitter never makes the wait shorter. -/
theorem backoffDelay_within_quarter :
    (∀ j, ∃ x, jitterProduct? (p.baseBackoff a) j = some x ∧ 0 ≤ x.toRat ∧ x.toRat < 2 ^ 64 ∧
        (jitterPart (p.baseBackoff a) j).nanos = nearest (x.toRat * nanosPerSecond)) ∧
      (∀ j, p.baseBackoff a ≤ p.backoffDelay a j ∧
        ((p.backoffDelay a j).nanos : ℚ) ≤
          min ((p.baseBackoff a).nanos + (p.baseBackoff a).nanos / 4 * (1 + 1 / 2 ^ 50) + 1 : ℚ)
            maxNanos) ∧
      (∀ j : Signed64, (∀ v ∈ j.value?, v ≤ 0) → p.backoffDelay a j = p.baseBackoff a) ∧
      (∀ j : Signed64, (∃ v ∈ j.value?, 1 ≤ v) →
        p.backoffDelay a j = p.backoffDelay a (.finite false (.ofNat 1))) ∧
      ∀ j j' : Signed64, (∃ v ∈ j.value?, ∃ w ∈ j'.value?, v ≤ w) →
        p.backoffDelay a j ≤ p.backoffDelay a j' := by
  refine ⟨?product, fun j => ⟨p.baseBackoff_le_backoffDelay a j, p.backoffDelay_le a j⟩,
    fun j h => p.backoffDelay_of_unit_zero a (Signed64.unit_eq_zero h), ?full,
    fun j j' h => p.backoffDelay_mono a (Signed64.unit_mono h)⟩
  case product =>
    intro j
    obtain ⟨x, hx, hvalue, -⟩ := jitterProduct?_eq (p.baseBackoff a) j
    refine ⟨x, hx, x.toRat_nonneg, ?_, ?_⟩
    · rw [hvalue]
      have := productValue_le_seconds (p.baseBackoff a) j.unit_nonneg j.unit_le_one
      linarith
    · rw [nanos_jitterPart, hvalue]
  case full =>
    intro j h
    apply backoffDelay_congr
    rw [Signed64.unit_eq_one h]
    refine (Signed64.unit_eq_one ⟨1, ?_, le_rfl⟩).symm
    rw [Signed64.value?, toRat_ofNat_one]
    rfl

end RetryPolicy

end SingleWriter
