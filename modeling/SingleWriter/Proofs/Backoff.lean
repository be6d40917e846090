import Mathlib.Data.UInt
import Mathlib.Order.Monotone.Basic
import SingleWriter.RetryPolicy

/-! The wait between two attempts.  It is a duration in two words, whole seconds and the nanoseconds
below a second, that is multiplied with a carry; the product saturates where the seconds do not fit
their word.  No step of it overflows, and the cap hides the saturation, so the wait is the product
over the natural numbers within its two bounds for as long as the number of doublings grows. -/

namespace SingleWriter

/-! ### Durations in machine words -/

/-- A duration as the machine has it. -/
structure Words where
  seconds : UInt64
  subsecond : UInt32
  subsecond_lt : subsecond.toNat < nanosPerSecond
deriving DecidableEq

namespace Words

def nanos (w : Words) : Nat := w.seconds.toNat * nanosPerSecond + w.subsecond.toNat

theorem nanos_le (w : Words) : w.nanos ≤ maxNanos := by
  have hseconds := w.seconds.toNat_lt
  have hsubsecond := w.subsecond_lt
  simp only [nanos, maxNanos, nanosPerSecond] at *
  omega

def duration (w : Words) : Duration := ⟨w.nanos, w.nanos_le⟩

theorem duration_inj {a b : Words} (h : a.duration = b.duration) : a = b := by
  obtain ⟨s, n, hn⟩ := a
  obtain ⟨t, m, hm⟩ := b
  have hnanos := congrArg Duration.nanos h
  simp only [duration, nanos, nanosPerSecond] at hnanos hn hm
  have hs : s = t := UInt64.toNat_inj.mp (by omega)
  have hm : n = m := UInt32.toNat_inj.mp (by omega)
  subst hs hm
  rfl

/-- The longest duration. -/
def longest : Words := ⟨18446744073709551615, 999999999, by decide⟩

theorem nanos_longest : longest.nanos = maxNanos := by decide

/-- Seconds decide first. -/
instance : LE Words :=
  ⟨fun a b => a.seconds < b.seconds ∨ a.seconds = b.seconds ∧ a.subsecond ≤ b.subsecond⟩

instance (a b : Words) : Decidable (a ≤ b) :=
  inferInstanceAs (Decidable (a.seconds < b.seconds ∨ _ ∧ _))

instance : Min Words := ⟨fun a b => if a ≤ b then a else b⟩

instance : Max Words := ⟨fun a b => if a ≤ b then b else a⟩

theorem le_iff_duration {a b : Words} : a ≤ b ↔ a.duration ≤ b.duration := by
  have ha := a.subsecond_lt
  have hb := b.subsecond_lt
  show a.seconds < b.seconds ∨ a.seconds = b.seconds ∧ a.subsecond ≤ b.subsecond ↔
    a.nanos ≤ b.nanos
  rw [UInt64.lt_iff_toNat_lt, ← UInt64.toNat_inj, UInt32.le_iff_toNat_le]
  simp only [nanos, nanosPerSecond] at *
  omega

theorem duration_min (a b : Words) : (min a b).duration = min a.duration b.duration := by
  show (if a ≤ b then a else b).duration =
    if a.duration ≤ b.duration then a.duration else b.duration
  simp only [le_iff_duration]
  split <;> rfl

theorem duration_max (a b : Words) : (max a b).duration = max a.duration b.duration := by
  show (if a ≤ b then b else a).duration =
    if a.duration ≤ b.duration then b.duration else a.duration
  simp only [le_iff_duration]
  split <;> rfl

/-! ### Multiples -/

/-- The product of two words, or nothing if it does not fit one. -/
def product? (a b : UInt64) : Option UInt64 :=
  if a.toNat * b.toNat < UInt64.size then some (a * b) else none

/-- The sum of two words, or nothing if it does not fit one. -/
def sum? (a b : UInt64) : Option UInt64 :=
  if a.toNat + b.toNat < UInt64.size then some (a + b) else none

/-- A product with a carry. -/
def carried? (a b carry : UInt64) : Option UInt64 := (product? a b).bind (sum? · carry)

theorem carried?_cases (a b carry : UInt64) :
    (∃ t, carried? a b carry = some t ∧ t.toNat = a.toNat * b.toNat + carry.toNat) ∨
      carried? a b carry = none ∧ UInt64.size ≤ a.toNat * b.toNat + carry.toNat := by
  by_cases hproduct : a.toNat * b.toNat < UInt64.size
  · have hab : (a * b).toNat = a.toNat * b.toNat := by
      rw [UInt64.toNat_mul]
      exact Nat.mod_eq_of_lt hproduct
    rw [carried?, product?, if_pos hproduct, Option.bind_some, sum?, hab]
    by_cases hsum : a.toNat * b.toNat + carry.toNat < UInt64.size
    · left
      refine ⟨a * b + carry, if_pos hsum, ?_⟩
      rw [UInt64.toNat_add, hab]
      exact Nat.mod_eq_of_lt hsum
    · right
      exact ⟨if_neg hsum, Nat.le_of_not_lt hsum⟩
  · right
    rw [carried?, product?, if_neg hproduct]
    exact ⟨rfl, Nat.le_add_right_of_le (Nat.le_of_not_lt hproduct)⟩

/-- The nanoseconds below a second times a factor; this always fits a word of 64 bits. -/
def part (w : Words) (k : UInt32) : UInt64 := w.subsecond.toUInt64 * k.toUInt64

theorem toNat_part (w : Words) (k : UInt32) :
    (w.part k).toNat = w.subsecond.toNat * k.toNat := by
  have hw : w.subsecond.toNat < 2 ^ 32 := w.subsecond.toNat_lt
  have hk : k.toNat < 2 ^ 32 := k.toNat_lt
  rw [part, UInt64.toNat_mul, UInt32.toNat_toUInt64, UInt32.toNat_toUInt64]
  apply Nat.mod_eq_of_lt
  calc w.subsecond.toNat * k.toNat < 2 ^ 32 * 2 ^ 32 := Nat.mul_lt_mul'' hw hk
    _ = 2 ^ 64 := by decide

theorem toNat_part_mod (w : Words) (k : UInt32) :
    (w.part k % 1000000000).toUInt32.toNat = w.subsecond.toNat * k.toNat % nanosPerSecond := by
  rw [UInt64.toNat_toUInt32, UInt64.toNat_mod, toNat_part]
  exact Nat.mod_eq_of_lt (lt_trans (Nat.mod_lt _ (by decide)) (by decide))

theorem toNat_part_div (w : Words) (k : UInt32) :
    (w.part k / 1000000000).toNat = w.subsecond.toNat * k.toNat / nanosPerSecond := by
  rw [UInt64.toNat_div, toNat_part]
  rfl

/-- The multiple with the carry from the nanoseconds, or nothing if the seconds do not fit. -/
def times? (w : Words) (k : UInt32) : Option Words :=
  (carried? w.seconds k.toUInt64 (w.part k / 1000000000)).map fun seconds =>
    ⟨seconds, (w.part k % 1000000000).toUInt32, by
      rw [toNat_part_mod]
      exact Nat.mod_lt _ (by decide)⟩

theorem nanos_mul (w : Words) (k : UInt32) :
    w.nanos * k.toNat =
      (w.seconds.toNat * k.toUInt64.toNat + (w.part k / 1000000000).toNat) * nanosPerSecond +
        (w.part k % 1000000000).toUInt32.toNat := by
  rw [toNat_part_div, toNat_part_mod, UInt32.toNat_toUInt64, nanos, Nat.add_mul,
    Nat.mul_right_comm, Nat.add_mul, Nat.add_assoc, Nat.div_add_mod']

/-- The seconds with the carry fit their word exactly when the product is a duration. -/
theorem duration_times (w : Words) (k : UInt32) :
    ((w.times? k).getD longest).duration = w.duration.times k.toNat := by
  apply Duration.ext_nanos
  rw [Duration.nanos_times]
  show ((w.times? k).getD longest).nanos = min (w.nanos * k.toNat) maxNanos
  rcases carried?_cases w.seconds k.toUInt64 (w.part k / 1000000000) with
    ⟨t, hsome, hexact⟩ | ⟨hnone, hover⟩
  · have hnanos : ((w.times? k).getD longest).nanos = w.nanos * k.toNat := by
      rw [times?, hsome, nanos_mul, ← hexact]
      rfl
    rw [← hnanos, Nat.min_eq_left (nanos_le _)]
  · have hlarge : maxNanos ≤ w.nanos * k.toNat := by
      rw [nanos_mul]
      calc maxNanos ≤ UInt64.size * nanosPerSecond := by decide
        _ ≤ _ := Nat.le_add_right_of_le (Nat.mul_le_mul_right _ hover)
    rw [times?, hnone, Nat.min_eq_right hlarge]
    exact nanos_longest

end Words

/-- A duration split into its words. -/
def Duration.words (d : Duration) : Words where
  seconds := UInt64.ofNat d.seconds
  subsecond := UInt32.ofNat d.subsecond
  subsecond_lt := by
    have hlt : d.subsecond < nanosPerSecond := Nat.mod_lt _ (by decide)
    rw [UInt32.toNat_ofNat_of_lt' (lt_trans hlt (by decide))]
    exact hlt

@[simp] theorem Duration.duration_words (d : Duration) : d.words.duration = d := by
  apply Duration.ext_nanos
  have hle := d.le_max
  have hseconds : d.seconds < UInt64.size := by
    simp only [seconds, maxNanos, nanosPerSecond, UInt64.size] at *
    omega
  have hsubsecond : d.subsecond < UInt32.size :=
    lt_trans (Nat.mod_lt _ (by decide) : _ < nanosPerSecond) (by decide)
  show d.words.nanos = d.nanos
  rw [Words.nanos, words, UInt64.toNat_ofNat_of_lt' hseconds, UInt32.toNat_ofNat_of_lt' hsubsecond]
  exact Nat.div_add_mod' d.nanos nanosPerSecond

/-! ### The wait in machine words -/

namespace Words

/-- A one moved left in a word of 32 bits; it overflows if it would leave the word. -/
def shiftedOne? (e : UInt32) : Option UInt32 := if e < 32 then some (1 <<< e) else none

/-- The number of doublings, with a difference that stops at zero. -/
def doublings (a : UInt32) : UInt32 := min (if a = 0 then 0 else a - 1) 31

/-- The wait after attempt `a`, or nothing if a step of it overflows. -/
def backoff? (base cap : Words) (a : UInt32) : Option Words :=
  (shiftedOne? (doublings a)).map fun k =>
    max (min ((base.times? k).getD longest) cap) base

theorem toNat_doublings (a : UInt32) : (doublings a).toNat = RetryPolicy.doublings a.toNat := by
  rw [doublings, UInt32.toNat_min, RetryPolicy.doublings]
  by_cases ha : a = 0
  · rw [if_pos ha, ha]
    rfl
  · have hpos : 1 ≤ a := by
      rw [UInt32.le_iff_toNat_le]
      exact Nat.one_le_iff_ne_zero.mpr fun h => ha (UInt32.toNat_inj.mp h)
    rw [if_neg ha, UInt32.toNat_sub_of_le _ _ hpos]
    rfl

/-- The exponent stays below the width of the word, so the factor is the power of two itself. -/
theorem shiftedOne?_doublings (a : UInt32) :
    ∃ k, shiftedOne? (doublings a) = some k ∧
      k.toNat = Nat.pow 2 (RetryPolicy.doublings a.toNat) := by
  have hle : RetryPolicy.doublings a.toNat ≤ 31 := Nat.min_le_right ..
  have hlt : doublings a < 32 := by
    rw [UInt32.lt_iff_toNat_lt, toNat_doublings]
    exact Nat.lt_succ_of_le hle
  refine ⟨1 <<< doublings a, if_pos hlt, ?_⟩
  rw [UInt32.toNat_shiftLeft, toNat_doublings, Nat.mod_eq_of_lt (Nat.lt_succ_of_le hle),
    show (1 : UInt32).toNat = 1 from rfl, Nat.one_shiftLeft]
  apply Nat.mod_eq_of_lt
  exact Nat.pow_lt_pow_right (by decide) (Nat.lt_succ_of_le hle)

theorem backoff?_eq (p : RetryPolicy) (a : UInt32) :
    backoff? p.baseDelay.words p.maxDelay.words a = some (p.baseBackoff a.toNat).words := by
  obtain ⟨k, hk, hpow⟩ := shiftedOne?_doublings a
  rw [backoff?, hk, Option.map_some]
  apply congrArg some
  apply duration_inj
  rw [Duration.duration_words, duration_max, duration_min, duration_times,
    Duration.duration_words, Duration.duration_words, hpow]
  apply Duration.ext_nanos
  rw [RetryPolicy.baseBackoff, Duration.nanos_max, Duration.nanos_min, Duration.nanos_max,
    Duration.nanos_min, Nat.max_comm, Nat.min_comm p.maxDelay.nanos]

end Words

/-! ### The wait over the natural numbers -/

namespace RetryPolicy

variable (p : RetryPolicy)

/-- The longest duration is never below the cap, so the cap hides where the product saturates. -/
theorem nanos_baseBackoff (a : Nat) :
    (p.baseBackoff a).nanos =
      max p.baseDelay.nanos (min p.maxDelay.nanos (p.baseDelay.nanos * 2 ^ doublings a)) := by
  have hcap := p.maxDelay.le_max
  rw [baseBackoff, Duration.nanos_max, Duration.nanos_min, Duration.nanos_times, ← Nat.min_assoc,
    Nat.min_right_comm, Nat.min_eq_left hcap]
  rfl

theorem baseBackoff_le (a : Nat) : p.baseBackoff a ≤ max p.baseDelay p.maxDelay := by
  rw [Duration.le_def, Duration.nanos_max, nanos_baseBackoff]
  omega

theorem doublings_mono : Monotone doublings := by
  intro a b h
  simp only [doublings]
  omega

theorem nanos_baseBackoff_mono : Monotone fun a => (p.baseBackoff a).nanos := by
  intro a b h
  have hpow : p.baseDelay.nanos * 2 ^ doublings a ≤ p.baseDelay.nanos * 2 ^ doublings b :=
    Nat.mul_le_mul_left _ (Nat.pow_le_pow_right (by decide) (doublings_mono h))
  simp only [nanos_baseBackoff]
  omega

theorem baseBackoff_constant (k : Nat) : p.baseBackoff (32 + k) = p.baseBackoff 32 := by
  have hstops : doublings (32 + k) = doublings 32 := by
    simp only [doublings]
    omega
  rw [baseBackoff, baseBackoff, hstops]

/-- Beyond attempt 32 the product goes on to grow while the wait does not: they agree only if the
wait is at its cap by then, or if there is nothing to double. -/
theorem baseBackoff_eq_unbounded_iff (a : Nat) :
    (p.baseBackoff a).nanos =
        max p.baseDelay.nanos (min p.maxDelay.nanos (p.baseDelay.nanos * 2 ^ (a - 1))) ↔
      a ≤ 32 ∨ p.baseDelay.nanos = 0 ∨ p.maxDelay.nanos ≤ p.baseDelay.nanos * 2 ^ 31 := by
  rw [nanos_baseBackoff]
  by_cases hearly : a ≤ 32
  · have hexp : doublings a = a - 1 := Nat.min_eq_left (by omega)
    simp [hexp, hearly]
  by_cases hzero : p.baseDelay.nanos = 0
  · simp [hzero]
  have hexp : doublings a = 31 := Nat.min_eq_right (by omega)
  have hdouble : p.baseDelay.nanos * 2 ^ 31 < p.baseDelay.nanos * 2 ^ (a - 1) :=
    Nat.mul_lt_mul_of_pos_left (Nat.pow_lt_pow_right (by decide) (by omega)) (by omega)
  have hbase : p.baseDelay.nanos ≤ p.baseDelay.nanos * 2 ^ 31 :=
    Nat.le_mul_of_pos_right _ (by decide)
  simp only [hearly, hzero, false_or, hexp]
  omega

/-- What the wait after each attempt is: computed in machine words without an overflow, between the
base delay and the longer of the base delay and the cap, never shorter than after an earlier
attempt and the same from attempt 32 on.  It is the base delay doubled for each attempt before, over
the natural numbers and within its bounds, exactly until attempt 32, or for ever if the doubled
delay has reached the cap by then or is nothing at all. -/
theorem baseBackoff_doubles_to_cap :
    (∀ a : UInt32,
        Words.backoff? p.baseDelay.words p.maxDelay.words a = some (p.baseBackoff a.toNat).words) ∧
      (∀ a, p.baseDelay ≤ p.baseBackoff a ∧ p.baseBackoff a ≤ max p.baseDelay p.maxDelay) ∧
      (Monotone fun a => (p.baseBackoff a).nanos) ∧
      (∀ k, p.baseBackoff (32 + k) = p.baseBackoff 32) ∧
      ∀ a, (p.baseBackoff a).nanos =
          max p.baseDelay.nanos (min p.maxDelay.nanos (p.baseDelay.nanos * 2 ^ (a - 1))) ↔
        a ≤ 32 ∨ p.baseDelay.nanos = 0 ∨ p.maxDelay.nanos ≤ p.baseDelay.nanos * 2 ^ 31 := by
  refine ⟨Words.backoff?_eq p, fun a => ⟨p.baseDelay_le_baseBackoff a, p.baseBackoff_le a⟩,
    p.nanos_baseBackoff_mono, p.baseBackoff_constant, p.baseBackoff_eq_unbounded_iff⟩

end RetryPolicy

end SingleWriter
