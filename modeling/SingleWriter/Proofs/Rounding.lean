import Mathlib.Algebra.Order.Field.Power
import Mathlib.Data.Int.Log
import Mathlib.Data.Rat.Floor
import Mathlib.Tactic.FieldSimp
import Mathlib.Tactic.Linarith
import Mathlib.Tactic.NormNum
import Mathlib.Tactic.Positivity
import Mathlib.Tactic.Ring
import SingleWriter.Binary64

/-! Binary64 arithmetic as arithmetic of rational numbers with one rounding, `rounded`.  It goes to
the nearest multiple of the last place, a tie to the even one, and no binary64 number is nearer; it
is monotone, leaves the binary64 numbers alone, and moves no number above the subnormal ones by more
than one part in `2^53`. -/

namespace SingleWriter

/-! ### The nearest natural number -/

/-- No natural number is nearer to `q` than `n`, and of two equally near ones `n` is the even
one. -/
structure Nearest (q : ℚ) (n : ℕ) : Prop where
  near : |(n : ℚ) - q| ≤ 1 / 2
  even : |(n : ℚ) - q| = 1 / 2 → n % 2 = 0

namespace Nearest

variable {p q : ℚ} {m n : ℕ}

theorem of_nat (n : ℕ) : Nearest n n := ⟨by norm_num, by norm_num⟩

theorem mono (hp : Nearest p m) (hq : Nearest q n) (hle : p ≤ q) : m ≤ n := by
  by_contra hlt
  have hmp := abs_le.mp hp.near
  have hnq := abs_le.mp hq.near
  have hsucc : (n : ℚ) + 1 ≤ m := by exact_mod_cast Nat.lt_of_not_le hlt
  -- Both lie half a step away from the same number between them, so both are even.
  have hmid : (m : ℚ) - p = 1 / 2 := by linarith
  have hmid' : (n : ℚ) - q = -(1 / 2) := by linarith
  have hstep : m = n + 1 := by
    have : (m : ℚ) = n + 1 := by linarith
    exact_mod_cast this
  have hm := hp.even (by rw [hmid]; norm_num)
  have hn := hq.even (by rw [hmid']; norm_num)
  omega

theorem unique (hm : Nearest q m) (hn : Nearest q n) : m = n :=
  Nat.le_antisymm (hm.mono hn le_rfl) (hn.mono hm le_rfl)

theorem nearer (h : Nearest q n) (k : ℤ) : |(n : ℚ) - q| ≤ |(k : ℚ) - q| := by
  rcases eq_or_ne (n : ℤ) k with rfl | hne
  · rfl
  have hone : (1 : ℚ) ≤ |(n : ℚ) - k| := by
    have : (1 : ℤ) ≤ |(n : ℤ) - k| := Int.one_le_abs (sub_ne_zero.mpr hne)
    exact_mod_cast this
  have htriangle := abs_sub_le (n : ℚ) q k
  rw [abs_sub_comm q] at htriangle
  linarith [h.near]

end Nearest

theorem roundDivEven_nearest (num : ℕ) {den : ℕ} (hden : 0 < den) :
    Nearest ((num : ℚ) / den) (roundDivEven num den) := by
  have hpos : (0 : ℚ) < den := by exact_mod_cast hden
  have hlt : ((num % den : ℕ) : ℚ) < den := by exact_mod_cast Nat.mod_lt num hden
  have hsplit : (num : ℚ) / den = (num / den : ℕ) + (num % den : ℕ) / den := by
    have hdiv : (den : ℚ) * (num / den : ℕ) + (num % den : ℕ) = num := by
      exact_mod_cast Nat.div_add_mod num den
    rw [← hdiv]
    field_simp
  rw [hsplit, roundDivEven]
  generalize hr : num % den = r at hlt ⊢
  generalize num / den = q
  have hshare : (0 : ℚ) ≤ r / den := by positivity
  split
  case isTrue hbelow =>
    have hhalf : (r : ℚ) / den < 1 / 2 := by
      rw [div_lt_div_iff₀ hpos two_pos]
      exact_mod_cast (by omega : r * 2 < 1 * den)
    have hdist : |(q : ℚ) - (q + r / den)| = r / den := by
      rw [sub_add_cancel_left, abs_neg, abs_of_nonneg hshare]
    exact ⟨by rw [hdist]; exact hhalf.le, fun htie => by rw [hdist] at htie; linarith⟩
  split
  case isTrue habove =>
    have hhalf : 1 / 2 < (r : ℚ) / den := by
      rw [div_lt_div_iff₀ two_pos hpos]
      exact_mod_cast (by omega : 1 * den < r * 2)
    have hone : (r : ℚ) / den < 1 := (div_lt_one hpos).mpr hlt
    have hdist : |((q + 1 : ℕ) : ℚ) - (q + r / den)| = 1 - r / den := by
      rw [Nat.cast_succ, add_sub_add_left_eq_sub, abs_of_pos (sub_pos.mpr hone)]
    exact ⟨by rw [hdist]; linarith, fun htie => by rw [hdist] at htie; linarith⟩
  case isFalse htie htie' =>
    have hhalf : (r : ℚ) / den = 1 / 2 := by
      rw [div_eq_div_iff hpos.ne' two_ne_zero]
      exact_mod_cast (by omega : r * 2 = 1 * den)
    refine ⟨?_, fun _ => by omega⟩
    rcases Nat.mod_two_eq_zero_or_one q with hq | hq
    · rw [hq, hhalf]
      norm_num
    · rw [hq, hhalf]
      norm_num

/-- The natural number nearest to `q`. -/
def nearest (q : ℚ) : ℕ := roundDivEven q.num.toNat q.den

theorem nearest_spec {q : ℚ} (hq : 0 ≤ q) : Nearest q (nearest q) := by
  have h := roundDivEven_nearest q.num.toNat q.pos
  have hnum : ((q.num.toNat : ℕ) : ℚ) = q.num := by
    exact_mod_cast Int.toNat_of_nonneg (Rat.num_nonneg.mpr hq)
  rw [hnum, Rat.num_div_den] at h
  exact h

theorem roundDivEven_eq_nearest (num : ℕ) {den : ℕ} (hden : 0 < den) :
    roundDivEven num den = nearest ((num : ℚ) / den) :=
  (roundDivEven_nearest num hden).unique (nearest_spec (by positivity))

theorem nearest_mono {p q : ℚ} (hp : 0 ≤ p) (hle : p ≤ q) : nearest p ≤ nearest q :=
  (nearest_spec hp).mono (nearest_spec (hp.trans hle)) hle

theorem nearest_natCast (n : ℕ) : nearest n = n :=
  (nearest_spec (Nat.cast_nonneg n)).unique (.of_nat n)

theorem nearest_le_add {q : ℚ} (hq : 0 ≤ q) : (nearest q : ℚ) ≤ q + 1 / 2 := by
  linarith [(abs_le.mp (nearest_spec hq).near).2]

/-! ### The last place -/

/-- The exponent of the last of 53 bits of `q`, or the least exponent that there is. -/
def lastPlace (q : ℚ) : ℤ := max (Int.log 2 q - 52) (-1074)

/-- The binary64 number nearest to `q`, as if there were no largest one. -/
def rounded (q : ℚ) : ℚ := nearest (q / 2 ^ lastPlace q) * 2 ^ lastPlace q

theorem two_zpow_pos (e : ℤ) : (0 : ℚ) < 2 ^ e := zpow_pos two_pos e

theorem log_eq {q : ℚ} {t : ℤ} (hlow : (2 : ℚ) ^ t ≤ q) (hhigh : q < 2 ^ (t + 1)) :
    Int.log 2 q = t := by
  have hq : 0 < q := (two_zpow_pos t).trans_le hlow
  have h1 := (Int.zpow_le_iff_le_log (b := 2) (by decide) hq).mp (by exact_mod_cast hlow)
  have h2 := (Int.lt_zpow_iff_log_lt (b := 2) (by decide) hq).mp (by exact_mod_cast hhigh)
  omega

theorem zpow_log_le {q : ℚ} (hq : 0 < q) : (2 : ℚ) ^ Int.log 2 q ≤ q := by
  exact_mod_cast Int.zpow_log_le_self (b := 2) (by decide) hq

theorem lt_zpow_log (q : ℚ) : q < (2 : ℚ) ^ (Int.log 2 q + 1) := by
  exact_mod_cast Int.lt_zpow_succ_log_self (b := 2) (by decide) q

/-- A power of two as a quotient of natural ones. -/
theorem two_zpow_eq (e : ℤ) :
    (2 : ℚ) ^ e = ((2 ^ e.toNat : ℕ) : ℚ) / ((2 ^ (-e).toNat : ℕ) : ℚ) := by
  rcases le_total 0 e with he | he
  · obtain ⟨n, rfl⟩ := Int.eq_ofNat_of_zero_le he
    simp
  · obtain ⟨n, hn⟩ := Int.eq_ofNat_of_zero_le (Int.neg_nonneg.mpr he)
    obtain rfl : e = -(n : ℤ) := by omega
    simp

theorem ratio_lt_zpow {num den : ℕ} (hden : 0 < den) (t : ℤ) :
    (num : ℚ) / den < 2 ^ t ↔ num * 2 ^ (-t).toNat < den * 2 ^ t.toNat := by
  have hpos : (0 : ℚ) < den := by exact_mod_cast hden
  rw [two_zpow_eq, div_lt_div_iff₀ hpos (by positivity), mul_comm (_ : ℚ) (den : ℚ)]
  exact_mod_cast Iff.rfl

theorem lastBit_eq {num den : ℕ} (hnum : 0 < num) (hden : 0 < den) :
    Binary64.lastBit num den = lastPlace ((num : ℚ) / den) := by
  have hnum2 : ((2 ^ num.log2 : ℕ) : ℚ) ≤ num := by exact_mod_cast Nat.log2_self_le hnum.ne'
  have hnum2' : (num : ℚ) < (2 ^ (num.log2 + 1) : ℕ) := by exact_mod_cast Nat.lt_log2_self
  have hden2 : ((2 ^ den.log2 : ℕ) : ℚ) ≤ den := by exact_mod_cast Nat.log2_self_le hden.ne'
  have hden2' : (den : ℚ) < (2 ^ (den.log2 + 1) : ℕ) := by exact_mod_cast Nat.lt_log2_self
  have hpos : (0 : ℚ) < den := by exact_mod_cast hden
  have hlow : (2 : ℚ) ^ ((num.log2 : ℤ) - den.log2 - 1) ≤ num / den := by
    rw [show (num.log2 : ℤ) - den.log2 - 1 = (num.log2 : ℕ) - (den.log2 + 1 : ℕ) by push_cast; ring,
      zpow_sub₀ two_ne_zero, zpow_natCast, zpow_natCast]
    push_cast at hnum2 hden2'
    exact div_le_div₀ (Nat.cast_nonneg _) hnum2 hpos hden2'.le
  have hhigh : (num : ℚ) / den < 2 ^ ((num.log2 : ℤ) - den.log2 + 1) := by
    rw [show (num.log2 : ℤ) - den.log2 + 1 = (num.log2 + 1 : ℕ) - (den.log2 : ℕ) by push_cast; ring,
      zpow_sub₀ two_ne_zero, zpow_natCast, zpow_natCast]
    push_cast at hnum2' hden2
    exact div_lt_div₀ hnum2' hden2 (by positivity) (by positivity)
  have htop : (num.log2 : ℤ) - den.log2 - 52 + 52 = num.log2 - den.log2 := by ring
  simp only [Binary64.lastBit, Nat.pow_eq, htop, ← ratio_lt_zpow hden]
  split
  case isTrue hlt =>
    rw [lastPlace, log_eq hlow (by simpa using hlt)]
    ring_nf
  case isFalse hge =>
    rw [lastPlace, log_eq (not_lt.mp hge) hhigh]

/-! ### Rounding to 53 bits -/

theorem rounded_zero : rounded 0 = 0 := by
  have h : nearest 0 = 0 := by exact_mod_cast nearest_natCast 0
  rw [rounded, zero_div, h, Nat.cast_zero, zero_mul]

theorem rounded_nonneg (q : ℚ) : 0 ≤ rounded q :=
  mul_nonneg (Nat.cast_nonneg _) (two_zpow_pos _).le

/-- Above the subnormal numbers the first bit is one. -/
theorem zpow_le_of_lastPlace {q : ℚ} (hq : 0 < q) (h : -1074 < lastPlace q) :
    (2 : ℚ) ^ (lastPlace q + 52) ≤ q := by
  have hplace : lastPlace q + 52 = Int.log 2 q := by
    simp only [lastPlace] at *
    omega
  rw [hplace]
  exact zpow_log_le hq

theorem lt_zpow_lastPlace (q : ℚ) : q < (2 : ℚ) ^ (lastPlace q + 53) := by
  refine (lt_zpow_log q).trans_le (zpow_le_zpow_right₀ one_le_two ?_)
  simp only [lastPlace]
  omega

theorem lastPlace_mono {p q : ℚ} (hp : 0 < p) (hle : p ≤ q) : lastPlace p ≤ lastPlace q :=
  max_le_max_right _ (sub_le_sub_right (Int.log_mono_right hp hle) _)

/-- A multiple of the last place with no more than 53 bits, or one above them, is a bound that
rounding keeps. -/
theorem rounded_le_of_le {q : ℚ} (hq : 0 ≤ q) {n : ℕ} (h : q ≤ n * 2 ^ lastPlace q) :
    rounded q ≤ n * 2 ^ lastPlace q := by
  have hpos := two_zpow_pos (lastPlace q)
  have hn : nearest (q / 2 ^ lastPlace q) ≤ n := by
    rw [← nearest_natCast n]
    exact nearest_mono (by positivity) ((div_le_iff₀ hpos).mpr h)
  exact mul_le_mul_of_nonneg_right (by exact_mod_cast hn) hpos.le

theorem le_rounded_of_le {q : ℚ} {n : ℕ} (h : n * 2 ^ lastPlace q ≤ q) :
    n * 2 ^ lastPlace q ≤ rounded q := by
  have hpos := two_zpow_pos (lastPlace q)
  have hn : n ≤ nearest (q / 2 ^ lastPlace q) := by
    rw [← nearest_natCast n]
    exact nearest_mono (Nat.cast_nonneg n) ((le_div_iff₀ hpos).mpr h)
  exact mul_le_mul_of_nonneg_right (by exact_mod_cast hn) hpos.le

theorem rounded_mono {p q : ℚ} (hp : 0 ≤ p) (hle : p ≤ q) : rounded p ≤ rounded q := by
  rcases hp.eq_or_lt with rfl | hp
  · rw [rounded_zero]
    exact rounded_nonneg q
  rcases (lastPlace_mono hp hle).eq_or_lt with hplace | hplace
  · have hpos := two_zpow_pos (lastPlace q)
    rw [rounded, rounded, hplace]
    gcongr
    exact nearest_mono (by positivity) (by gcongr)
  -- A power of two that both last places divide lies between the two.
  · have hbelow : p ≤ (2 ^ 53 : ℕ) * 2 ^ lastPlace p := by
      have := (lt_zpow_lastPlace p).le
      rwa [zpow_add₀ two_ne_zero, mul_comm] at this
    have habove : ((2 ^ 52 : ℕ) : ℚ) * 2 ^ lastPlace q ≤ q := by
      have hnormal : -1074 < lastPlace q := (le_max_right _ _).trans_lt hplace
      have := zpow_le_of_lastPlace (hp.trans_le hle) hnormal
      rwa [zpow_add₀ two_ne_zero, mul_comm] at this
    have hmid : ((2 ^ 53 : ℕ) : ℚ) * 2 ^ lastPlace p ≤ (2 ^ 52 : ℕ) * 2 ^ lastPlace q := by
      have hpow : (2 : ℚ) ^ (lastPlace p + 1) ≤ 2 ^ lastPlace q :=
        zpow_le_zpow_right₀ one_le_two (by omega)
      rw [zpow_add₀ two_ne_zero, zpow_one] at hpow
      push_cast
      linarith
    exact (rounded_le_of_le hp.le hbelow).trans (hmid.trans (le_rounded_of_le habove))

/-- A number of at most 53 bits that is no finer than the subnormal ones. -/
def Grid (q : ℚ) : Prop := ∃ (m : ℕ) (e : ℤ), m < 2 ^ 53 ∧ -1074 ≤ e ∧ q = m * 2 ^ e

theorem Grid.natCast {n : ℕ} (h : n < 2 ^ 53) : Grid n := ⟨n, 0, h, by decide, by simp⟩

/-- Rounding leaves such a number alone. -/
theorem Grid.rounded {q : ℚ} (h : Grid q) : rounded q = q := by
  obtain ⟨m, e, hm, he, rfl⟩ := h
  rcases Nat.eq_zero_or_pos m with rfl | hmpos
  · rw [Nat.cast_zero, zero_mul, rounded_zero]
  have hpos : (0 : ℚ) < m * 2 ^ e := mul_pos (by exact_mod_cast hmpos) (two_zpow_pos e)
  have hplace : lastPlace (m * 2 ^ e) ≤ e := by
    have hlt : (m : ℚ) * 2 ^ e < 2 ^ (53 + e) := by
      rw [zpow_add₀ two_ne_zero]
      exact mul_lt_mul_of_pos_right (by exact_mod_cast hm) (two_zpow_pos e)
    have hlog := (Int.lt_zpow_iff_log_lt (b := 2) (by decide) hpos).mp (by exact_mod_cast hlt)
    exact max_le (by omega) he
  obtain ⟨k, hk⟩ := Int.eq_ofNat_of_zero_le (sub_nonneg.mpr hplace)
  have hexact : (m : ℚ) * 2 ^ e / 2 ^ lastPlace (m * 2 ^ e) = (m * 2 ^ k : ℕ) := by
    rw [mul_div_assoc, ← zpow_sub₀ two_ne_zero, hk]
    simp
  rw [SingleWriter.rounded, hexact, nearest_natCast, ← hexact]
  exact div_mul_cancel₀ _ (two_zpow_pos _).ne'

theorem rounded_natCast {n : ℕ} (h : n < 2 ^ 53) : rounded n = n := (Grid.natCast h).rounded

/-- Distances from `q` are those from its share of the last place. -/
theorem abs_mul_sub (q x : ℚ) (e : ℤ) : |x * 2 ^ e - q| = |x - q / 2 ^ e| * 2 ^ e := by
  have hpos := two_zpow_pos e
  rw [← abs_of_pos hpos, ← abs_mul, abs_of_pos hpos, sub_mul, div_mul_cancel₀ _ hpos.ne']

/-- No number of 53 bits is nearer. -/
theorem rounded_nearest {q x : ℚ} (hq : 0 ≤ q) (hx : Grid x) : |rounded q - q| ≤ |x - q| := by
  obtain ⟨m, e, hm, he, rfl⟩ := hx
  have hpos := two_zpow_pos (lastPlace q)
  have hnearest := nearest_spec (q := q / 2 ^ lastPlace q) (by positivity)
  have hsteps (k : ℤ) : |rounded q - q| ≤ |k * 2 ^ lastPlace q - q| := by
    rw [rounded, abs_mul_sub, abs_mul_sub]
    exact mul_le_mul_of_nonneg_right (hnearest.nearer k) hpos.le
  rcases hq.eq_or_lt with rfl | hqpos
  · rw [rounded_zero, sub_zero, abs_zero]
    exact abs_nonneg _
  rcases le_or_gt (lastPlace q) e with hplace | hplace
  · obtain ⟨k, hk⟩ := Int.eq_ofNat_of_zero_le (sub_nonneg.mpr hplace)
    have hexact : (m : ℚ) * 2 ^ e = ((m * 2 ^ k : ℕ) : ℤ) * 2 ^ lastPlace q := by
      rw [show e = k + lastPlace q by omega, zpow_add₀ two_ne_zero]
      push_cast
      rw [zpow_natCast, mul_assoc]
    rw [hexact]
    exact hsteps _
  -- A number with a finer last place lies below the first bit of `q`, which is nearer.
  · have hfirst : ((2 ^ 52 : ℤ) : ℚ) * 2 ^ lastPlace q ≤ q := by
      have := zpow_le_of_lastPlace hqpos (he.trans_lt hplace)
      rw [zpow_add₀ two_ne_zero, mul_comm] at this
      exact_mod_cast this
    have hbelow : (m : ℚ) * 2 ^ e ≤ ((2 ^ 52 : ℤ) : ℚ) * 2 ^ lastPlace q := by
      have hpow : (2 : ℚ) ^ (e + 1) ≤ 2 ^ lastPlace q :=
        zpow_le_zpow_right₀ one_le_two (by omega)
      have hmle : (m : ℚ) * 2 ^ e ≤ 2 ^ 53 * 2 ^ e :=
        mul_le_mul_of_nonneg_right (by exact_mod_cast hm.le) (two_zpow_pos e).le
      rw [zpow_add₀ two_ne_zero, zpow_one] at hpow
      push_cast
      linarith
    have hdist := hsteps (2 ^ 52)
    rw [abs_of_nonpos (sub_nonpos.mpr hfirst)] at hdist
    rw [abs_of_nonpos (sub_nonpos.mpr (hbelow.trans hfirst))]
    linarith

/-- The error is at most one part in `2^53`. -/
theorem rounded_le_mul {q : ℚ} (hq : (2 : ℚ) ^ (-1022 : ℤ) ≤ q) :
    rounded q ≤ q * (1 + 1 / 2 ^ 53) := by
  have hqpos : 0 < q := (two_zpow_pos _).trans_le hq
  have hpos := two_zpow_pos (lastPlace q)
  have hlog := (Int.zpow_le_iff_le_log (b := 2) (by decide) hqpos).mp (by exact_mod_cast hq)
  have hplace : lastPlace q = Int.log 2 q - 52 := max_eq_left (by omega)
  have hunit : (2 : ℚ) ^ lastPlace q ≤ q / 2 ^ 52 := by
    rw [hplace, zpow_sub₀ two_ne_zero]
    exact div_le_div_of_nonneg_right (zpow_log_le hqpos) (by positivity)
  have hnear := mul_le_mul_of_nonneg_right
    (nearest_le_add (q := q / 2 ^ lastPlace q) (by positivity)) hpos.le
  rw [add_mul, div_mul_cancel₀ _ hpos.ne'] at hnear
  rw [rounded]
  linarith

/-! ### The operations -/

namespace Binary64

/-- The number that `x` stands for. -/
def toRat (x : Binary64) : ℚ := x.mant * 2 ^ x.exp

theorem toRat_nonneg (x : Binary64) : 0 ≤ x.toRat :=
  mul_nonneg (Nat.cast_nonneg _) (two_zpow_pos _).le

theorem den_pos (x : Binary64) : 0 < x.den := Nat.two_pow_pos _

theorem toRat_eq (x : Binary64) : x.toRat = x.num / x.den := by
  rw [toRat, two_zpow_eq, num, den, Nat.pow_eq, Nat.pow_eq, Nat.cast_mul, mul_div_assoc]

theorem toRat_zero : zero.toRat = 0 := by
  rw [toRat, zero, Nat.cast_zero, zero_mul]

/-- The mantissa that `ofRatio?` computes is that of the rounded quotient. -/
theorem mant_mul_zpow {num den : ℕ} (hden : 0 < den) (e : ℤ) :
    roundDivEven (num * Nat.pow 2 (-e).toNat) (den * Nat.pow 2 e.toNat) =
      nearest ((num : ℚ) / den / 2 ^ e) := by
  rw [Nat.pow_eq, Nat.pow_eq, roundDivEven_eq_nearest _ (Nat.mul_pos hden (Nat.two_pow_pos _)),
    two_zpow_eq, Nat.cast_mul, Nat.cast_mul, div_div_div_eq]

theorem mul_zpow_lt_iff (m k : ℕ) (e : ℤ) :
    (m : ℚ) * 2 ^ e < 2 ^ k ↔
      m * Nat.pow 2 e.toNat < Nat.pow 2 k * Nat.pow 2 (-e).toNat := by
  rw [Nat.pow_eq, Nat.pow_eq, Nat.pow_eq, two_zpow_eq, ← mul_div_assoc, div_lt_iff₀ (by positivity)]
  exact_mod_cast Iff.rfl

/-- A quotient is rounded, unless it lies beyond the largest number. -/
theorem ofRatio?_cases (num : ℕ) {den : ℕ} (hden : 0 < den) :
    (∃ x, ofRatio? num den = some x ∧ x.toRat = rounded ((num : ℚ) / den)) ∨
      ofRatio? num den = none ∧ (2 : ℚ) ^ 1024 ≤ rounded ((num : ℚ) / den) := by
  rcases Nat.eq_zero_or_pos num with rfl | hnum
  · left
    refine ⟨zero, if_pos rfl, ?_⟩
    rw [toRat_zero, Nat.cast_zero, zero_div, rounded_zero]
  rw [ofRatio?, if_neg hnum.ne']
  simp only [lastBit_eq hnum hden, mant_mul_zpow hden]
  rw [rounded]
  generalize lastPlace ((num : ℚ) / den) = e
  generalize nearest ((num : ℚ) / den / 2 ^ e) = m
  generalize 1024 = k
  split
  case isTrue => exact .inl ⟨⟨m, e⟩, rfl, rfl⟩
  case isFalse hge => exact .inr ⟨rfl, not_lt.mp ((mul_zpow_lt_iff m k e).not.mpr hge)⟩

theorem le_iff {x y : Binary64} : x.le y = true ↔ x.toRat ≤ y.toRat := by
  have hx : (0 : ℚ) < x.den := by exact_mod_cast x.den_pos
  have hy : (0 : ℚ) < y.den := by exact_mod_cast y.den_pos
  rw [le, decide_eq_true_iff, toRat_eq, toRat_eq, div_le_div_iff₀ hx hy]
  exact_mod_cast Iff.rfl

end Binary64

end SingleWriter
