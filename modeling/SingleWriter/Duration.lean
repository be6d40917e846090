/-! Durations: a count of nanoseconds below `2^64` seconds.  Sums and multiples saturate at the
longest duration. -/

namespace SingleWriter

def nanosPerSecond : Nat := 1000000000

/-- The longest duration: one nanosecond less than `2^64` seconds. -/
def maxNanos : Nat := 18446744073709551616 * nanosPerSecond - 1

structure Duration where
  nanos : Nat
  le_max : nanos ≤ maxNanos
deriving DecidableEq

namespace Duration

/-- The duration of `n` nanoseconds, or the longest one. -/
def ofNanos (n : Nat) : Duration := ⟨min n maxNanos, Nat.min_le_right ..⟩

@[simp] theorem nanos_ofNanos (n : Nat) : (ofNanos n).nanos = min n maxNanos := rfl

@[simp] theorem ofNanos_nanos (d : Duration) : ofNanos d.nanos = d := by
  cases d with
  | mk n h => simp [ofNanos, Nat.min_eq_left h]

theorem ext_nanos {a b : Duration} (h : a.nanos = b.nanos) : a = b := by
  cases a; cases b; simp_all

def zero : Duration := ofNanos 0

instance : Inhabited Duration := ⟨zero⟩

def ofSeconds (s : Nat) : Duration := ofNanos (s * nanosPerSecond)

def ofMillis (ms : Nat) : Duration := ofNanos (ms * 1000000)

instance : LE Duration := ⟨fun a b => a.nanos ≤ b.nanos⟩

instance : LT Duration := ⟨fun a b => a.nanos < b.nanos⟩

instance (a b : Duration) : Decidable (a ≤ b) := Nat.decLe ..

instance (a b : Duration) : Decidable (a < b) := Nat.decLt ..

theorem le_def {a b : Duration} : a ≤ b ↔ a.nanos ≤ b.nanos := Iff.rfl

/-- The shorter of two durations. -/
instance : Min Duration := ⟨fun a b => if a ≤ b then a else b⟩

/-- The longer of two durations. -/
instance : Max Duration := ⟨fun a b => if a ≤ b then b else a⟩

@[simp] theorem nanos_min (a b : Duration) : (min a b).nanos = min a.nanos b.nanos := by
  show (if a ≤ b then a else b).nanos = _
  split <;> rename_i h <;> rw [le_def] at h <;> omega

@[simp] theorem nanos_max (a b : Duration) : (max a b).nanos = max a.nanos b.nanos := by
  show (if a ≤ b then b else a).nanos = _
  split <;> rename_i h <;> rw [le_def] at h <;> omega

/-- The sum, or the longest duration. -/
instance : Add Duration := ⟨fun a b => ofNanos (a.nanos + b.nanos)⟩

@[simp] theorem nanos_add (a b : Duration) : (a + b).nanos = min (a.nanos + b.nanos) maxNanos := rfl

/-- The multiple `k * d`, or the longest duration. -/
def times (d : Duration) (k : Nat) : Duration := ofNanos (d.nanos * k)

@[simp] theorem nanos_times (d : Duration) (k : Nat) :
    (d.times k).nanos = min (d.nanos * k) maxNanos := rfl

def seconds (d : Duration) : Nat := d.nanos / nanosPerSecond

def subsecond (d : Duration) : Nat := d.nanos % nanosPerSecond

def millis (d : Duration) : Nat := d.nanos / 1000000

/-- Whole milliseconds as an unsigned word of 64 bits: more than the word holds becomes its
largest value. -/
def wordMillis (d : Duration) : Nat := min d.millis 18446744073709551615

/-- Seconds, a point and exactly nine digits. -/
def toText (d : Duration) : String :=
  let tail := toString d.subsecond
  toString d.seconds ++ "." ++ String.ofList (List.replicate (9 - tail.length) '0') ++ tail

/-- The value of a run of decimal digits, most significant first. -/
def digitsValue (cs : List Char) : Nat :=
  cs.foldl (fun n c => 10 * n + (c.toNat - '0'.toNat)) 0

/-- Reads seconds with at most nine digits after an optional point; short fractions are filled
with zeros on the right. -/
def ofText? (s : String) : Option Duration :=
  let whole := s.toList.takeWhile (· != '.')
  let fraction := (s.toList.dropWhile (· != '.')).drop 1
  if whole.all Char.isDigit && !whole.isEmpty && fraction.all Char.isDigit
      && fraction.length ≤ 9 then
    some (ofNanos (digitsValue whole * nanosPerSecond
      + digitsValue fraction * Nat.pow 10 (9 - fraction.length)))
  else none

end Duration

end SingleWriter
