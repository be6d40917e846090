import SingleWriter.Binary64

/-! When a failed write is tried again: how often, and how long to wait before.  The wait doubles
with each attempt up to a cap, and jitter adds up to a quarter of it. -/

namespace SingleWriter

/-- How writes of one coordinator take turns: in the engine's own queue of waiting connections, or
under a lock of the coordinator. -/
inductive Strategy where
  | nativeQueuing
  | mutex
deriving DecidableEq

def Strategy.ofNativeQueuing (native : Bool) : Strategy := if native then nativeQueuing else mutex

structure RetryPolicy where
  maxRetries : Nat := 10
  baseDelay : Duration := .ofMillis 100
  maxDelay : Duration := .ofSeconds 5
  strategy : Strategy := .nativeQueuing
deriving DecidableEq

namespace RetryPolicy

def maxAttempts (p : RetryPolicy) : Nat := max 1 p.maxRetries

theorem one_le_maxAttempts (p : RetryPolicy) : 1 ≤ p.maxAttempts := Nat.le_max_left ..

/-- The number of doublings before the wait after attempt `a`; it stops growing at 31. -/
def doublings (a : Nat) : Nat := min (a - 1) 31

/-- The wait after attempt `a` without jitter: never above the cap unless the base delay is. -/
def baseBackoff (p : RetryPolicy) (a : Nat) : Duration :=
  max p.baseDelay (min p.maxDelay (p.baseDelay.times (Nat.pow 2 (doublings a))))

/-- The share of the jitter that is used: within 0 and 1, and 0 if it is no finite number. -/
def jitterUnit : Signed64 → Binary64
  | .finite false x => if x.le (Binary64.ofNat 1) then x else Binary64.ofNat 1
  | _ => .zero

/-- The extra wait: a quarter of `wait` times the jitter, rounded after each step. -/
def jitterPart (wait : Duration) (jitter : Signed64) : Duration :=
  (((Binary64.ofRatio 1 4).mul (jitterUnit jitter)).mul (.ofDuration wait)).toDuration

/-- The wait after attempt `a` with jitter. -/
def backoffDelay (p : RetryPolicy) (a : Nat) (jitter : Signed64) : Duration :=
  p.baseBackoff a + jitterPart (p.baseBackoff a) jitter

theorem baseDelay_le_baseBackoff (p : RetryPolicy) (a : Nat) : p.baseDelay ≤ p.baseBackoff a := by
  rw [Duration.le_def, baseBackoff, Duration.nanos_max]
  exact Nat.le_max_left ..

theorem baseBackoff_le_backoffDelay (p : RetryPolicy) (a : Nat) (jitter : Signed64) :
    p.baseBackoff a ≤ p.backoffDelay a jitter := by
  rw [Duration.le_def, backoffDelay, Duration.nanos_add]
  exact Nat.le_min.2 ⟨Nat.le_add_right .., (p.baseBackoff a).le_max⟩

end RetryPolicy

end SingleWriter
