import SingleWriter.Duration

/-! Non-negative binary64 numbers as exact values `mant * 2^exp`, with the one rounding that every
operation uses: a quotient of naturals goes to the nearest number, a tie to the even mantissa.
`Signed64` adds the sign, the infinities and the number that is none. -/

namespace SingleWriter

/-- The quotient `num / den` rounded to the nearest natural, a tie to the even one. -/
def roundDivEven (num den : Nat) : Nat :=
  let q := num / den
  let twice := 2 * (num % den)
  if twice < den then q else if den < twice then q + 1 else q + q % 2

/-- A finite binary64 number that is not negative: `mant * 2^exp`. -/
structure Binary64 where
  mant : Nat
  exp : Int
deriving DecidableEq

namespace Binary64

def zero : Binary64 := ⟨0, 0⟩

def isZero (x : Binary64) : Bool := x.mant == 0

def num (x : Binary64) : Nat := x.mant * Nat.pow 2 x.exp.toNat

def den (x : Binary64) : Nat := Nat.pow 2 (-x.exp).toNat

/-- The exponent of the last bit that binary64 keeps of `num / den`: 53 bits of it, and never below
`2^-1074`. -/
def lastBit (num den : Nat) : Int :=
  let guess : Int := (Nat.log2 num : Int) - (Nat.log2 den : Int) - 52
  let top := guess + 52
  let tooHigh := num * Nat.pow 2 (-top).toNat < den * Nat.pow 2 top.toNat
  max (if tooHigh then guess - 1 else guess) (-1074)

/-- The binary64 number nearest to `num / den`, or nothing beyond the largest one. -/
def ofRatio? (num den : Nat) : Option Binary64 :=
  if num = 0 then some zero else
    let e := lastBit num den
    let m := roundDivEven (num * Nat.pow 2 (-e).toNat) (den * Nat.pow 2 e.toNat)
    if m * Nat.pow 2 e.toNat < Nat.pow 2 1024 * Nat.pow 2 (-e).toNat then some ⟨m, e⟩ else none

def largest : Binary64 := ⟨Nat.pow 2 53 - 1, 971⟩

/-- The binary64 number nearest to `num / den`; for quotients in the range of binary64. -/
def ofRatio (num den : Nat) : Binary64 := (ofRatio? num den).getD largest

def ofNat (n : Nat) : Binary64 := ofRatio n 1

def mul? (x y : Binary64) : Option Binary64 := ofRatio? (x.num * y.num) (x.den * y.den)

def mul (x y : Binary64) : Binary64 := (mul? x y).getD largest

def add (x y : Binary64) : Binary64 := ofRatio (x.num * y.den + y.num * x.den) (x.den * y.den)

def div (x y : Binary64) : Binary64 := ofRatio (x.num * y.den) (x.den * y.num)

def le (x y : Binary64) : Bool := x.num * y.den ≤ y.num * x.den

def pow10 (n : Nat) : Binary64 := ofNat (Nat.pow 10 n)

/-- The duration of `x` seconds, rounded to the nearest nanosecond, a tie to the even one. -/
def toDuration (x : Binary64) : Duration := .ofNanos (roundDivEven (x.num * nanosPerSecond) x.den)

/-- A duration in seconds: whole seconds and the fraction are rounded apart and then added. -/
def ofDuration (d : Duration) : Binary64 :=
  add (ofNat d.seconds) (div (ofNat d.subsecond) (ofNat nanosPerSecond))

end Binary64

/-- A binary64 number with its sign, an infinity, or no number. -/
inductive Signed64 where
  | finite (negative : Bool) (magnitude : Binary64)
  | infinite (negative : Bool)
  | nan
deriving DecidableEq

namespace Signed64

/-- The number `digits * 10^exponent` with a sign, rounded once; beyond the largest number it is
infinite. -/
def ofDecimal (negative : Bool) (digits : Nat) (exponent : Int) : Signed64 :=
  match Binary64.ofRatio? (digits * Nat.pow 10 exponent.toNat) (Nat.pow 10 (-exponent).toNat) with
  | some x => finite negative x
  | none => infinite negative

/-- The digits after the exponent mark with their sign. -/
def exponentOf? (cs : List Char) : Option Int :=
  let (negative, digits) := match cs with
    | '-' :: r => (true, r)
    | '+' :: r => (false, r)
    | r => (false, r)
  if digits.isEmpty || !digits.all Char.isDigit then none
  else
    let n : Int := Duration.digitsValue digits
    some (if negative then -n else n)

def isWord (word : String) (cs : List Char) : Bool := cs.map Char.toLower == word.toList

/-- Reads a decimal number, `inf`, `infinity` or `nan`, with an optional sign. -/
def ofText? (s : String) : Option Signed64 :=
  let (negative, body) := match s.toList with
    | '-' :: r => (true, r)
    | '+' :: r => (false, r)
    | r => (false, r)
  if isWord "inf" body || isWord "infinity" body then some (infinite negative)
  else if isWord "nan" body then some nan
  else
    let mantissa := body.takeWhile fun c => c != 'e' && c != 'E'
    let marked := body.dropWhile fun c => c != 'e' && c != 'E'
    let whole := mantissa.takeWhile (· != '.')
    let fraction := (mantissa.dropWhile (· != '.')).drop 1
    let exponent? := match marked with
      | [] => some 0
      | _ :: r => exponentOf? r
    match exponent? with
    | none => none
    | some e =>
      if (whole.isEmpty && fraction.isEmpty) || !whole.all Char.isDigit
          || !fraction.all Char.isDigit then none
      else some (ofDecimal negative (Duration.digitsValue (whole ++ fraction))
        (e - fraction.length))

end Signed64

end SingleWriter
