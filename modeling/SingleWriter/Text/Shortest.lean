import SingleWriter.Binary64

/-! The shortest decimal of a binary64 number: the fewest digits that round back to it, and of those
the nearest ones.  Numbers from `10^-5` up to below `10^16` are written without an exponent and
always with a point, all others with an exponent. -/

namespace SingleWriter.Text

/-- Decimal digits with a scale: `digits * 10^scale`. -/
structure Decimal where
  digits : Nat
  scale : Int

/-- Numbers at a distance that still rounds to a binary64 number: the value and both ends as
numerators over one denominator. -/
structure Span where
  low : Nat
  value : Nat
  high : Nat
  den : Nat
  closed : Bool

/-- The numbers that round to `x`; both ends belong to them iff the mantissa is even. -/
def Span.of (x : Binary64) : Span :=
  let m := if x.mant = Nat.pow 2 53 then Nat.pow 2 52 else x.mant
  let e := if x.mant = Nat.pow 2 53 then x.exp + 1 else x.exp
  let up := Nat.pow 2 e.toNat
  let below := if m = Nat.pow 2 52 ∧ -1074 < e then 1 else 2
  ⟨(4 * m - below) * up, 4 * m * up, (4 * m + 2) * up, 4 * Nat.pow 2 (-e).toNat, m % 2 == 0⟩

/-- Whether `n * 10^scale` lies in the span. -/
def Span.has (s : Span) (n : Nat) (scale : Int) : Bool :=
  let p := n * Nat.pow 10 scale.toNat * s.den
  let q := Nat.pow 10 (-scale).toNat
  if s.closed then s.low * q ≤ p && p ≤ s.high * q else s.low * q < p && p < s.high * q

/-- The nearest point of the grid `10^scale` that lies in the span. -/
def Span.point? (s : Span) (scale : Int) : Option Nat :=
  let p := s.value * Nat.pow 10 (-scale).toNat
  let q := s.den * Nat.pow 10 scale.toNat
  let floor := p / q
  let near := roundDivEven p q
  let far := if near = floor then floor + 1 else floor
  if s.has near scale then some near else if s.has far scale then some far else none

/-- Tries finer and finer grids. -/
def Span.shortest (s : Span) : Nat → Int → Decimal
  | 0, scale =>
    ⟨roundDivEven (s.value * Nat.pow 10 (-scale).toNat) (s.den * Nat.pow 10 scale.toNat), scale⟩
  | fuel + 1, scale =>
    match s.point? scale with
    | some n => ⟨n, scale⟩
    | none => s.shortest fuel (scale - 1)

def Decimal.ofBinary64 (x : Binary64) : Decimal :=
  if x.isZero then ⟨0, 0⟩ else
    let digits (n : Nat) : Int := ((Nat.toDigits 10 n).length : Int)
    let guess := digits x.num - digits x.den
    (Span.of x).shortest 21 (guess + 1)

/-- Positional notation with a point: whole numbers end in `.0`. -/
def Decimal.positional (d : Decimal) : List Char :=
  let digits := Nat.toDigits 10 d.digits
  if 0 ≤ d.scale then digits ++ List.replicate d.scale.toNat '0' ++ ['.', '0']
  else
    let places := (-d.scale).toNat
    let padded := List.replicate (places + 1 - digits.length) '0' ++ digits
    padded.take (padded.length - places) ++ '.' :: padded.drop (padded.length - places)

def Decimal.exponent (d : Decimal) : Int := d.scale + ((Nat.toDigits 10 d.digits).length - 1 : Nat)

/-- One digit before the point, and an exponent with a sign and at least two digits; a lone digit
has no point. -/
def Decimal.scientific (d : Decimal) : List Char :=
  let power := (toString d.exponent.natAbs).toList
  let exponent := 'e' :: (if d.exponent < 0 then '-' else '+')
    :: List.replicate (2 - power.length) '0' ++ power
  match Nat.toDigits 10 d.digits with
  | [] => exponent
  | [c] => c :: exponent
  | c :: cs => c :: '.' :: cs ++ exponent

/-- Positional notation where it is short enough. -/
def Decimal.toText (d : Decimal) : String :=
  String.ofList
    (if -5 ≤ d.exponent ∧ d.exponent ≤ 15 then d.positional else d.scientific)

def signedText : Signed64 → String
  | .finite negative x => (if negative then "-" else "") ++ (Decimal.ofBinary64 x).toText
  | .infinite negative => if negative then "-inf" else "inf"
  | .nan => "NaN"

end SingleWriter.Text
