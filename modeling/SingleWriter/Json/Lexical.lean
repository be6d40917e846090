import SingleWriter.Json.Fault

/-! The tokens of JSON on a list of characters: blanks, fixed words, strings and numbers.  A reader
returns what it read and the rest of the text, or the first fault. -/

namespace SingleWriter.Json

/-- The outcome of a reader: a value with the rest of the text. -/
abbrev Reading (α : Type) := Except Fault (α × List Char)

def isBlank (c : Char) : Bool := c == ' ' || c == '\n' || c == '\t' || c == '\r'

def skipBlank (s : List Char) : List Char := s.dropWhile isBlank

/-- Reads the rest of a fixed word. -/
def readWord : List Char → List Char → Except Fault (List Char)
  | [], s => .ok s
  | _ :: _, [] => .error (.ended .value)
  | w :: word, c :: s => if c = w then readWord word s else .error (.breach .expectedIdent)

/-! ### Strings -/

def hexDigit? (c : Char) : Option Nat :=
  if c.isDigit then some (c.toNat - '0'.toNat)
  else if 'a' ≤ c ∧ c ≤ 'f' then some (c.toNat - 'a'.toNat + 10)
  else if 'A' ≤ c ∧ c ≤ 'F' then some (c.toNat - 'A'.toNat + 10)
  else none

def byteCount (s : List Char) : Nat := s.foldl (fun n c => n + c.utf8Size) 0

/-- The value of four hexadecimal digits at the start of `s`; fewer than four bytes are an end of
the text. -/
def hexEscape (s : List Char) : Except Fault Nat :=
  if byteCount (s.take 4) < 4 then .error (.ended .string)
  else match s with
    | a :: b :: c :: d :: _ =>
      match hexDigit? a, hexDigit? b, hexDigit? c, hexDigit? d with
      | some a, some b, some c, some d => .ok (((a * 16 + b) * 16 + c) * 16 + d)
      | _, _, _, _ => .error (.breach .invalidEscape)
    | _ => .error (.breach .invalidEscape)

/-- The character that an escape of one letter stands for. -/
def plainEscape? : Char → Option Char
  | '"' => some '"'
  | '\\' => some '\\'
  | '/' => some '/'
  | 'b' => some '\x08'
  | 'f' => some '\x0c'
  | 'n' => some '\n'
  | 'r' => some '\r'
  | 't' => some '\t'
  | _ => none

def isLeading (n : Nat) : Bool := 0xD800 ≤ n && n ≤ 0xDBFF

def isTrailing (n : Nat) : Bool := 0xDC00 ≤ n && n ≤ 0xDFFF

/-- The character that a pair of surrogates stands for. -/
def combine (leading trailing : Nat) : Char :=
  Char.ofNat ((leading - 0xD800) * 0x400 + (trailing - 0xDC00) + 0x10000)

def push (c : Char) : Reading (List Char) → Reading (List Char)
  | .ok (cs, rest) => .ok (c :: cs, rest)
  | .error e => .error e

/-- Reads a string after its opening quote. -/
def readString : List Char → Reading (List Char)
  | [] => .error (.ended .string)
  | '"' :: rest => .ok ([], rest)
  | '\\' :: [] => .error (.ended .string)
  | '\\' :: 'u' :: rest =>
    match hexEscape rest with
    | .error e => .error e
    | .ok n =>
      if isTrailing n then .error (.breach .loneSurrogate)
      else if isLeading n then
        match _h : rest.drop 4 with
        | [] | ['\\'] => .error (.ended .string)
        | '\\' :: 'u' :: rest' =>
          match hexEscape rest' with
          | .error e => .error e
          | .ok m =>
            if isTrailing m then push (combine n m) (readString (rest'.drop 4))
            else .error (.breach .loneSurrogate)
        | _ => .error (.breach .unfinishedSurrogate)
      else push (Char.ofNat n) (readString (rest.drop 4))
  | '\\' :: c :: rest =>
    match plainEscape? c with
    | some d => push d (readString rest)
    | none => .error (.breach .invalidEscape)
  | c :: rest =>
    if c.toNat < 0x20 then .error (.breach .controlCharacter) else push c (readString rest)
termination_by s => s.length
decreasing_by
  all_goals simp only [List.length_cons, List.length_drop]
  · have := congrArg List.length _h
    simp only [List.length_drop, List.length_cons] at this
    omega
  all_goals omega

/-- Passes over a string after its opening quote; surrogates need no partner. -/
def skipString : List Char → Except Fault (List Char)
  | [] => .error (.ended .string)
  | '"' :: rest => .ok rest
  | '\\' :: [] => .error (.ended .string)
  | '\\' :: 'u' :: rest =>
    match hexEscape rest with
    | .error e => .error e
    | .ok _ => skipString (rest.drop 4)
  | '\\' :: c :: rest =>
    match plainEscape? c with
    | some _ => skipString rest
    | none => .error (.breach .invalidEscape)
  | c :: rest =>
    if c.toNat < 0x20 then .error (.breach .controlCharacter) else skipString rest
termination_by s => s.length
decreasing_by
  all_goals simp only [List.length_cons, List.length_drop]
  all_goals omega

/-! ### Numbers -/

def maxWord : Nat := 18446744073709551615

/-- Reads digits into a word for as long as it holds them; gives the word and the digits that it
could not take. -/
def fillWord (acc : Nat) : List Char → Nat × List Char
  | [] => (acc, [])
  | c :: r =>
    let next := acc * 10 + (c.toNat - '0'.toNat)
    if next ≤ maxWord then fillWord next r else (acc, c :: r)

/-- Scales a number by a power of ten in steps of at most `10^308`, each rounded. -/
def scaleBy (x : Binary64) (exponent : Int) : Except Fault Binary64 :=
  if exponent < -308 then
    if x.isZero then .ok x else scaleBy (x.div (Binary64.pow10 308)) (exponent + 308)
  else if 308 < exponent then
    if x.isZero then .ok x else .error (.breach .numberOutOfRange)
  else if 0 ≤ exponent then
    match x.mul? (Binary64.pow10 exponent.toNat) with
    | some y => .ok y
    | none => .error (.breach .numberOutOfRange)
  else .ok (x.div (Binary64.pow10 (-exponent).toNat))
termination_by (-exponent).toNat
decreasing_by omega

/-- The number with a word of leading digits and a power of ten. -/
def real (positive : Bool) (word : Nat) (exponent : Int) : Except Fault Number :=
  match scaleBy (Binary64.ofNat word) exponent with
  | .ok x => .ok (.real (.finite (!positive) x))
  | .error e => .error e

def maxExponent : Nat := 2147483647

def clampExponent (e : Int) : Int := max (-2147483648) (min 2147483647 e)

def readExponent (positive : Bool) (word : Nat) (start : Int) (s : List Char) : Reading Number :=
  let (up, s) := match s with
    | '+' :: r => (true, r)
    | '-' :: r => (false, r)
    | r => (true, r)
  match s with
  | [] => .error (.ended .value)
  | c :: _ =>
    if !c.isDigit then .error (.breach .invalidNumber) else
      let value := Duration.digitsValue (s.takeWhile Char.isDigit)
      let rest := s.dropWhile Char.isDigit
      if maxExponent < value then
        if word ≠ 0 && up then .error (.breach .numberOutOfRange)
        else .ok (.real (.finite (!positive) .zero), rest)
      else
        let exponent : Int := if up then start + value else start - value
        (real positive word (clampExponent exponent)).map (·, rest)

def atExponent : List Char → Bool
  | 'e' :: _ => true
  | 'E' :: _ => true
  | _ => false

def readFraction (positive : Bool) (word : Nat) (start : Int) (s : List Char) : Reading Number :=
  let digits := s.takeWhile Char.isDigit
  let rest := s.dropWhile Char.isDigit
  if digits.isEmpty then
    if rest.isEmpty then .error (.ended .value) else .error (.breach .invalidNumber)
  else
    let (word', left) := fillWord word digits
    let exponent : Int := start - (digits.length - left.length : Nat)
    if atExponent rest then readExponent positive word' exponent (rest.drop 1)
    else (real positive word' exponent).map (·, rest)

/-- A whole number with its sign; minus zero and what a signed word does not hold become real. -/
def whole (positive : Bool) (word : Nat) : Number :=
  if positive then .natural word
  else if word = 0 ∨ 9223372036854775808 < word then .real (.finite true (Binary64.ofNat word))
  else .negative word

def readNumber (positive : Bool) (s : List Char) : Reading Number :=
  match s with
  | [] => .error (.ended .value)
  | c :: _ =>
    if !c.isDigit then .error (.breach .invalidNumber) else
      let digits := if c = '0' then ['0'] else s.takeWhile Char.isDigit
      let rest := s.drop digits.length
      let (word, left) := fillWord 0 digits
      match rest with
      | '.' :: r => readFraction positive word left.length r
      | d :: r =>
        if c = '0' && d.isDigit then .error (.breach .invalidNumber)
        else if atExponent rest then readExponent positive word left.length r
        else if left.isEmpty then .ok (whole positive word, rest)
        else (real positive word left.length).map (·, rest)
      | [] =>
        if left.isEmpty then .ok (whole positive word, [])
        else (real positive word left.length).map (·, [])

def skipExponent (s : List Char) : Except Fault (List Char) :=
  let s := match s with
    | '+' :: r => r
    | '-' :: r => r
    | r => r
  if (s.takeWhile Char.isDigit).isEmpty then .error (.breach .invalidNumber)
  else .ok (s.dropWhile Char.isDigit)

/-- Passes over what may follow the whole part of a number. -/
def skipTail : List Char → Except Fault (List Char)
  | '.' :: r =>
    if (r.takeWhile Char.isDigit).isEmpty then .error (.breach .invalidNumber)
    else
      let rest := r.dropWhile Char.isDigit
      if atExponent rest then skipExponent (rest.drop 1) else .ok rest
  | s => if atExponent s then skipExponent (s.drop 1) else .ok s

/-- Passes over a number after its sign, of any size. -/
def skipNumber : List Char → Except Fault (List Char)
  | [] => .error (.breach .invalidNumber)
  | c :: r =>
    if c = '0' then
      match r with
      | d :: _ => if d.isDigit then .error (.breach .invalidNumber) else skipTail r
      | [] => .ok []
    else if c.isDigit then skipTail (r.dropWhile Char.isDigit)
    else .error (.breach .invalidNumber)

end SingleWriter.Json
