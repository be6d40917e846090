import SingleWriter.Json.Lexical

/-! JSON values: reading one from a text, passing over one without keeping it, and writing one.
`nextKey` and `nextElement` hold the rules on commas for every reader of objects and arrays. -/

namespace SingleWriter.Json

inductive Value where
  | null
  | boolean (b : Bool)
  | number (n : Number)
  | string (s : String)
  | array (elements : List Value)
  | object (members : List (String × Value))
deriving Inhabited

/-- The text after the quote that opens the next key, or nothing at the end of the object; `first`
says that no member came before. -/
def nextKey (first : Bool) (s : List Char) : Except Fault (Option (List Char)) :=
  match skipBlank s with
  | [] => .error (.ended .object)
  | c :: r =>
    if c = '\x7d' then .ok none
    else if first then
      if c = '"' then .ok (some r) else .error (.breach .keyNotString)
    else if c = ',' then
      match skipBlank r with
      | [] => .error (.ended .value)
      | d :: r' =>
        if d = '"' then .ok (some r')
        else if d = '\x7d' then .error (.breach .trailingComma)
        else .error (.breach .keyNotString)
    else .error (.breach .expectedCommaOrBrace)

/-- The text from the next element on, or nothing at the end of the array; `first` says that no
element came before. -/
def nextElement (first : Bool) (s : List Char) : Except Fault (Option (List Char)) :=
  match skipBlank s with
  | [] => .error (.ended .list)
  | c :: r =>
    if c = ']' then .ok none
    else if first then .ok (some (c :: r))
    else if c = ',' then
      match skipBlank r with
      | [] => .error (.ended .value)
      | d :: r' => if d = ']' then .error (.breach .trailingComma) else .ok (some (d :: r'))
    else .error (.breach .expectedCommaOrBracket)

def afterBracket (s : List Char) : List Char := (skipBlank s).drop 1

def readColon (s : List Char) : Except Fault (List Char) :=
  match skipBlank s with
  | [] => .error (.ended .object)
  | c :: r => if c = ':' then .ok r else .error (.breach .expectedColon)

/-- Only blanks may follow the value of a whole text. -/
def readEnd (s : List Char) : Except Fault Unit :=
  match skipBlank s with
  | [] => .ok ()
  | _ => .error (.breach .trailingCharacters)

/-- Enough steps for a text: each step takes a character, or opens or closes a value. -/
def stepBound (s : List Char) : Nat := 2 * s.length + 4

/-! ### Reading -/

/-- The nesting that is refused. -/
def maxDepth : Nat := 128

mutual

/-- Reads one value; `depth` levels of nesting are left and `fuel` steps. -/
def readValue (depth : Nat) : Nat → List Char → Reading Value
  | 0, _ => .error (.ended .value)
  | fuel + 1, s =>
    match skipBlank s with
    | [] => .error (.ended .value)
    | c :: r =>
      if c = 'n' then (readWord "ull".toList r).map (Value.null, ·)
      else if c = 't' then (readWord "rue".toList r).map (Value.boolean true, ·)
      else if c = 'f' then (readWord "alse".toList r).map (Value.boolean false, ·)
      else if c = '-' then (readNumber false r).map fun (n, rest) => (.number n, rest)
      else if c.isDigit then (readNumber true (c :: r)).map fun (n, rest) => (.number n, rest)
      else if c = '"' then (readString r).map fun (cs, rest) => (.string (String.ofList cs), rest)
      else if c = '[' then
        if depth ≤ 1 then .error (.breach .tooDeep)
        else (readElements (depth - 1) fuel true r).map fun (vs, rest) => (.array vs, rest)
      else if c = '\x7b' then
        if depth ≤ 1 then .error (.breach .tooDeep)
        else (readMembers (depth - 1) fuel true r).map fun (ms, rest) => (.object ms, rest)
      else .error (.breach .expectedValue)

def readElements (depth : Nat) : Nat → Bool → List Char → Reading (List Value)
  | 0, _, _ => .error (.ended .list)
  | fuel + 1, first, s =>
    match nextElement first s with
    | .error e => .error e
    | .ok none => .ok ([], afterBracket s)
    | .ok (some r) =>
      match readValue depth fuel r with
      | .error e => .error e
      | .ok (v, rest) =>
        (readElements depth fuel false rest).map fun (vs, rest) => (v :: vs, rest)

def readMembers (depth : Nat) : Nat → Bool → List Char → Reading (List (String × Value))
  | 0, _, _ => .error (.ended .object)
  | fuel + 1, first, s =>
    match nextKey first s with
    | .error e => .error e
    | .ok none => .ok ([], afterBracket s)
    | .ok (some r) =>
      match readString r with
      | .error e => .error e
      | .ok (key, rest) =>
        match readColon rest with
        | .error e => .error e
        | .ok rest =>
          match readValue depth fuel rest with
          | .error e => .error e
          | .ok (v, rest) =>
            (readMembers depth fuel false rest).map fun (ms, rest) =>
              ((String.ofList key, v) :: ms, rest)

end

def Value.ofText (s : String) : Except Fault Value :=
  match readValue maxDepth (stepBound s.toList) s.toList with
  | .error e => .error e
  | .ok (v, rest) => (readEnd rest).map fun _ => v

/-! ### Passing over -/

mutual

/-- Passes over one value of any depth; numbers may have any size and surrogates stand alone. -/
def skipValue : Nat → List Char → Except Fault (List Char)
  | 0, _ => .error (.ended .value)
  | fuel + 1, s =>
    match skipBlank s with
    | [] => .error (.ended .value)
    | c :: r =>
      if c = 'n' then readWord "ull".toList r
      else if c = 't' then readWord "rue".toList r
      else if c = 'f' then readWord "alse".toList r
      else if c = '-' then skipNumber r
      else if c.isDigit then skipNumber (c :: r)
      else if c = '"' then skipString r
      else if c = '[' then
        match skipBlank r with
        | [] => .error (.ended .list)
        | d :: r' => if d = ']' then .ok r' else skipElements fuel (d :: r')
      else if c = '\x7b' then
        match skipBlank r with
        | [] => .error (.ended .object)
        | d :: r' => if d = '\x7d' then .ok r' else skipMembers fuel (d :: r')
      else .error (.breach .expectedValue)

def skipElements : Nat → List Char → Except Fault (List Char)
  | 0, _ => .error (.ended .list)
  | fuel + 1, s =>
    match skipValue fuel s with
    | .error e => .error e
    | .ok rest =>
      match skipBlank rest with
      | [] => .error (.ended .list)
      | c :: r =>
        if c = ']' then .ok r
        else if c = ',' then skipElements fuel r
        else .error (.breach .expectedCommaOrBracket)

def skipMembers : Nat → List Char → Except Fault (List Char)
  | 0, _ => .error (.ended .object)
  | fuel + 1, s =>
    match skipBlank s with
    | [] => .error (.ended .object)
    | c :: r =>
      if c ≠ '"' then .error (.breach .keyNotString) else
        match skipString r with
        | .error e => .error e
        | .ok rest =>
          match readColon rest with
          | .error e => .error e
          | .ok rest =>
            match skipValue fuel rest with
            | .error e => .error e
            | .ok rest =>
              match skipBlank rest with
              | [] => .error (.ended .object)
              | c :: r =>
                if c = '\x7d' then .ok r
                else if c = ',' then skipMembers fuel r
                else .error (.breach .expectedCommaOrBrace)

end

/-! ### Writing -/

def controlEscape (n : Nat) : List Char :=
  ['0', '0', Nat.digitChar (n / 16), Nat.digitChar (n % 16)]

/-- How a character stands inside a JSON string: controls, quotes and backslashes are escaped. -/
def escapeChar (c : Char) : List Char :=
  if c = '"' then ['\\', '"']
  else if c = '\\' then ['\\', '\\']
  else if c = '\x08' then ['\\', 'b']
  else if c = '\x0c' then ['\\', 'f']
  else if c = '\n' then ['\\', 'n']
  else if c = '\r' then ['\\', 'r']
  else if c = '\t' then ['\\', 't']
  else if c.toNat < 0x20 then '\\' :: 'u' :: controlEscape c.toNat
  else [c]

def writeString (s : String) : List Char := '"' :: s.toList.flatMap escapeChar ++ ['"']

def writeNumber : Number → List Char
  | .natural n => (toString n).toList
  | .negative n => '-' :: (toString n).toList
  | .real x => (Text.signedText x).toList

mutual

def Value.write : Value → List Char
  | .null => "null".toList
  | .boolean b => (if b then "true" else "false").toList
  | .number n => writeNumber n
  | .string s => writeString s
  | .array vs => '[' :: writeElements vs ++ [']']
  | .object ms => '\x7b' :: writeMembers ms ++ ['\x7d']

def writeElements : List Value → List Char
  | [] => []
  | [v] => v.write
  | v :: w :: vs => v.write ++ ',' :: writeElements (w :: vs)

def writeMembers : List (String × Value) → List Char
  | [] => []
  | [(k, v)] => writeString k ++ ':' :: v.write
  | (k, v) :: m :: ms => writeString k ++ ':' :: v.write ++ ',' :: writeMembers (m :: ms)

end

def Value.toText (v : Value) : String := String.ofList v.write

/-- The first member of an object with a key. -/
def Value.get? (v : Value) (key : String) : Option Value :=
  match v with
  | .object ms => (ms.find? (·.1 == key)).map (·.2)
  | _ => none

end SingleWriter.Json
