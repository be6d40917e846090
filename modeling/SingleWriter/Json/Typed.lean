import SingleWriter.Json.Value

/-! Readers for a place that wants one kind of value.  Anything else is named in the fault as soon
as its first token is read; the brackets of arrays and objects are enough to name those. -/

namespace SingleWriter.Json

/-- The fault of a value that does not fit; the value itself must still be readable. -/
def mistyped (expected : String) (s : List Char) : Fault :=
  let named (found : Found) : Fault := .mistyped found expected
  match s with
  | [] => .breach .expectedValue
  | c :: r =>
    let word (w : String) (found : Found) : Fault :=
      match readWord w.toList r with
      | .error e => e
      | .ok _ => named found
    let numeral (positive : Bool) (t : List Char) : Fault :=
      match readNumber positive t with
      | .error e => e
      | .ok (n, _) => named (.number n)
    if c = 'n' then word "ull" .null
    else if c = 't' then word "rue" (.boolean true)
    else if c = 'f' then word "alse" (.boolean false)
    else if c = '-' then numeral false r
    else if c.isDigit then numeral true (c :: r)
    else if c = '"' then
      match readString r with
      | .error e => e
      | .ok (cs, _) => named (.text (String.ofList cs))
    else if c = '[' then named .sequence
    else if c = '\x7b' then named .map
    else .breach .expectedValue

def readSigned : List Char → Option (Reading Number)
  | '-' :: r => some (readNumber false r)
  | c :: r => if c.isDigit then some (readNumber true (c :: r)) else none
  | [] => none

/-- Reads a whole number that is at most `bound`; `expected` names the kind in faults. -/
def readNatural (bound : Nat) (expected : String) (s : List Char) : Reading Nat :=
  match skipBlank s with
  | [] => .error (.ended .value)
  | s =>
    match readSigned s with
    | none => .error (mistyped expected s)
    | some (.error e) => .error e
    | some (.ok (n, rest)) =>
      match n with
      | .natural k =>
        if k ≤ bound then .ok (k, rest) else .error (.misfit (.number n) expected)
      | .negative _ => .error (.misfit (.number n) expected)
      | .real _ => .error (.mistyped (.number n) expected)

def readBoolean (s : List Char) : Reading Bool :=
  match skipBlank s with
  | [] => .error (.ended .value)
  | c :: r =>
    if c = 't' then (readWord "rue".toList r).map (true, ·)
    else if c = 'f' then (readWord "alse".toList r).map (false, ·)
    else .error (mistyped "a boolean" (c :: r))

/-- Reads a string; `expected` names what it is for. -/
def readText (expected : String) (s : List Char) : Reading String :=
  match skipBlank s with
  | [] => .error (.ended .value)
  | c :: r =>
    if c = '"' then (readString r).map fun (cs, rest) => (String.ofList cs, rest)
    else .error (mistyped expected (c :: r))

def readOptional (reader : List Char → Reading α) (s : List Char) : Reading (Option α) :=
  match skipBlank s with
  | 'n' :: r => (readWord "ull".toList r).map (none, ·)
  | s => (reader s).map fun (a, rest) => (some a, rest)

/-! ### Named choices -/

/-- The choice with a name, or the fault that lists the names. -/
def lookupVariant (variants : List (String × α)) (name : String) : Except Fault α :=
  match variants.find? (·.1 == name) with
  | some v => .ok v.2
  | none => .error (.unknownVariant name (variants.map (·.1)))

def readUnit (s : List Char) : Except Fault (List Char) :=
  match skipBlank s with
  | [] => .error (.ended .value)
  | 'n' :: r => readWord "ull".toList r
  | s => .error (mistyped "unit" s)

/-- Reads one of several names: a string, or an object whose only member has the name as its key and
`null` as its value. -/
def readVariant (variants : List (String × α)) (s : List Char) : Reading α :=
  match skipBlank s with
  | [] => .error (.ended .value)
  | '"' :: r =>
    match readString r with
    | .error e => .error e
    | .ok (cs, rest) => (lookupVariant variants (String.ofList cs)).map (·, rest)
  | '\x7b' :: r =>
    match readText "variant identifier" r with
    | .error e => .error e
    | .ok (name, rest) =>
      match lookupVariant variants name with
      | .error e => .error e
      | .ok a =>
        match readColon rest with
        | .error e => .error e
        | .ok rest =>
          match readUnit rest with
          | .error e => .error e
          | .ok rest =>
            match skipBlank rest with
            | '\x7d' :: rest => .ok (a, rest)
            | [] => .error (.ended .object)
            | _ => .error (.breach .expectedValue)
  | _ => .error (.breach .expectedValue)

/-- The choice that a whole text names. -/
def variantOfText (variants : List (String × α)) (text : String) : Except Fault α :=
  match readVariant variants text.toList with
  | .error e => .error e
  | .ok (a, rest) => (readEnd rest).map fun _ => a

/-- How a value shows in a fault. -/
def Value.found : Value → Found
  | .null => .null
  | .boolean b => .boolean b
  | .number n => .number n
  | .string s => .text s
  | .array _ => .sequence
  | .object _ => .map

/-- The choice that a value names. -/
def variantOfValue (variants : List (String × α)) : Value → Except Fault α
  | .string name => lookupVariant variants name
  | .object [(name, content)] =>
    match lookupVariant variants name with
    | .error e => .error e
    | .ok a =>
      match content with
      | .null => .ok a
      | v => .error (.mistyped v.found "unit")
  | .object _ => .error (.misfit .map "map with a single key")
  | v => .error (.mistyped v.found "string or map")

end SingleWriter.Json
