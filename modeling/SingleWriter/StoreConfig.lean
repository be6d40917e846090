import SingleWriter.Checkpoint
import SingleWriter.DatabaseConfig
import SingleWriter.Json.Typed
import SingleWriter.RetryPolicy

/-! The configuration of a store and its JSON form.  A text is an object with the members in any
order, or an array with the values in the order of `Field.all`; what is missing has its default and
members with other names are passed over. -/

namespace SingleWriter

structure StoreConfig where
  path : String := ""
  maxOpenConns : Nat := 1
  maxIdleConns : Nat := 1
  connMaxLifetimeMs : Nat := 600000
  busyTimeoutMs : Nat := 5000
  enableWal : Bool := true
  txImmediate : Bool := true
  useNativeQueuing : Bool := true
  maxRetries : Nat := 10
  baseDelayMs : Nat := 100
  maxDelayMs : Nat := 5000
  checkpointIntervalMs : Option Nat := none
  checkpointMode : String := "NORMAL"
deriving DecidableEq

namespace StoreConfig

def new (path : String) : StoreConfig := { path }

def isValid (c : StoreConfig) : Bool := c.path != ""

def database (c : StoreConfig) : DatabaseConfig :=
  { maxOpenConnections := c.maxOpenConns
    maxIdleConnections := c.maxIdleConns
    maxLifetime := .ofMillis c.connMaxLifetimeMs
    busyTimeout := .ofMillis c.busyTimeoutMs
    enableWal := c.enableWal
    txImmediate := c.txImmediate }

def policy (c : StoreConfig) : RetryPolicy :=
  { maxRetries := c.maxRetries
    baseDelay := .ofMillis c.baseDelayMs
    maxDelay := .ofMillis c.maxDelayMs
    strategy := .ofNativeQueuing c.useNativeQueuing }

/-- The time between periodic checkpoints; none if it is missing or zero. -/
def checkpointInterval (c : StoreConfig) : Option Duration :=
  match c.checkpointIntervalMs with
  | some (ms + 1) => some (.ofMillis (ms + 1))
  | _ => none

def mode (c : StoreConfig) : CheckpointMode := .parse c.checkpointMode

inductive Field where
  | path
  | maxOpenConns
  | maxIdleConns
  | connMaxLifetimeMs
  | busyTimeoutMs
  | enableWal
  | txImmediate
  | useNativeQueuing
  | maxRetries
  | baseDelayMs
  | maxDelayMs
  | checkpointIntervalMs
  | checkpointMode
deriving DecidableEq

namespace Field

def key : Field → String
  | path => "path"
  | maxOpenConns => "maxOpenConns"
  | maxIdleConns => "maxIdleConns"
  | connMaxLifetimeMs => "connMaxLifetimeMs"
  | busyTimeoutMs => "busyTimeoutMs"
  | enableWal => "enableWal"
  | txImmediate => "txImmediate"
  | useNativeQueuing => "useNativeQueuing"
  | maxRetries => "maxRetries"
  | baseDelayMs => "baseDelayMs"
  | maxDelayMs => "maxDelayMs"
  | checkpointIntervalMs => "checkpointIntervalMs"
  | checkpointMode => "checkpointMode"

def all : List Field :=
  [path, maxOpenConns, maxIdleConns, connMaxLifetimeMs, busyTimeoutMs, enableWal, txImmediate,
    useNativeQueuing, maxRetries, baseDelayMs, maxDelayMs, checkpointIntervalMs, checkpointMode]

def ofKey? (key : String) : Option Field := all.find? (·.key == key)

end Field

def max32 : Nat := 4294967295

def max64 : Nat := 18446744073709551615

/-- Reads the value of a member into a configuration. -/
def readField (c : StoreConfig) (f : Field) (s : List Char) : Json.Reading StoreConfig :=
  let word32 (set : Nat → StoreConfig) : Json.Reading StoreConfig :=
    (Json.readNatural max32 "u32" s).map fun (n, rest) => (set n, rest)
  let word64 (set : Nat → StoreConfig) : Json.Reading StoreConfig :=
    (Json.readNatural max64 "u64" s).map fun (n, rest) => (set n, rest)
  let flag (set : Bool → StoreConfig) : Json.Reading StoreConfig :=
    (Json.readBoolean s).map fun (b, rest) => (set b, rest)
  match f with
  | .path => (Json.readText "path string" s).map fun (t, rest) => ({ c with path := t }, rest)
  | .maxOpenConns => word32 fun n => { c with maxOpenConns := n }
  | .maxIdleConns => word32 fun n => { c with maxIdleConns := n }
  | .connMaxLifetimeMs => word64 fun n => { c with connMaxLifetimeMs := n }
  | .busyTimeoutMs => word64 fun n => { c with busyTimeoutMs := n }
  | .enableWal => flag fun b => { c with enableWal := b }
  | .txImmediate => flag fun b => { c with txImmediate := b }
  | .useNativeQueuing => flag fun b => { c with useNativeQueuing := b }
  | .maxRetries => word32 fun n => { c with maxRetries := n }
  | .baseDelayMs => word64 fun n => { c with baseDelayMs := n }
  | .maxDelayMs => word64 fun n => { c with maxDelayMs := n }
  | .checkpointIntervalMs =>
    (Json.readOptional (Json.readNatural max64 "u64") s).map fun (n, rest) =>
      ({ c with checkpointIntervalMs := n }, rest)
  | .checkpointMode =>
    (Json.readText "a string" s).map fun (t, rest) => ({ c with checkpointMode := t }, rest)

/-- Reads the members of an object after its brace; `seen` are those that have a value already, and
none may have two.  A member takes four characters at least, so the steps that are left are enough
for a value that is passed over. -/
def readFields (fuel : Nat) (first : Bool) (seen : List Field) (c : StoreConfig)
    (s : List Char) : Json.Reading StoreConfig :=
  match fuel with
  | 0 => .error (.ended .object)
  | fuel + 1 =>
    match Json.nextKey first s with
    | .error e => .error e
    | .ok none => .ok (c, Json.afterBracket s)
    | .ok (some r) =>
      match Json.readString r with
      | .error e => .error e
      | .ok (key, rest) =>
        match Field.ofKey? (String.ofList key) with
        | none =>
          match Json.readColon rest with
          | .error e => .error e
          | .ok rest =>
            match Json.skipValue fuel rest with
            | .error e => .error e
            | .ok rest => readFields fuel false seen c rest
        | some f =>
          if f ∈ seen then .error (.duplicate f.key) else
            match Json.readColon rest with
            | .error e => .error e
            | .ok rest =>
              match readField c f rest with
              | .error e => .error e
              | .ok (c, rest) => readFields fuel false (f :: seen) c rest

/-- The bracket that closes an array of which all places are taken. -/
def readLastBracket (s : List Char) : Except Json.Fault (List Char) :=
  match Json.skipBlank s with
  | [] => .error (.ended .list)
  | c :: r =>
    if c = ']' then .ok r
    else if c = ',' then
      match Json.skipBlank r with
      | d :: _ =>
        if d = ']' then .error (.breach .trailingComma) else .error (.breach .trailingCharacters)
      | [] => .error (.breach .trailingCharacters)
    else .error (.breach .trailingCharacters)

/-- Reads the values of an array after its bracket into the members in order. -/
def readPlaces (first : Bool) (c : StoreConfig) (s : List Char) :
    List Field → Json.Reading StoreConfig
  | [] => (readLastBracket s).map (c, ·)
  | f :: fs =>
    match Json.nextElement first s with
    | .error e => .error e
    | .ok none => .ok (c, Json.afterBracket s)
    | .ok (some r) =>
      match readField c f r with
      | .error e => .error e
      | .ok (c, rest) => readPlaces false c rest fs

def read (s : List Char) : Json.Reading StoreConfig :=
  match Json.skipBlank s with
  | [] => .error (.ended .value)
  | c :: r =>
    if c = '[' then readPlaces true {} r Field.all
    else if c = '\x7b' then readFields (Json.stepBound r) true [] {} r
    else .error (Json.mistyped "struct StoreConfig" (c :: r))

def ofText (text : String) : Except Json.Fault StoreConfig :=
  match read text.toList with
  | .error e => .error e
  | .ok (c, rest) => (Json.readEnd rest).map fun _ => c

def fieldValue (c : StoreConfig) : Field → Json.Value
  | .path => .string c.path
  | .maxOpenConns => .number (.natural c.maxOpenConns)
  | .maxIdleConns => .number (.natural c.maxIdleConns)
  | .connMaxLifetimeMs => .number (.natural c.connMaxLifetimeMs)
  | .busyTimeoutMs => .number (.natural c.busyTimeoutMs)
  | .enableWal => .boolean c.enableWal
  | .txImmediate => .boolean c.txImmediate
  | .useNativeQueuing => .boolean c.useNativeQueuing
  | .maxRetries => .number (.natural c.maxRetries)
  | .baseDelayMs => .number (.natural c.baseDelayMs)
  | .maxDelayMs => .number (.natural c.maxDelayMs)
  | .checkpointIntervalMs =>
    match c.checkpointIntervalMs with
    | none => .null
    | some n => .number (.natural n)
  | .checkpointMode => .string c.checkpointMode

def toJson (c : StoreConfig) : Json.Value :=
  .object (Field.all.map fun f => (f.key, c.fieldValue f))

def toText (c : StoreConfig) : String := c.toJson.toText

end StoreConfig

end SingleWriter
