import SingleWriter.Session.Answer
import SingleWriter.StoreConfig

/-! The steps of a session. -/

namespace SingleWriter.Session

inductive Subject where
  | database (config : DatabaseConfig) (policy : RetryPolicy) (recorded : Bool)
  | store (config : StoreConfig)

structure DatabaseOpening where
  config : Option DatabaseConfig
  connect : Bool

structure StoreOpening where
  config : Option String
  emptyPath : Bool
  record : Bool
  broadcast : Option Nat

inductive Chore where
  | close
  | remove
  | shutdown

inductive Step where
  | files
  | rows
  | block (name : String) (how : Hold)
  | unblock (name : String)
  | outsideInsert (key value : String)
  | sleep (d : Duration)
  | release (name : String)
  | discard (name : String)
  | reached (gate : String)
  | openGate (gate : String)
  | receive (name : String)
  | dropReader (name : String)
  | dropTarget
  | openDatabase (o : DatabaseOpening)
  | openStore (o : StoreOpening)
  | openStatic (config : Option DatabaseConfig)
  | setup
  | connect
  | pool
  | status
  | acquire (name : String)
  | guard (name : String) (actions : List Action)
  | checkpoint (mode : String)
  | close
  | remove
  | shutdown
  | background (name : String) (what : Chore)
  | backgroundDone (name : String) (d : Duration)
  | write (order : Order)
  | spawn (name : String) (order : Order)
  | running (name : String) (d : Duration)
  | cancel (name : String)
  | join (name : String)
  | abort (name : String)
  | subscribe (name : String) (operations : List String)
  | settings
  | waitLogEmpty (d : Duration)

end SingleWriter.Session
