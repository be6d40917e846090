import SingleWriter.Duration

/-! What a write tells its observers: that it is tried again, or how it ended. -/

namespace SingleWriter

/-- A step in the life of a write that was not a plain success. -/
inductive Event where
  | retrying (operation : String) (attempt maxAttempts : Nat) (delay : Duration) (error : String)
  | recovered (operation : String) (attempts : Nat) (elapsed : Duration)
  | exhausted (operation : String) (attempts : Nat) (error : String)
  | cancelled (operation : String) (attempts : Nat)
deriving DecidableEq

namespace Event

def operation : Event → String
  | retrying name .. => name
  | recovered name .. => name
  | exhausted name .. => name
  | cancelled name .. => name

/-- The attempt that the event is about, or the number of attempts made. -/
def attempt : Event → Nat
  | retrying _ n .. => n
  | recovered _ n _ => n
  | exhausted _ n _ => n
  | cancelled _ n => n

def kind : Event → String
  | retrying .. => "retrying"
  | recovered .. => "recovered"
  | exhausted .. => "exhausted"
  | cancelled .. => "cancelled"

end Event

end SingleWriter
