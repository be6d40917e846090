import SingleWriter.Channel
import SingleWriter.Event

/-! A stream is a subscription for the writes of some names.  Events of other writes are passed over
on the way, and a notice of lost events is passed on. -/

namespace SingleWriter

/-- A subscription with the names of the wanted writes; no names means all writes. -/
structure Stream where
  operations : List String
  cursor : Cursor
deriving DecidableEq

namespace Stream

def subscribe (c : Channel Event) (operations : List String) : Stream := ⟨operations, c.subscribe⟩

/-- Whether an event is one of the wanted writes'. -/
def wants (operations : List String) (e : Event) : Bool :=
  operations.isEmpty || operations.contains e.operation

/-- Looks again until there is a wanted event or no event; each look at an event that is not wanted
takes one of `fuel`. -/
def seek (c : Channel Event) (alive : Bool) (operations : List String) :
    Nat → Cursor → Received Event × Cursor
  | 0, at_ => c.receive alive at_
  | fuel + 1, at_ =>
    match c.receive alive at_ with
    | (.event e, after) =>
      if wants operations e then (.event e, after) else seek c alive operations fuel after
    | answer => answer

def poll (s : Stream) (c : Channel Event) (alive : Bool) : Received Event × Stream :=
  let (item, cursor) := seek c alive s.operations (c.unread s.cursor) s.cursor
  (item, { s with cursor })

end Stream

end SingleWriter
