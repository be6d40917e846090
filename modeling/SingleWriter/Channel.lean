/-! A channel hands every event to every subscriber.  It keeps the newest events only, so a
subscriber that falls behind learns how many it has lost and goes on with the oldest one kept. -/

namespace SingleWriter

/-- A bounded history of published events. -/
structure Channel (α : Type) where
  size : Nat
  /-- How many events were ever published. -/
  published : Nat := 0
  /-- The newest events, newest first. -/
  recent : List α := []

/-- Where a subscriber stands: the number of the event that it reads next. -/
structure Cursor where
  next : Nat
deriving DecidableEq

inductive Received (α : Type) where
  | event (e : α)
  | lagged (lost : Nat)
  | empty
  | closed
deriving DecidableEq

namespace Channel

variable {α : Type}

/-- The events kept for a wanted capacity: the next power of two, and at least one. -/
def sizeFor (capacity : Nat) : Nat := if capacity ≤ 1 then 1 else 1 <<< ((capacity - 1).log2 + 1)

def defaultCapacity : Nat := 256

def new (capacity : Nat) : Channel α := { size := sizeFor capacity }

/-- Appends an event; the oldest one goes if there are too many. -/
def publish (c : Channel α) (e : α) : Channel α :=
  { c with published := c.published + 1, recent := (e :: c.recent).take c.size }

/-- A cursor behind the last event: a subscriber sees only what comes after it. -/
def subscribe (c : Channel α) : Cursor := ⟨c.published⟩

def unread (c : Channel α) (at_ : Cursor) : Nat := c.published - at_.next

/-- One look at the channel; `alive` says that more events may come. -/
def receive (c : Channel α) (alive : Bool) (at_ : Cursor) : Received α × Cursor :=
  let behind := c.unread at_
  if behind = 0 then (if alive then .empty else .closed, at_)
  else if c.size < behind then (.lagged (behind - c.size), ⟨c.published - c.size⟩)
  else
    match c.recent[behind - 1]? with
    | some e => (.event e, ⟨at_.next + 1⟩)
    | none => (.empty, at_)

end Channel

end SingleWriter
