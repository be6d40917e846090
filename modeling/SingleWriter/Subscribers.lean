import SingleWriter.Stream

/-! A channel in use: the handles through which events are published, and the streams that read
them, both under names.  A plain subscription is a stream of all writes. -/

namespace SingleWriter

/-- A channel with its handles and its streams. -/
structure Subscribers where
  channel : Channel Event
  handles : List String
  streams : List (String × Stream) := []

namespace Subscribers

def new (capacity : Nat) (handle : String) : Subscribers :=
  { channel := .new capacity, handles := [handle] }

def alive (s : Subscribers) : Bool := !s.handles.isEmpty

def hasHandle (s : Subscribers) (handle : String) : Bool := s.handles.contains handle

def publish (s : Subscribers) (e : Event) (times : Nat) : Subscribers :=
  { s with channel := (List.replicate times e).foldl Channel.publish s.channel }

/-- Opens a stream; one of the same name is dropped. -/
def subscribe (s : Subscribers) (name : String) (operations : List String) : Subscribers :=
  { s with
    streams := (name, Stream.subscribe s.channel operations)
      :: s.streams.filter (·.1 != name) }

def receive (s : Subscribers) (name : String) : Option (Received Event × Subscribers) :=
  (s.streams.lookup name).map fun stream =>
    let (item, stream) := stream.poll s.channel s.alive
    (item, { s with streams := (name, stream) :: s.streams.filter (·.1 != name) })

def dropStream (s : Subscribers) (name : String) : Bool × Subscribers :=
  ((s.streams.lookup name).isSome, { s with streams := s.streams.filter (·.1 != name) })

def count (s : Subscribers) : Nat := s.streams.length

def addHandle (s : Subscribers) (handle : String) : Subscribers :=
  { s with handles := handle :: s.handles.filter (· != handle) }

def dropHandle (s : Subscribers) (handle : String) : Bool × Subscribers :=
  (s.hasHandle handle, { s with handles := s.handles.filter (· != handle) })

end Subscribers

end SingleWriter
