import SingleWriter.Channel
import SingleWriter.Event
import SingleWriter.Json.Value

/-! Observers receive the events of writes.  An observer may pass an event on to others; in the end
events reach sinks, each of which puts them down in its own way. -/

namespace SingleWriter

inductive LogLevel where
  | debug
  | warn
deriving DecidableEq

def LogLevel.name : LogLevel → String
  | debug => "DEBUG"
  | warn => "WARN"

structure LogEntry where
  level : LogLevel
  message : String
  fields : List (String × Json.Value)

/-- What the log says of an event; times are in whole milliseconds. -/
def Event.logEntry : Event → LogEntry
  | .retrying operation attempt maxAttempts delay error =>
    { level := .debug
      message := "Transient write failure, retrying"
      fields :=
        [("operation", .string operation), ("attempt", .number (.natural attempt)),
          ("max_attempts", .number (.natural maxAttempts)),
          ("delay_ms", .number (.natural delay.wordMillis)), ("error", .string error)] }
  | .recovered operation attempts elapsed =>
    { level := .debug
      message := "Write succeeded after retries"
      fields :=
        [("operation", .string operation), ("attempts", .number (.natural attempts)),
          ("elapsed_ms", .number (.natural elapsed.wordMillis))] }
  | .exhausted operation attempts error =>
    { level := .warn
      message := "Write retries exhausted"
      fields :=
        [("operation", .string operation), ("attempts", .number (.natural attempts)),
          ("error", .string error)] }
  | .cancelled operation attempts =>
    { level := .debug
      message := "Write cancelled"
      fields := [("operation", .string operation), ("attempts", .number (.natural attempts))] }

/-- Where events end up: in the log, in the record under a tag, or on a channel. -/
inductive Sink where
  | log
  | record (tag : String)
  | channel (index : Nat)
deriving DecidableEq

structure Records where
  calls : List (String × Event) := []
  logs : List LogEntry := []
  channels : List (Channel Event) := []

namespace Records

def put (e : Event) (r : Records) : Sink → Records
  | .log => { r with logs := r.logs ++ [e.logEntry] }
  | .record tag => { r with calls := r.calls ++ [(tag, e)] }
  | .channel i => { r with channels := r.channels.modify i (·.publish e) }

def tagged (r : Records) (tag : String) : List Event :=
  (r.calls.filter (·.1 == tag)).map (·.2)

end Records

/-- An observer: one that drops events, a sink, or one that passes events on to others in order. -/
inductive Observer where
  | silent
  | sink (s : Sink)
  | fanout (members : List Observer)

namespace Observer

mutual

def sinks : Observer → List Sink
  | silent => []
  | sink s => [s]
  | fanout members => allSinks members

def allSinks : List Observer → List Sink
  | [] => []
  | o :: os => o.sinks ++ allSinks os

end

def notify (o : Observer) (e : Event) (r : Records) : Records := o.sinks.foldl (Records.put e) r

def notifyAll (o : Observer) (es : List Event) (r : Records) : Records :=
  es.foldl (fun r e => o.notify e r) r

mutual

/-- The number of members of every observer that passes events on, inner ones first. -/
def fanouts : Observer → List Nat
  | fanout members => allFanouts members ++ [members.length]
  | _ => []

def allFanouts : List Observer → List Nat
  | [] => []
  | o :: os => o.fanouts ++ allFanouts os

end

end Observer

end SingleWriter
