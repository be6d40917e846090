import SingleWriter.Database

/-! Periodic checkpoints.  One runs whenever its time has come and none is under way; what it comes
to does not matter.  They end only when they are told to, and only between two checkpoints. -/

namespace SingleWriter

inductive CheckpointerPhase where
  | waiting
  | checkpointing (call : Database.Call)
  | stopped

/-- Periodic checkpoints of one database; times are nanoseconds. -/
structure Checkpointer where
  interval : Duration
  mode : CheckpointMode
  next : Nat
  phase : CheckpointerPhase := .waiting

namespace Checkpointer

/-- How late a checkpoint may be before the ones after it are put off. -/
def lateness : Nat := 5000000

/-- Periodic checkpoints from `now` on; the first is due after one interval. -/
def start (now : Nat) (interval : Duration) (mode : CheckpointMode) : Checkpointer :=
  { interval, mode, next := now + interval.nanos }

def following (c : Checkpointer) (now : Nat) : Nat :=
  (if c.next + lateness < now then now else c.next) + c.interval.nanos

/-- What becomes of waiting checkpoints at a time, if anything; `stopping` says that they are told
to end. -/
def wake (c : Checkpointer) (now : Nat) (stopping : Bool) : Option Checkpointer :=
  match c.phase with
  | .waiting =>
    if stopping then some { c with phase := .stopped }
    else if c.next ≤ now then
      some { c with
        next := c.following now
        phase := .checkpointing { request := .checkpoint c.mode } }
    else none
  | _ => none

def advance (c : Checkpointer) (call : Database.Call) : Checkpointer :=
  match call.result? with
  | none => { c with phase := .checkpointing call }
  | some _ => { c with phase := .waiting }

def isStopped (c : Checkpointer) : Bool :=
  match c.phase with
  | .stopped => true
  | _ => false

end Checkpointer

end SingleWriter
