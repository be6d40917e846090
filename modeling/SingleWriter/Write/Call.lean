import SingleWriter.Busy
import SingleWriter.Event
import SingleWriter.RetryPolicy

/-! One write, from the call to its result.  A call is always in one phase and waits for one answer;
`resume` says where the answer takes it and what has to be done on the way.

An attempt takes a connection, begins a transaction, runs the operation and commits.  Any failure
inside the transaction rolls it back.  Failures that may pass are followed by a wait and another
attempt, as long as the policy allows. -/

namespace SingleWriter.Write

abbrev ConnectionId := Nat

/-- What a call waits for. -/
inductive Phase (α : Type) where
  /-- A look at the token that cancels the call. -/
  | checking
  | locking
  | acquiring
  | beginning (on : ConnectionId)
  /-- The end of the operation. -/
  | operating (on : ConnectionId)
  | committing (on : ConnectionId) (value : α)
  | rollingBack (on : ConnectionId) (error : WriteError)
  /-- The end of the wait before the next attempt, or the token. -/
  | backingOff (delay : Duration)
  | finished (result : Except WriteError α)

structure Call (α : Type) where
  operation : String
  attempt : Nat := 1
  phase : Phase α := .checking

/-- The answer to what a call waits for. -/
inductive Answer (α : Type) where
  /-- Nothing is in the way: the token is not cancelled, the lock is taken, the statement is done or
  the wait is over. -/
  | proceed
  | cancelled
  | acquired (on : ConnectionId)
  | refused (e : ConnectionError)
  | value (v : α)
  | failed (e : WriteError)

/-- What a call has others do. -/
inductive Effect where
  | release (c : ConnectionId)
  | discard (c : ConnectionId)
  | unlock
  | emit (e : Event)
deriving DecidableEq

/-- What an answer comes with: the random draw for the next wait, and the time since the call. -/
structure Moment where
  jitter : Signed64 := .finite false .zero
  elapsed : Duration := .zero

/-- The name of a write that is given none. -/
def defaultName : String := "write"

namespace Call

variable {α : Type}

def result? (c : Call α) : Option (Except WriteError α) :=
  match c.phase with
  | .finished r => some r
  | _ => none

def connection? (c : Call α) : Option ConnectionId :=
  match c.phase with
  | .beginning on => some on
  | .operating on => some on
  | .committing on _ => some on
  | .rollingBack on _ => some on
  | _ => none

/-- Whether the call is inside an attempt. -/
def attempting (c : Call α) : Bool :=
  match c.phase with
  | .acquiring => true
  | _ => c.connection?.isSome

/-- Whether the call owns the lock of its coordinator. -/
def holdsLock (p : RetryPolicy) (c : Call α) : Bool := p.strategy == .mutex && c.attempting

/-- Frees the lock at the end of an attempt. -/
def unlocking (p : RetryPolicy) : List Effect :=
  match p.strategy with
  | .mutex => [.unlock]
  | .nativeQueuing => []

/-- Ends a call because of its token. -/
def cancelAfter (c : Call α) (attempts : Nat) : Call α × List Effect :=
  ({ c with phase := .finished (.error (.cancelled c.operation attempts)) },
    [.emit (.cancelled c.operation attempts)])

def succeed (c : Call α) (m : Moment) (v : α) : Call α × List Effect :=
  ({ c with phase := .finished (.ok v) },
    if 1 < c.attempt then [.emit (.recovered c.operation c.attempt m.elapsed)] else [])

/-- What follows an attempt that failed. -/
def fail (c : Call α) (p : RetryPolicy) (m : Moment) (e : WriteError) : Call α × List Effect :=
  if e.isTransient = false then ({ c with phase := .finished (.error e) }, [])
  else if p.maxAttempts ≤ c.attempt then
    ({ c with phase := .finished (.error (.exhausted c.operation c.attempt e)) },
      [.emit (.exhausted c.operation c.attempt e.message)])
  else
    let delay := p.backoffDelay c.attempt m.jitter
    ({ c with phase := .backingOff delay },
      [.emit (.retrying c.operation c.attempt p.maxAttempts delay e.message)])

/-- The end of an attempt: its connection and the lock are given up before anything else. -/
def conclude (p : RetryPolicy) (first : List Effect) (next : Call α × List Effect) :
    Call α × List Effect :=
  (next.1, first ++ unlocking p ++ next.2)

/-- Where an answer takes a call.  An answer that does not fit the phase changes nothing. -/
def resume (c : Call α) (p : RetryPolicy) (m : Moment) (a : Answer α) : Call α × List Effect :=
  match c.phase, a with
  | .checking, .cancelled => c.cancelAfter (c.attempt - 1)
  | .checking, .proceed =>
    match p.strategy with
    | .mutex => ({ c with phase := .locking }, [])
    | .nativeQueuing => ({ c with phase := .acquiring }, [])
  | .locking, .cancelled => c.cancelAfter (c.attempt - 1)
  | .locking, .proceed => ({ c with phase := .acquiring }, [])
  | .acquiring, .acquired on => ({ c with phase := .beginning on }, [])
  | .acquiring, .refused e => conclude p [] (c.fail p m (.connection e))
  | .beginning on, .proceed => ({ c with phase := .operating on }, [])
  | .beginning on, .failed e => conclude p [.release on] (c.fail p m e)
  | .operating on, .value v => ({ c with phase := .committing on v }, [])
  | .operating on, .failed e => ({ c with phase := .rollingBack on e }, [])
  | .committing on v, .proceed => conclude p [.release on] (c.succeed m v)
  | .committing on _, .failed e => ({ c with phase := .rollingBack on e }, [])
  | .rollingBack on e, .proceed => conclude p [.release on] (c.fail p m e)
  | .rollingBack on e, .failed _ => conclude p [.discard on] (c.fail p m e)
  | .backingOff _, .cancelled => c.cancelAfter c.attempt
  | .backingOff _, .proceed => ({ c with attempt := c.attempt + 1, phase := .checking }, [])
  | _, _ => (c, [])

/-- What happens when a call is dropped before its end.  While its `BEGIN` is under way the
connection goes back to the pool; after that it is closed, and the transaction with it. -/
def abandon (c : Call α) (p : RetryPolicy) : List Effect :=
  match c.phase with
  | .acquiring => unlocking p
  | .beginning on => .release on :: unlocking p
  | .operating on => .discard on :: unlocking p
  | .committing on _ => .discard on :: unlocking p
  | .rollingBack on _ => .discard on :: unlocking p
  | _ => []

end Call

end SingleWriter.Write
