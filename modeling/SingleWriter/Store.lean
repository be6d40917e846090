import SingleWriter.Checkpointer
import SingleWriter.Error.Store
import SingleWriter.Observer
import SingleWriter.StoreConfig

/-! A store puts a database, its observers and its periodic checkpoints together.  Shutting it down
ends the periodic checkpoints before the database is closed. -/

namespace SingleWriter

namespace StoreConfig

def validate (c : StoreConfig) : Except StoreError Unit :=
  if c.isValid then .ok () else .error .pathRequired

/-- The configuration that a text spells, if a store can be opened with it. -/
def load (text : String) : Except StoreError StoreConfig :=
  match ofText text with
  | .error fault => .error (.configParse fault)
  | .ok c => c.validate.map fun _ => c

end StoreConfig

structure Store where
  config : StoreConfig
  /-- The task of the periodic checkpoints, until someone waits for its end. -/
  checkpointer : Option Nat := none
  stopping : Bool := false

namespace Store

/-- The observer of a store: the given one or else the log, and the channel if there is one. -/
def observer (own : Option Observer) (channel : Option Nat) : Observer :=
  let own := own.getD (.sink .log)
  match channel with
  | some c => .fanout [own, .sink (.channel c)]
  | none => own

/-- The time between the periodic checkpoints of a store, if it has any: they need a log. -/
def checkpointInterval (c : StoreConfig) : Option Duration :=
  if c.enableWal then c.checkpointInterval else none

/-- A checkpoint that is asked for by the name of its mode. -/
def checkpoint (mode : String) : Database.Call := { request := .checkpoint (.parse mode) }

/-- Tells the periodic checkpoints to end; the first to do so gets their task to wait for. -/
def stop (s : Store) : Option Nat × Store :=
  (s.checkpointer, { s with stopping := true, checkpointer := none })

end Store

/-- What a shutdown is at. -/
inductive ShutdownPhase where
  | entering
  /-- It waits for the end of the periodic checkpoints. -/
  | joining (task : Nat)
  | closing (call : Database.Call)
  | removing (call : Database.Call)
  | finished (result : Except StoreError Unit)

/-- A shutdown on its way, or a removal, which begins with one. -/
structure Shutdown where
  remove : Bool
  phase : ShutdownPhase := .entering

namespace Shutdown

def result? (s : Shutdown) : Option (Except StoreError Unit) :=
  match s.phase with
  | .finished r => some r
  | _ => none

def close (s : Shutdown) : Shutdown := { s with phase := .closing { request := .close } }

/-- The first step: the periodic checkpoints are told to end. -/
def enter (s : Shutdown) (store : Store) : Shutdown × Store :=
  match store.stop with
  | (some task, store) => ({ s with phase := .joining task }, store)
  | (none, store) => (s.close, store)

def advance (s : Shutdown) (call : Database.Call) : Shutdown :=
  match s.phase, call.result? with
  | .closing _, none => { s with phase := .closing call }
  | .removing _, none => { s with phase := .removing call }
  | _, some (.error e) => { s with phase := .finished (.error (.connection e)) }
  | .closing _, some (.ok _) =>
    if s.remove then { s with phase := .removing { request := .remove } }
    else { s with phase := .finished (.ok ()) }
  | .removing _, some (.ok _) => { s with phase := .finished (.ok ()) }
  | _, _ => s

end Shutdown

end SingleWriter
