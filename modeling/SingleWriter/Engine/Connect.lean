import SingleWriter.DatabaseConfig
import SingleWriter.Engine.Statement

/-! New connections.  Opening a file creates it if need be; then the pragmas of a configuration run
one after the other, and only a connection on which all of them ran is handed out. -/

namespace SingleWriter.Engine

/-- The longest busy timeout in milliseconds. -/
def maxBusyTimeout : Nat := 2147483647

/-- The busy timeout that a pragma's value spells; what is too long counts as none. -/
def busyTimeoutOf (value : String) : Nat :=
  let ms := Duration.digitsValue value.toList
  if ms ≤ maxBusyTimeout then ms else 0

namespace View

/-- Reads the head of the file, as the first pragma about it does; from then on the connection knows
whether there are tables. -/
def readHead (v : View) : Except SqlError View :=
  match v.startReading with
  | .error (.failed e) => .error e
  | .error _ => .error .locked
  | .ok v => .ok v.takeNote

/-- Switches the file to a log.  Nobody else may read or write meanwhile. -/
def enableLog (v : View) : Except SqlError View :=
  match v.readHead with
  | .error e => .error e
  | .ok v =>
    match v.file.journal with
    | .wal => .ok v
    | .rollback =>
      if v.others.any (·.reads) then .error .locked
      else
        let v := v.onto (v.put { v.connection with journal := .wal })
        .ok (v.onto (v.disk.setFile v.connection.file
          { v.file with journal := .wal, formatted := true }))

def set (v : View) (f : Settings → Settings) : View :=
  v.onto (v.put { v.connection with settings := f v.connection.settings })

def perform (v : View) (p : Pragma) : Except SqlError View :=
  match p.name with
  | "busy_timeout" => .ok (v.set fun s => { s with busyTimeout := busyTimeoutOf p.value })
  | "synchronous" =>
    v.readHead.map fun v =>
      v.set fun s =>
        { s with synchronous := (Synchronous.variants.lookup p.value).getD s.synchronous }
  | "temp_store" =>
    .ok (v.set fun s =>
      { s with tempStore := (TempStore.variants.lookup p.value).getD s.tempStore })
  | "journal_mode" => if p.value = "WAL" then v.enableLog else .ok v
  | "foreign_keys" => .ok (v.set fun s => { s with foreignKeys := p.value == "ON" })
  | _ => .ok v

/-- Runs one pragma and puts it down as run on the connection, whether it fails or not. -/
def runPragma (v : View) (p : Pragma) : View × Except SqlError Unit :=
  let v := v.onto (v.put { v.connection with applied := v.connection.applied ++ [p] })
  match v.perform p with
  | .ok v => (v, .ok ())
  | .error e => (v, .error e)

def configure (v : View) : List Pragma → View × Except SqlError Unit
  | [] => (v, .ok ())
  | p :: ps =>
    match v.runPragma p with
    | (v, .ok ()) => v.configure ps
    | answer => answer

end View

namespace Disk

/-- A log that someone has left beside a file that is no database gets an index beside it. -/
def indexStrayLog (d : Disk) (file : Nat) : Disk :=
  if (d.file file).alien ∧ d.wal = .stray false ∧ d.shm ≠ .directory then
    { d with shm := .stray false }
  else d

/-- Opens the file at the path, which is created if there is none. -/
def connect (d : Disk) : Except SqlError (Nat × Disk) :=
  match d.parent, d.main with
  | .directory, .absent =>
    let id := d.files.length
    let d := { d with main := .file id, files := d.files ++ [({} : File)] }
    .ok (d.addConnection { file := id })
  | .directory, .file id => .ok ((d.indexStrayLog id).addConnection { file := id })
  | _, _ => .error .cannotOpen

/-- How an attempt at a configured connection ends.  One that was refused is hopeless; one that
failed on a pragma may be tried again. -/
inductive Opened where
  | connection (id : Nat)
  | refused (e : SqlError)
  | failed (e : SqlError)
deriving DecidableEq

/-- Opens a connection and runs the pragmas of a configuration on it. -/
def openConfigured (d : Disk) (config : DatabaseConfig) : Opened × Disk :=
  match d.connect with
  | .error e => (.refused e, d)
  | .ok (id, d) =>
    if maxBusyTimeout < config.busyTimeout.millis then (.refused .workerCrashed, d.close id)
    else
      match d.connection? id with
      | none => (.refused .workerCrashed, d)
      | some c =>
        match (View.mk d id c).configure config.plan with
        | (v, .ok ()) => (.connection id, v.disk)
        | (v, .error e) => (.failed e, v.disk.close id)

/-- Opens a connection without patience and pragmas; there must be a file. -/
def openPlain (d : Disk) : Except SqlError (Nat × Disk) :=
  match d.main with
  | .file _ => d.connect
  | _ => .error .cannotOpen

end Disk

end SingleWriter.Engine
