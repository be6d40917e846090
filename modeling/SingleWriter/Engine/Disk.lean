import SingleWriter.Engine.Tables
import SingleWriter.Pragma

/-! The place of one database: its file and side files, and the connections to it.  A connection
belongs to the file that it has opened, also when that file is no longer at the path. -/

namespace SingleWriter.Engine

/-- How a file survives an interrupted commit. -/
inductive Journal where
  | rollback
  | wal
deriving DecidableEq

def Journal.name : Journal → String
  | rollback => "delete"
  | wal => "wal"

/-- A database file with its log. -/
structure File where
  contents : Option Tables := none
  formatted : Bool := false
  /-- Whether the file holds something that is no database. -/
  alien : Bool := false
  journal : Journal := .rollback
  version : Nat := 0
  /-- The commits that the file itself holds; the later ones are in the log. -/
  folded : Nat := 0
  /-- The commits at which the log was last empty. -/
  emptied : Nat := 0
  /-- A number that changes with each commit and with each emptying of the log. -/
  stamp : Nat := 0
deriving DecidableEq

namespace File

def logged (f : File) : Bool := f.emptied < f.version

def commit (f : File) (contents : Option Tables) : File :=
  let version := f.version + 1
  match f.journal with
  | .wal => { f with contents, version, formatted := true, stamp := f.stamp + 1 }
  | .rollback =>
    { f with
      contents, version, formatted := true, stamp := f.stamp + 1
      folded := version, emptied := version }

def withoutLog (f : File) : File := { f with folded := f.version, emptied := f.version }

end File

/-- What a transaction sees of the file. -/
structure Snapshot where
  contents : Option Tables
  version : Nat
  stamp : Nat
  /-- Whether some of it is read from the log. -/
  viaLog : Bool
deriving DecidableEq

def File.snapshot (f : File) : Snapshot :=
  ⟨f.contents, f.version, f.stamp, f.journal == .wal && f.folded < f.version⟩

/-- How far a writer keeps others out: from writing, from starting to read, or from reading. -/
inductive Grip where
  | reserved
  | pending
  | exclusive
deriving DecidableEq

/-- What a transaction has written so far. -/
structure Draft where
  contents : Option Tables
  changed : Bool
  grip : Grip
deriving DecidableEq

/-- Where a connection stands: outside a transaction, in one that has touched nothing yet, in one
that reads, or in one that may write. -/
inductive Transaction where
  | idle
  | begun
  | reading (seen : Snapshot)
  | writing (seen : Snapshot) (draft : Draft)
deriving DecidableEq

/-- The settings that pragmas give a connection. -/
structure Settings where
  /-- How many milliseconds a statement waits for a lock. -/
  busyTimeout : Nat := 0
  synchronous : Synchronous := .full
  tempStore : TempStore := .default
  foreignKeys : Bool := true
deriving DecidableEq

structure Connection where
  file : Nat
  settings : Settings := {}
  applied : List Pragma := []
  logOpen : Bool := false
  /-- The journal of the file when the connection last looked. -/
  journal : Journal := .rollback
  tables? : Option Bool := none
  transaction : Transaction := .idle
  /-- The references to missing parents in the transaction. -/
  debt : Int := 0
  /-- Whether the connection has ever looked at its temporary tables. -/
  temporary : Bool := false
  marked : Bool := false
  /-- Whether it existed when the transaction began. -/
  markedBefore : Bool := false
deriving DecidableEq

namespace Connection

def inTransaction (c : Connection) : Bool := c.transaction != .idle

def snapshot? (c : Connection) : Option Snapshot :=
  match c.transaction with
  | .reading s => some s
  | .writing s _ => some s
  | _ => none

def reads (c : Connection) : Bool := c.snapshot?.isSome

def grip? (c : Connection) : Option Grip :=
  match c.transaction with
  | .writing _ d => some d.grip
  | _ => none

def writes (c : Connection) : Bool := c.grip?.isSome

/-- Whether the connection keeps others from reading a file without a log. -/
def shutsOut (c : Connection) : Bool :=
  match c.grip? with
  | some .pending => true
  | some .exclusive => true
  | _ => false

end Connection

/-- What stands under a name: nothing, a directory, a file of the database with a number, or a file
of someone else that is empty or not. -/
inductive Entry where
  | absent
  | directory
  | file (id : Nat)
  | stray (empty : Bool)
deriving DecidableEq

/-- What the path lies in: a directory, nothing, a file, or something below a file. -/
inductive Parent where
  | directory
  | missing
  | file
  | belowFile
deriving DecidableEq

/-- The three names that belong to a database. -/
inductive Part where
  | main
  | wal
  | shm
deriving DecidableEq

/-- The place of a database with everything that is open there. -/
structure Disk where
  parent : Parent := .directory
  main : Entry := .absent
  wal : Entry := .absent
  shm : Entry := .absent
  /-- All files by number, also those that are no longer at the path. -/
  files : List File := []
  connections : List (Nat × Connection) := []
  nextConnection : Nat := 0
deriving DecidableEq

namespace Disk

def entry (d : Disk) : Part → Entry
  | .main => d.main
  | .wal => d.wal
  | .shm => d.shm

def setEntry (d : Disk) (e : Entry) : Part → Disk
  | .main => { d with main := e }
  | .wal => { d with wal := e }
  | .shm => { d with shm := e }

def file (d : Disk) (id : Nat) : File := d.files.getD id {}

def setFile (d : Disk) (id : Nat) (f : File) : Disk := { d with files := d.files.set id f }

def connection? (d : Disk) (id : Nat) : Option Connection := d.connections.lookup id

def setConnection (d : Disk) (id : Nat) (c : Connection) : Disk :=
  { d with connections := d.connections.map fun (i, old) => if i = id then (i, c) else (i, old) }

def others (d : Disk) (id : Nat) (c : Connection) : List Connection :=
  (d.connections.filter fun (i, o) => i != id && o.file == c.file).map (·.2)

def addConnection (d : Disk) (c : Connection) : Nat × Disk :=
  (d.nextConnection,
    { d with
      connections := d.connections ++ [(d.nextConnection, c)]
      nextConnection := d.nextConnection + 1 })

/-- A connection opens the log of its file; the side files are there from then on. -/
def openLog (d : Disk) (id : Nat) (c : Connection) : Disk :=
  if (d.file c.file).journal = .wal ∧ c.logOpen = false then
    let d := d.setConnection id { c with logOpen := true, journal := .wal }
    if d.main = .file c.file then { d with wal := .file c.file, shm := .file c.file } else d
  else d

def dropLogEntries (d : Disk) (file : Nat) : Disk :=
  { d with
    wal := if d.wal = .file file then .absent else d.wal
    shm := if d.shm = .file file then .absent else d.shm }

/-- Closes a connection; what it has not committed is gone.  The last one that has the log open
folds it back and deletes it. -/
def close (d : Disk) (id : Nat) : Disk :=
  match d.connection? id with
  | none => d
  | some c =>
    let d := { d with connections := d.connections.filter (·.1 != id) }
    if c.logOpen && !(d.others id c).any (·.logOpen) then
      (d.setFile c.file (d.file c.file).withoutLog).dropLogEntries c.file
    else d

def unlink (d : Disk) (p : Part) : Except IoError Disk :=
  match d.parent with
  | .directory =>
    match d.entry p with
    | .absent => .error .notFound
    | .directory => .error .isADirectory
    | _ => .ok (d.setEntry .absent p)
  | .missing => .error .notFound
  | _ => .error .notADirectory

/-- Deletes several names in order.  What is not there is passed over; any other error ends it. -/
def unlinkAll (d : Disk) : List Part → Disk × Except IoError Unit
  | [] => (d, .ok ())
  | p :: ps =>
    match d.unlink p with
    | .ok d => d.unlinkAll ps
    | .error e => if e = .notFound then d.unlinkAll ps else (d, .error e)

/-- How a name looks from outside. -/
inductive Look where
  | absent
  | empty
  | data
  | directory
deriving DecidableEq

def look (d : Disk) (p : Part) : Look :=
  match d.parent, d.entry p with
  | .directory, .directory => .directory
  | .directory, .stray empty => if empty then .empty else .data
  | .directory, .file id =>
    let f := d.file id
    match p with
    | .main => if f.formatted || f.alien then .data else .empty
    | .wal => if f.logged then .data else .empty
    | .shm => .data
  | _, _ => .absent

/-- Creates the directory of the path and those around it. -/
def createParent (d : Disk) : Except IoError Disk :=
  match d.parent with
  | .directory => .ok d
  | .missing => .ok { d with parent := .directory }
  | .file => .error .fileExists
  | .belowFile => .error .notADirectory

end Disk

end SingleWriter.Engine
