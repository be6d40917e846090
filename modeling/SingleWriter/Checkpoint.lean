import SingleWriter.Text.Blank

/-! Checkpoints fold the write-ahead log back into the database file.  A mode says what a checkpoint
waits for; a mode name that is not known runs the engine's own mode instead of failing. -/

namespace SingleWriter

/-- What a checkpoint waits for, from nothing to an empty log file. -/
inductive CheckpointMode where
  | passive
  | normal
  | full
  | restart
  | truncate
deriving DecidableEq

namespace CheckpointMode

def name : CheckpointMode → String
  | passive => "PASSIVE"
  | normal => "NORMAL"
  | full => "FULL"
  | restart => "RESTART"
  | truncate => "TRUNCATE"

instance : ToString CheckpointMode where
  toString := name

def all : List CheckpointMode := [passive, normal, full, restart, truncate]

def variants : List (String × CheckpointMode) := all.map fun m => (m.name, m)

/-- The statement that runs the checkpoint; the engine's own mode is the bare pragma. -/
def statement : CheckpointMode → String
  | normal => "PRAGMA wal_checkpoint"
  | m => "PRAGMA wal_checkpoint(" ++ m.name ++ ")"

/-- The mode of a name with blanks around it and letters of either case; `normal` for any other
text. -/
def parse (text : String) : CheckpointMode :=
  let key := Text.upper (Text.trim text.toList)
  (all.find? fun m => m.name.toList == key).getD normal

end CheckpointMode

/-- What a checkpoint reports: whether it was kept from finishing, and the frames in the log and in
the file; both counts are missing outside write-ahead mode. -/
structure CheckpointReport where
  busy : Bool
  frames : Option (Nat × Nat)
deriving DecidableEq

/-- Whether all frames of the log are in the file. -/
def CheckpointReport.complete (r : CheckpointReport) : Bool :=
  match r.frames with
  | none => true
  | some (log, folded) => log == folded

end SingleWriter
