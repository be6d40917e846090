import SingleWriter.Error.Errno

/-! Errors of the file system and of communication. -/

namespace SingleWriter

/-- The kinds of errors that carry no text of their own. -/
inductive IoKind where
  | notFound
  | permissionDenied
  | alreadyExists
  | wouldBlock
  | timedOut
  | resourceBusy
  | executableFileBusy
  | deadlock
  | interrupted
  | storageFull
  | unexpectedEof
  | other
deriving DecidableEq

def IoKind.message : IoKind → String
  | notFound => "entity not found"
  | permissionDenied => "permission denied"
  | alreadyExists => "entity already exists"
  | wouldBlock => "operation would block"
  | timedOut => "timed out"
  | resourceBusy => "resource busy"
  | executableFileBusy => "executable file busy"
  | deadlock => "deadlock"
  | interrupted => "operation interrupted"
  | storageFull => "no storage space"
  | unexpectedEof => "unexpected end of file"
  | other => "other error"

/-- An error of a kind, of the system's number, or with a text. -/
inductive IoError where
  | kind (k : IoKind)
  | os (errno : Int)
  | text (message : String)
deriving DecidableEq

namespace IoError

def message : IoError → String
  | kind k => k.message
  | os n => errnoText n ++ " (os error " ++ toString n ++ ")"
  | text m => m

def notFound : IoError := os 2

def fileExists : IoError := os 17

def notADirectory : IoError := os 20

def isADirectory : IoError := os 21

end IoError

end SingleWriter
