/-! Pragmas: settings of one connection, each written as one statement. -/

namespace SingleWriter

structure Pragma where
  name : String
  value : String
deriving DecidableEq

def Pragma.statement (p : Pragma) : String := "PRAGMA " ++ p.name ++ " = " ++ p.value

/-- How often the engine waits for the disk. -/
inductive Synchronous where
  | off
  | normal
  | full
  | extra
deriving DecidableEq

inductive TempStore where
  | default
  | file
  | memory
deriving DecidableEq

namespace Synchronous

def name : Synchronous → String
  | off => "OFF"
  | normal => "NORMAL"
  | full => "FULL"
  | extra => "EXTRA"

/-- The number by which the engine reports the setting. -/
def level : Synchronous → Nat
  | off => 0
  | normal => 1
  | full => 2
  | extra => 3

def all : List Synchronous := [off, normal, full, extra]

def variants : List (String × Synchronous) := all.map fun s => (s.name, s)

end Synchronous

namespace TempStore

def name : TempStore → String
  | default => "DEFAULT"
  | file => "FILE"
  | memory => "MEMORY"

/-- The number by which the engine reports the setting. -/
def level : TempStore → Nat
  | default => 0
  | file => 1
  | memory => 2

def all : List TempStore := [default, file, memory]

def variants : List (String × TempStore) := all.map fun s => (s.name, s)

end TempStore

end SingleWriter
