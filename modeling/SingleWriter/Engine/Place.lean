import SingleWriter.Engine.Disk

/-! The place of a database among the files of a directory. -/

namespace SingleWriter.Engine

/-- What a file system holds under one path. -/
inductive Node where
  | directory
  | file (empty : Bool)
deriving DecidableEq

/-- A directory's contents: paths by their components. -/
abbrev Listing := List (List String × Node)

def components (path : String) : List String :=
  (path.splitOn "/").filter fun c => c != "" && c != "."

namespace Listing

def hasDirectory (l : Listing) (path : List String) : Bool :=
  path.isEmpty || l.any fun (p, node) =>
    match node with
    | .directory => path.isPrefixOf p
    | .file _ => path.isPrefixOf p && path.length < p.length

/-- The file under a path, and whether it is empty. -/
def file? (l : Listing) (path : List String) : Option Bool :=
  l.findSome? fun (p, node) =>
    match node with
    | .file empty => if p = path then some empty else none
    | .directory => none

def parentOf (l : Listing) (path : List String) : Parent :=
  let parent := path.dropLast
  if l.hasDirectory parent then .directory
  else if (l.file? parent).isSome then .file
  else if (List.range parent.length).any fun n => (l.file? (parent.take n)).isSome then .belowFile
  else .missing

def strayOf (l : Listing) (path : List String) : Entry :=
  if l.hasDirectory path then .directory
  else
    match l.file? path with
    | some empty => .stray empty
    | none => .absent

def withSuffix (path : List String) (suffix : String) : List String :=
  path.dropLast ++ [path.getLastD "" ++ suffix]

/-- The place of a database in a directory.  An empty file is a database without tables; any other
file that was there before is none. -/
def place (l : Listing) (path : List String) : Disk :=
  let base : Disk :=
    { parent := l.parentOf path
      wal := l.strayOf (withSuffix path "-wal")
      shm := l.strayOf (withSuffix path "-shm") }
  if l.hasDirectory path then { base with main := .directory }
  else
    match l.file? path with
    | some empty => { base with main := .file 0, files := [{ alien := !empty }] }
    | none => base

end Listing

end SingleWriter.Engine
