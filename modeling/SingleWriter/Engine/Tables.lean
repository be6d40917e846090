import SingleWriter.Error.Sql

/-! What the tables hold and how one change acts on them.  A change that breaks a constraint has no
effect; a reference to a missing parent is only counted, for the commit to judge. -/

namespace SingleWriter.Engine

structure Row where
  id : Nat
  key : String
  value : String
deriving DecidableEq

structure Tables where
  rows : List Row := []
  /-- The largest id that `kv` ever gave. -/
  lastId : Nat := 0
  parents : List Int := []
  children : List Int := []
deriving DecidableEq

inductive Change where
  | insert (key : String) (value : Option String)
  | update (key : String) (value : Option String)
  | delete (key : String)
  | parent (id : Int)
  | child (parent : Int)
  | nullLocked
deriving DecidableEq

def Change.table : Change → String
  | parent _ => "parents"
  | child _ => "children"
  | nullLocked => "accounts"
  | _ => "kv"

structure Applied where
  tables : Tables
  /-- How many references to missing parents come to the transaction's count. -/
  debt : Int := 0
  /-- The new id, or the number of rows changed. -/
  result : Nat
  touched : Bool

namespace Tables

def find? (t : Tables) (key : String) : Option Row := t.rows.find? (·.key == key)

def nextId (t : Tables) : Nat := t.lastId + 1

def insert (t : Tables) (key value : String) : Tables :=
  { t with rows := t.rows ++ [⟨t.nextId, key, value⟩], lastId := t.nextId }

def update (t : Tables) (key value : String) : Tables :=
  { t with rows := t.rows.map fun r => if r.key = key then { r with value } else r }

def delete (t : Tables) (key : String) : Tables :=
  { t with rows := t.rows.filter (·.key != key) }

/-- Carries out a change.  `references` says whether references are checked and `debt` is the number
of missing ones so far: a new parent settles its children's only if any are missing. -/
def apply (t : Tables) (references : Bool) (debt : Int) : Change → Except SqlError Applied
  | .insert _ none => .error (.notNullFailed "kv.v")
  | .insert key (some value) =>
    match t.find? key with
    | some _ => .error (.uniqueFailed "kv.k")
    | none => .ok { tables := t.insert key value, result := t.nextId, touched := true }
  | .update key value =>
    match t.find? key, value with
    | none, _ => .ok { tables := t, result := 0, touched := false }
    | some _, none => .error (.notNullFailed "kv.v")
    | some r, some v => .ok { tables := t.update key v, result := 1, touched := r.value != v }
  | .delete key =>
    match t.find? key with
    | none => .ok { tables := t, result := 0, touched := false }
    | some _ => .ok { tables := t.delete key, result := 1, touched := true }
  | .parent id =>
    if id ∈ t.parents then .error (.primaryKeyFailed "parents.id")
    else
      .ok {
        tables := { t with parents := id :: t.parents }
        debt := if references && debt != 0 then -(t.children.count id : Int) else 0
        result := 1
        touched := true }
  | .child parent =>
    .ok {
      tables := { t with children := parent :: t.children }
      debt := if references && !(t.parents.contains parent) then 1 else 0
      result := 1
      touched := true }
  | .nullLocked => .error (.notNullFailed "accounts.locked")

end Tables

end SingleWriter.Engine
