import SingleWriter.Error.Write
import SingleWriter.Text.Blank

/-! Which errors are worth another attempt.  A result code decides; where there is none, the text of
the error does.  Errors that end a write or keep the database from opening are never tried again. -/

namespace SingleWriter

/-- Whether a write may be tried again. -/
inductive ErrorClass where
  | transient
  | fatal
deriving DecidableEq

namespace Busy

/-- The phrases that tell of a lock held elsewhere. -/
def phrases : List String :=
  ["database is locked", "database is busy", "database table is locked",
    "sql statements in progress", "locked", "busy"]

/-- Whether `part` stands somewhere in `text`. -/
def occurs (part : List Char) : List Char → Bool
  | [] => part.isEmpty
  | c :: cs => part.isPrefixOf (c :: cs) || occurs part cs

theorem occurs_iff {part text : List Char} : occurs part text = true ↔ part <:+: text := by
  induction text with
  | nil => simp [occurs, List.infix_nil]
  | cons c cs ih =>
    rw [occurs, Bool.or_eq_true, ih, List.isPrefixOf_iff_prefix, List.infix_cons_iff]

/-- Whether a message holds one of the phrases, whatever the case of its ASCII letters. -/
def readsBusy (message : String) : Bool :=
  let folded := Text.lower message.toList
  phrases.any fun p => occurs p.toList folded

/-- Whether a result code is one of the two for locks, or an extension of one. -/
def isBusyCode (code : Int) : Bool := code % 256 == 5 || code % 256 == 6

def signedWord? (s : String) : Option Int :=
  let (negative, digits) := match s.toList with
    | '-' :: r => (true, r)
    | '+' :: r => (false, r)
    | r => (false, r)
  if digits.isEmpty || !digits.all Char.isDigit then none
  else
    let n : Int := digits.foldl (fun n c => 10 * n + (c.toNat - '0'.toNat : Nat)) 0
    let v := if negative then -n else n
    if -2147483648 ≤ v ∧ v ≤ 2147483647 then some v else none

def classOf (busy : Bool) : ErrorClass := if busy then .transient else .fatal

end Busy

open Busy

def SqlError.errorClass : SqlError → ErrorClass
  | .poolTimedOut => .transient
  | .database code message =>
    match code.bind signedWord? with
    | some c => classOf (isBusyCode c)
    | none => classOf (readsBusy message)
  | e => classOf (readsBusy e.message)

def ConnectionError.errorClass : ConnectionError → ErrorClass
  | .opening .. => .fatal
  | .pragma .. => .fatal
  | .notInitialized => .fatal
  | .closed => .fatal
  | .sql e => e.errorClass
  | .checkpoint _ e => e.errorClass
  | .io e => classOf (readsBusy (ConnectionError.io e).message)

/-- Whether a write that failed with this error may be tried again. -/
def WriteError.errorClass : WriteError → ErrorClass
  | .exhausted .. => .fatal
  | .cancelled .. => .fatal
  | .sql e => e.errorClass
  | .connection e => e.errorClass
  | .operation (.sql e) => e.errorClass
  | .operation cause => classOf (readsBusy cause.message)
  | .io e => classOf (readsBusy e.message)
  | .other m => classOf (readsBusy m)

def WriteError.isTransient (e : WriteError) : Bool := e.errorClass == .transient

end SingleWriter
