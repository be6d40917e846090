import SingleWriter.Engine.Statement
import SingleWriter.Proofs.Lookup

/-! What pragmas have made of a connection: those that have run on it, and its settings.  Both stay
with the connection.  `Disk.execute_tunes` says that no statement changes them, on whatever
connection it runs and however it ends. -/

namespace SingleWriter.Engine

/-- The pragmas that have run on a connection, in order, and the settings that they have left. -/
structure Tuning where
  applied : List Pragma
  settings : Settings
deriving DecidableEq

def Connection.tuning (c : Connection) : Tuning := ⟨c.applied, c.settings⟩

namespace Disk

variable {d d' : Disk} {id k : Nat} {c : Connection} {t : Tuning}

/-- The tuning of a connection that is open. -/
def tuning? (d : Disk) (id : Nat) : Option Tuning := (d.connection? id).map (·.tuning)

theorem tuning?_congr (h : d'.connections = d.connections) : d'.tuning? = d.tuning? := by
  funext k
  rw [tuning?, connection?, h]
  rfl

theorem connection?_setConnection (d : Disk) (id k : Nat) (c : Connection) :
    (d.setConnection id c).connection? k =
      if id = k then (d.connection? k).map fun _ => c else d.connection? k :=
  lookup_replace d.connections id c

theorem connection?_set_self {old : Connection} (h : d.connection? id = some old) :
    (d.setConnection id c).connection? id = some c := by
  rw [connection?_setConnection, if_pos rfl, h]
  rfl

theorem tuning?_set_ne (hk : k ≠ id) : (d.setConnection id c).tuning? k = d.tuning? k := by
  rw [tuning?, connection?_setConnection, if_neg (Ne.symm hk)]
  rfl

/-- `after` differs from `before` in the tuning of connection `id` at most, which is open there with
tuning `t`. -/
structure Tunes (before : Disk) (id : Nat) (t : Tuning) (after : Disk) : Prop where
  next : after.nextConnection = before.nextConnection
  own : after.tuning? id = some t
  others : ∀ k, k ≠ id → after.tuning? k = before.tuning? k

theorem Tunes.set {old : Connection} (h : d.Tunes id t d') (hold : d'.connection? id = some old) :
    d.Tunes id c.tuning (d'.setConnection id c) where
  next := h.next
  own := by rw [tuning?, connection?_set_self hold]; rfl
  others := by
    intro k hk
    rw [tuning?_set_ne hk]
    exact h.others k hk

/-- Files and entries may change as they like. -/
theorem Tunes.of_connections {e : Disk} (h : d.Tunes id t d')
    (hconnections : e.connections = d'.connections) (hnext : e.nextConnection = d'.nextConnection) :
    d.Tunes id t e := by
  have hsame := tuning?_congr hconnections
  refine ⟨hnext.trans h.next, hsame ▸ h.own, ?_⟩
  intro k hk
  rw [hsame]
  exact h.others k hk

theorem openLog_cases (d : Disk) (id : Nat) (c : Connection) :
    d.openLog id c = d ∨
      ∃ e : Disk, e.connections = d.connections ∧ e.nextConnection = d.nextConnection ∧
        d.openLog id c = e.setConnection id { c with logOpen := true, journal := .wal } := by
  unfold openLog
  split
  · refine .inr ?_
    dsimp only
    split
    · exact ⟨{ d with wal := .file c.file, shm := .file c.file }, rfl, rfl, rfl⟩
    · exact ⟨d, rfl, rfl, rfl⟩
  · exact .inl rfl

end Disk

namespace View

open Disk

variable {d : Disk} {id : Nat} {t : Tuning} {v w : View}

/-- The view is that of connection `id`, which has tuning `t`; all others are as they are in `d`. -/
structure On (d : Disk) (id : Nat) (t : Tuning) (v : View) : Prop where
  same : v.id = id
  connection : v.disk.connection? id = some v.connection
  tunes : d.Tunes id t v.disk

namespace On

theorem tuning (h : v.On d id t) : v.connection.tuning = t := by
  have hown := h.tunes.own
  rw [tuning?, h.connection] at hown
  exact Option.some.inj hown

theorem start {c : Connection} (hc : d.connection? id = some c) :
    (View.mk d id c).On d id c.tuning :=
  ⟨rfl, hc, ⟨rfl, by rw [tuning?, hc]; rfl, fun _ _ => rfl⟩⟩

/-- The view moves on to a disk where its connection has a tuning, which may be a new one. -/
theorem onto {e : Disk} {u : Tuning} (h : v.On d id t) (he : d.Tunes id u e) :
    (v.onto e).On d id u := by
  have hopen := he.own
  rw [tuning?, Option.map_eq_some_iff] at hopen
  obtain ⟨c, hc, -⟩ := hopen
  refine ⟨h.same, ?_, he⟩
  show e.connection? id = some ((e.connection? v.id).getD v.connection)
  rw [h.same, hc]
  rfl

theorem put {c : Connection} (h : v.On d id t) : d.Tunes id c.tuning (v.put c) := by
  rw [View.put, h.same]
  exact h.tunes.set h.connection

theorem put_same {c : Connection} (h : v.On d id t) (hc : c.tuning = v.connection.tuning) :
    d.Tunes id t (v.put c) := by
  have htunes := h.put (c := c)
  rwa [hc, h.tuning] at htunes

theorem retouch (h : v.On d id t) (c : Connection) (hc : c.tuning = v.connection.tuning) :
    (v.onto (v.put c)).On d id t := h.onto (h.put_same hc)

theorem setTransaction (h : v.On d id t) (x : Transaction) : d.Tunes id t (v.setTransaction x) :=
  h.put_same rfl

theorem setFile (h : v.On d id t) (n : Nat) (f : File) : d.Tunes id t (v.disk.setFile n f) :=
  h.tunes.of_connections rfl rfl

theorem openLog (h : v.On d id t) : d.Tunes id t (v.disk.openLog v.id v.connection) := by
  rcases v.disk.openLog_cases v.id v.connection with hsame | ⟨e, hconnections, hnext, hset⟩
  · rw [hsame]
    exact h.tunes
  · rw [hset, h.same]
    have htunes := h.tunes.of_connections hconnections hnext
    have hopen : e.connection? id = some v.connection := by
      rw [connection?, hconnections]
      exact h.connection
    have hset := htunes.set hopen (c := { v.connection with logOpen := true, journal := .wal })
    rwa [show Connection.tuning { v.connection with logOpen := true, journal := .wal } = t from
      h.tuning] at hset

/-! ### Looking at the file -/

theorem startReading (h : v.On d id t) (hv : v.startReading = .ok w) : w.On d id t := by
  unfold View.startReading at hv
  split at hv
  · cases hv
  · split at hv
    · split at hv
      · split at hv
        · cases hv
        · cases hv
          exact h.onto (h.tunes.of_connections rfl rfl)
        · cases hv
          exact h
      · cases hv
        exact h.onto h.openLog
    · cases hv

theorem takeNote (h : v.On d id t) : v.takeNote.On d id t := h.onto (h.put_same rfl)

theorem learn (h : v.On d id t) (hv : v.learn = .ok w) : w.On d id t := by
  unfold View.learn at hv
  split at hv
  · cases hv
    exact h
  · split at hv
    · cases hv
      exact h.takeNote
    · cases hread : v.startReading with
      | error o =>
        rw [hread] at hv
        cases hv
      | ok u =>
        rw [hread] at hv
        cases hv
        exact (h.startReading hread).takeNote

theorem refresh (h : v.On d id t) : v.refresh.On d id t := by
  unfold View.refresh
  split
  · exact h.takeNote
  · split
    · rename_i hread
      exact (h.startReading hread).takeNote
    · exact h

theorem query (h : v.On d id t) (answer : Tables → Except SqlError Reply) :
    d.Tunes id t (v.query answer).2 := by
  have hfresh := h.refresh
  simp only [View.query]
  split
  · exact hfresh.tunes
  · split
    · split
      · exact hfresh.tunes
      · rename_i hread
        exact (hfresh.startReading hread).tunes
    · split
      · exact hfresh.tunes
      · rename_i hread
        exact (hfresh.startReading hread).setTransaction _
    · exact hfresh.tunes

theorem glance (h : v.On d id t) : d.Tunes id t v.glance.2 := by
  unfold View.glance
  split
  · split
    · exact h.tunes
    · rename_i hread
      exact (h.startReading hread).tunes
  · split
    · exact h.tunes
    · rename_i hread
      exact (h.startReading hread).setTransaction _
  · exact h.tunes

/-! ### Transactions -/

/-- Where an attempt at the write lock ends, with the lock or without, the tuning is as before. -/
def Settled (d : Disk) (id : Nat) (t : Tuning) : Except (Outcome × Disk) View → Prop
  | .ok w => w.On d id t
  | .error answer => d.Tunes id t answer.2

theorem startWriting (h : v.On d id t) (grip : Grip) : Settled d id t (v.startWriting grip) := by
  simp only [View.startWriting]
  split
  · exact h
  · split
    · exact h.tunes
    · split
      · exact h.tunes
      · exact h.onto (h.setTransaction _)
  · split
    · exact h.tunes
    · rename_i hread
      have hw := h.startReading hread
      split
      · exact hw.onto (hw.setTransaction _)
      · exact hw.tunes

theorem started (h : v.On d id t) {grip : Grip} (hv : v.startWriting grip = .ok w) :
    w.On d id t := by
  have hw := h.startWriting grip
  rwa [hv] at hw

theorem unstarted (h : v.On d id t) {grip : Grip} {answer : Outcome × Disk}
    (hv : v.startWriting grip = .error answer) : d.Tunes id t answer.2 := by
  have hw := h.startWriting grip
  rwa [hv] at hw

theorem publish (h : v.On d id t) (contents : Option Tables) (changed : Bool) :
    d.Tunes id t (v.publish contents changed) := by
  unfold View.publish
  have htuning : Connection.tuning { v.connection with transaction := .idle, debt := 0 } = t :=
    h.tuning
  rw [h.same, ← htuning]
  split
  · exact (h.setFile v.connection.file (v.file.commit contents)).set h.connection
  · exact h.tunes.set h.connection

theorem begin (h : v.On d id t) (kind : BeginKind) : d.Tunes id t (v.begin kind).2 := by
  have hready : (if v.connection.inTransaction then v
      else v.onto (v.put { v.connection with markedBefore := v.connection.marked })).On d id t := by
    split
    · exact h
    · exact h.onto (h.put_same rfl)
  simp only [View.begin]
  generalize (if v.connection.inTransaction then v
    else v.onto (v.put { v.connection with markedBefore := v.connection.marked })) = u at hready ⊢
  cases kind with
  | deferred =>
    show d.Tunes id t (if v.connection.inTransaction then u.disk else u.setTransaction .begun)
    split
    · exact hready.tunes
    · exact hready.setTransaction _
  | immediate =>
    cases hw : u.startWriting .reserved with
    | error answer => exact hready.unstarted hw
    | ok w => exact (hready.started hw).tunes
  | exclusive =>
    cases hw : u.startWriting .exclusive with
    | error answer => exact hready.unstarted hw
    | ok w =>
      dsimp only
      split
      · exact (hready.started hw).tunes
      · exact hready.tunes

theorem commit (h : v.On d id t) : d.Tunes id t v.commit.2 := by
  unfold View.commit
  split
  · exact h.tunes
  · split
    · exact h.tunes
    · split
      · exact h.publish _ _
      · exact h.setTransaction _
  · exact h.setTransaction _

theorem rollback (h : v.On d id t) : d.Tunes id t v.rollback.2 := by
  unfold View.rollback
  split
  · exact h.put_same rfl
  · exact h.tunes

/-! ### Changes and checkpoints -/

theorem changeAlone (h : v.On d id t) (tables : Tables) (c : Change) :
    d.Tunes id t (v.changeAlone tables c).2 := by
  unfold View.changeAlone
  split
  · rename_i hw
    exact h.unstarted hw
  · rename_i w hw
    have hw := h.started hw
    have huntouched : d.Tunes id t (w.onto (w.setTransaction .idle)).disk :=
      (hw.onto (hw.setTransaction _)).tunes
    split
    · exact huntouched
    · split
      · exact huntouched
      · split
        · exact hw.publish _ _
        · exact huntouched

theorem changeWithin (h : v.On d id t) (tables : Tables) (c : Change) :
    d.Tunes id t (v.changeWithin tables c).2 := by
  unfold View.changeWithin
  split
  · rename_i hw
    exact h.unstarted hw
  · rename_i w hw
    have hw := h.started hw
    split
    · split
      · exact hw.tunes
      · exact hw.put_same rfl
    · exact hw.tunes

theorem change (h : v.On d id t) (c : Change) : d.Tunes id t (v.change c).2 := by
  have hfresh := h.refresh
  simp only [View.change]
  split
  · exact hfresh.tunes
  · split
    · exact hfresh.changeAlone _ _
    · exact hfresh.changeWithin _ _

theorem createTables (h : v.On d id t) : d.Tunes id t v.createTables.2 := by
  have hfresh := h.refresh
  simp only [View.createTables]
  split
  · exact hfresh.glance
  · split
    · rename_i hw
      exact hfresh.unstarted hw
    · rename_i w hw
      have hw := hfresh.started hw
      split
      · split
        · exact (hw.retouch { w.connection with tables? := some true } rfl).publish _ _
        · exact hw.put_same rfl
      · exact hw.put_same rfl
      · exact hw.tunes

theorem checkpoint (h : v.On d id t) (mode : CheckpointMode) (patient : Bool) :
    d.Tunes id t (v.checkpoint mode patient).2 := by
  simp only [View.checkpoint]
  split
  · exact h.tunes
  · split
    · exact h.tunes
    · split
      · exact h.openLog
      · split
        · exact h.tunes
        · exact (h.onto h.openLog).setFile _ _

/-! ### All statements -/

theorem carryOut (h : v.On d id t) (patient : Bool) (s : Statement) :
    d.Tunes id t (v.carryOut patient s).2 := by
  cases s with
  | «begin» kind => exact h.begin kind
  | commit => exact h.commit
  | rollback => exact h.rollback
  | change c => exact h.change c
  | missingTable => exact h.refresh.tunes
  | get key => exact h.query _
  | count => exact h.query _
  | survey => exact h.query _
  | glance => exact h.glance
  | mark => exact h.put_same rfl
  | marked => exact h.put_same rfl
  | settings => exact h.tunes
  | createTables => exact h.createTables
  | checkpoint mode => exact h.checkpoint mode patient

theorem attempt (h : v.On d id t) (patient : Bool) (s : Statement) :
    d.Tunes id t (v.attempt patient s).2 := by
  unfold View.attempt
  split
  · split
    · exact h.tunes
    · rename_i hlearn
      exact (h.learn hlearn).carryOut patient s
  · exact h.carryOut patient s

end On

end View

namespace Disk

/-- A statement changes the tuning of no connection, and opens and closes none. -/
theorem execute_tuning (d : Disk) (id : Nat) (patient : Bool) (s : Statement) :
    (d.execute id patient s).2.nextConnection = d.nextConnection ∧
      (d.execute id patient s).2.tuning? = d.tuning? := by
  cases hc : d.connection? id with
  | none =>
    have hdisk : (d.execute id patient s).2 = d := by simp only [execute, hc]
    rw [hdisk]
    exact ⟨rfl, rfl⟩
  | some c =>
    have htunes := (View.On.start hc).attempt patient s
    have hdisk : (d.execute id patient s).2 = ((View.mk d id c).attempt patient s).2 := by
      simp only [execute, hc]
      split <;> simp_all
    rw [hdisk]
    refine ⟨htunes.next, funext fun k => ?_⟩
    by_cases hk : k = id
    · rw [hk, htunes.own, tuning?, hc]
      rfl
    · exact htunes.others k hk

end Disk

end SingleWriter.Engine
