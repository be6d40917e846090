import SingleWriter.Engine.Connect
import SingleWriter.Proofs.Tuning

/-! The plan of a configuration, and the connections that it is run on.  `Disk.openConfigured_opens`
says what an opening comes to: a new connection that has the tuning of the configuration, or none.
`Disk.openConfigured_failed` says what a connection has seen on which a pragma failed. -/

namespace SingleWriter

open Engine

namespace DatabaseConfig

variable {c : DatabaseConfig}

/-- The statements of a plan, in the order in which they run. -/
theorem plan_statements (c : DatabaseConfig) :
    c.plan.map Pragma.statement =
      ["PRAGMA busy_timeout = " ++ toString c.busyTimeout.millis,
        "PRAGMA synchronous = " ++ c.synchronous.name,
        "PRAGMA temp_store = " ++ c.tempStore.name] ++
      (if c.enableWal then ["PRAGMA journal_mode = WAL"] else []) ++
      ["PRAGMA foreign_keys = " ++ if c.foreignKeys then "ON" else "OFF"] := by
  cases hwal : c.enableWal <;> simp [plan, hwal, Pragma.statement]

theorem plan_nodup (c : DatabaseConfig) : (c.plan.map (·.name)).Nodup := by
  cases hwal : c.enableWal <;> simp [plan, hwal]

theorem journal_mode_mem_plan : (∃ p ∈ c.plan, p.name = "journal_mode") ↔ c.enableWal = true := by
  cases hwal : c.enableWal <;> simp [plan, hwal]

/-- The settings that a configuration asks for. -/
def settings (c : DatabaseConfig) : Settings where
  busyTimeout := c.busyTimeout.millis
  synchronous := c.synchronous
  tempStore := c.tempStore
  foreignKeys := c.foreignKeys

/-- The tuning of a connection on which the whole plan has run. -/
def tuning (c : DatabaseConfig) : Tuning := ⟨c.plan, c.settings⟩

end DatabaseConfig

/-- The settings after a pragma that has succeeded. -/
def Pragma.tune (p : Pragma) (s : Settings) : Settings :=
  match p.name with
  | "busy_timeout" => { s with busyTimeout := busyTimeoutOf p.value }
  | "synchronous" =>
    { s with synchronous := (Synchronous.variants.lookup p.value).getD s.synchronous }
  | "temp_store" => { s with tempStore := (TempStore.variants.lookup p.value).getD s.tempStore }
  | "foreign_keys" => { s with foreignKeys := p.value == "ON" }
  | _ => s

namespace Engine

namespace Tuning

/-- The tuning after a pragma that has succeeded. -/
def after (t : Tuning) (p : Pragma) : Tuning := ⟨t.applied ++ [p], p.tune t.settings⟩

theorem foldl_applied (ps : List Pragma) (t : Tuning) :
    (ps.foldl after t).applied = t.applied ++ ps := by
  induction ps generalizing t with
  | nil => rw [List.foldl_nil, List.append_nil]
  | cons p ps ih => rw [List.foldl_cons, ih, after, List.append_assoc, List.singleton_append]

theorem foldl_settings (ps : List Pragma) (t : Tuning) :
    (ps.foldl after t).settings = ps.foldl (fun s p => p.tune s) t.settings := by
  induction ps generalizing t with
  | nil => rfl
  | cons p ps ih => rw [List.foldl_cons, List.foldl_cons, ih, after]

end Tuning

theorem busyTimeoutOf_repr {ms : Nat} (h : ms ≤ maxBusyTimeout) : busyTimeoutOf ms.repr = ms := by
  have hdigits : Duration.digitsValue ms.repr.toList = ms := by
    show Nat.ofDigitChars 10 ms.repr.toList 0 = ms
    rw [Nat.repr_eq_ofList_toDigits, String.toList_ofList]
    exact Nat.ofDigitChars_toDigits (by decide) (by decide)
  rw [busyTimeoutOf, hdigits]
  exact if_pos h

/-- A plan leaves a new connection with the settings of its configuration, as long as the engine
can wait that long. -/
theorem plan_tuning {c : DatabaseConfig} (h : c.busyTimeout.millis ≤ maxBusyTimeout) :
    c.plan.foldl Tuning.after ⟨[], {}⟩ = c.tuning := by
  have hsettings : c.plan.foldl (fun s p => p.tune s) {} = c.settings := by
    have hsynchronous : Synchronous.variants.lookup c.synchronous.name = some c.synchronous := by
      cases c.synchronous <;> decide
    have htemp : TempStore.variants.lookup c.tempStore.name = some c.tempStore := by
      cases c.tempStore <;> decide
    cases hwal : c.enableWal <;> cases hkeys : c.foreignKeys <;>
      simp [DatabaseConfig.plan, DatabaseConfig.settings, hwal, hkeys, Pragma.tune,
        busyTimeoutOf_repr h, hsynchronous, htemp]
  have happlied := Tuning.foldl_applied c.plan ⟨[], {}⟩
  rw [DatabaseConfig.tuning, ← hsettings, ← Tuning.foldl_settings c.plan ⟨[], {}⟩]
  exact congrArg (Tuning.mk · _) happlied

namespace View

open Disk

variable {d : Disk} {id : Nat} {t : Tuning} {v w : View} {p : Pragma}

namespace On

theorem set (h : v.On d id t) (f : Settings → Settings) :
    (v.set f).On d id ⟨t.applied, f t.settings⟩ := by
  have hput := h.put (c := { v.connection with settings := f v.connection.settings })
  rw [← h.tuning]
  exact h.onto hput

theorem readHead (h : v.On d id t) (hv : v.readHead = .ok w) : w.On d id t := by
  unfold View.readHead at hv
  split at hv
  · cases hv
  · cases hv
  · rename_i hread
    cases hv
    exact (h.startReading hread).takeNote

theorem enableLog (h : v.On d id t) (hv : v.enableLog = .ok w) : w.On d id t := by
  unfold View.enableLog at hv
  split at hv
  · cases hv
  · rename_i u hread
    have hu := h.readHead hread
    split at hv
    · cases hv
      exact hu
    · split at hv
      · cases hv
      · cases hv
        have hlooked := hu.retouch { u.connection with journal := .wal } rfl
        exact hlooked.onto (hlooked.setFile _ _)

theorem perform (h : v.On d id t) (hv : v.perform p = .ok w) :
    w.On d id ⟨t.applied, p.tune t.settings⟩ := by
  unfold View.perform at hv
  split at hv
  · rename_i hname
    cases hv
    simp only [Pragma.tune, hname]
    exact h.set fun s => { s with busyTimeout := busyTimeoutOf p.value }
  · rename_i hname
    cases hread : v.readHead with
    | error e =>
      rw [hread] at hv
      cases hv
    | ok u =>
      rw [hread] at hv
      cases hv
      simp only [Pragma.tune, hname]
      exact (h.readHead hread).set fun s =>
        { s with synchronous := (Synchronous.variants.lookup p.value).getD s.synchronous }
  · rename_i hname
    cases hv
    simp only [Pragma.tune, hname]
    exact h.set fun s =>
      { s with tempStore := (TempStore.variants.lookup p.value).getD s.tempStore }
  · rename_i hname
    simp only [Pragma.tune, hname]
    split at hv
    · exact h.enableLog hv
    · cases hv
      exact h
  · rename_i hname
    cases hv
    simp only [Pragma.tune, hname]
    exact h.set fun s => { s with foreignKeys := p.value == "ON" }
  · cases hv
    rw [Pragma.tune]
    split <;> first | contradiction | exact h

/-- A pragma is put down as run before it does anything. -/
theorem noted (h : v.On d id t) (p : Pragma) :
    (v.onto (v.put { v.connection with applied := v.connection.applied ++ [p] })).On d id
      ⟨t.applied ++ [p], t.settings⟩ := by
  have hput := h.put (c := { v.connection with applied := v.connection.applied ++ [p] })
  rw [← h.tuning]
  exact h.onto hput

theorem runPragma (h : v.On d id t) (hv : v.runPragma p = (w, .ok ())) :
    w.On d id (t.after p) := by
  simp only [View.runPragma] at hv
  split at hv
  · rename_i hperform
    cases hv
    exact (h.noted p).perform hperform
  · cases hv

/-- A pragma that fails has changed no setting. -/
theorem failPragma (h : v.On d id t) {e : SqlError} (hv : v.runPragma p = (w, .error e)) :
    w.On d id ⟨t.applied ++ [p], t.settings⟩ := by
  simp only [View.runPragma] at hv
  split at hv
  · cases hv
  · cases hv
    exact h.noted p

theorem configure (h : v.On d id t) {ps : List Pragma} (hv : v.configure ps = (w, .ok ())) :
    w.On d id (ps.foldl Tuning.after t) := by
  induction ps generalizing v t with
  | nil =>
    cases hv
    exact h
  | cons p ps ih =>
    unfold View.configure at hv
    split at hv
    · rename_i hrun
      exact ih (h.runPragma hrun) hv
    · rename_i hnot
      exact (hnot w hv).elim

end On

/-- A plan that ends early ends with the pragma that fails; those before it have succeeded. -/
theorem configure_error {ps : List Pragma} {e : SqlError} (hv : v.configure ps = (w, .error e)) :
    ∃ before p rest u, ps = before ++ p :: rest ∧ v.configure before = (u, .ok ()) ∧
      u.runPragma p = (w, .error e) := by
  induction ps generalizing v with
  | nil => cases hv
  | cons p ps ih =>
    unfold View.configure at hv
    split at hv
    · rename_i u hrun
      obtain ⟨before, q, rest, x, hps, hbefore, hq⟩ := ih hv
      refine ⟨p :: before, q, rest, x, by rw [hps]; rfl, ?_, hq⟩
      unfold View.configure
      rw [hrun]
      exact hbefore
    · exact ⟨[], p, ps, v, rfl, rfl, hv⟩

end View

namespace Disk

variable {d d' : Disk} {config : DatabaseConfig}

/-- The connections have numbers that were given out. -/
def Numbered (d : Disk) : Prop := ∀ k, d.nextConnection ≤ k → d.tuning? k = none

/-! ### Closing -/

theorem close_next (d : Disk) (k : Nat) : (d.close k).nextConnection = d.nextConnection := by
  unfold close
  split
  · rfl
  · dsimp only
    split <;> rfl

theorem tuning?_close (d : Disk) (k : Nat) :
    (d.close k).tuning? = fun n => if n = k then none else d.tuning? n := by
  have hconnections : (d.close k).connections = d.connections.filter (·.1 != k) := by
    unfold close
    split
    · rename_i hnone
      rw [connection?, List.lookup_eq_none_iff] at hnone
      refine (List.filter_eq_self.mpr fun x hx => ?_).symm
      rw [bne_comm]
      exact hnone x hx
    · dsimp only
      split <;> rfl
  funext n
  rw [tuning?, connection?, hconnections]
  split
  · rename_i hn
    rw [hn, lookup_removed]
    rfl
  · rename_i hn
    rw [lookup_filter_ne _ (Ne.symm hn)]
    rfl

/-! ### Opening -/

theorem tuning?_add (h : d.Numbered) (c : Connection) :
    (d.addConnection c).2.tuning? d.nextConnection = some c.tuning := by
  have hfresh := h d.nextConnection (Nat.le_refl _)
  rw [tuning?, Option.map_eq_none_iff, connection?] at hfresh
  rw [tuning?, connection?, addConnection, List.lookup_append, hfresh, Option.none_or,
    List.lookup_cons_self]
  rfl

theorem tuning?_add_ne {k : Nat} (hk : k ≠ d.nextConnection) (c : Connection) :
    (d.addConnection c).2.tuning? k = d.tuning? k := by
  rw [tuning?, connection?, addConnection, List.lookup_append, List.lookup_cons,
    beq_false_of_ne hk]
  exact congrArg (Option.map _) Option.or_none

/-- A disk with one more connection, the next one, on which nothing has run yet. -/
structure Joined (d : Disk) (n : Nat) (d' : Disk) : Prop where
  number : n = d.nextConnection
  next : d'.nextConnection = d.nextConnection + 1
  own : d.Numbered → d'.tuning? n = some ⟨[], {}⟩
  others : ∀ k, k ≠ n → d'.tuning? k = d.tuning? k

theorem connect_joined {n : Nat} (h : d.connect = .ok (n, d')) : d.Joined n d' := by
  have hadd {e : Disk} {f : Nat} (hconnections : e.connections = d.connections)
      (hnext : e.nextConnection = d.nextConnection)
      (h : e.addConnection { file := f } = (n, d')) : d.Joined n d' := by
    have hn : n = d.nextConnection := by rw [← hnext]; exact (congrArg Prod.fst h).symm
    have hd' : d' = (e.addConnection { file := f }).2 := (congrArg Prod.snd h).symm
    have hsame := tuning?_congr hconnections
    refine ⟨hn, ?_, ?_, ?_⟩
    · rw [hd']
      exact congrArg (· + 1) hnext
    · intro hnumbered
      have he : e.Numbered := by
        intro k hk
        rw [hsame]
        exact hnumbered k (hnext ▸ hk)
      rw [hd', hn, ← hnext]
      exact tuning?_add he _
    · intro k hk
      rw [hd', tuning?_add_ne (by rwa [hnext, ← hn]), hsame]
  unfold connect at h
  split at h
  · exact hadd (e := { d with main := .file d.files.length, files := d.files ++ [({} : File)] })
      rfl rfl (Except.ok.inj h)
  · rename_i id _ _
    have hstray : (d.indexStrayLog id).connections = d.connections ∧
        (d.indexStrayLog id).nextConnection = d.nextConnection := by
      unfold indexStrayLog
      split <;> exact ⟨rfl, rfl⟩
    exact hadd hstray.1 hstray.2 (Except.ok.inj h)
  · cases h

/-- The tuning with which an opening leaves the connection that it hands out. -/
def Opened.tuning? (config : DatabaseConfig) : Opened → Option Tuning
  | .connection _ => some config.tuning
  | _ => none

/-- What an attempt at a configured connection does to the connections: the one that it hands out is
new and has the tuning of the configuration; one that it does not hand out is closed again. -/
structure Opens (d : Disk) (config : DatabaseConfig) (o : Opened) (d' : Disk) : Prop where
  next : d.nextConnection ≤ d'.nextConnection
  numbered : d'.Numbered
  own : d'.tuning? d.nextConnection = o.tuning? config
  others : ∀ k, k ≠ d.nextConnection → d'.tuning? k = d.tuning? k
  number : ∀ c, o = .connection c → c = d.nextConnection

theorem Joined.tuned {n : Nat} {c : Connection} (h : d.Joined n d') (hnumbered : d.Numbered)
    (hc : d'.connection? n = some c) : c.tuning = ⟨[], {}⟩ := by
  have hown := h.own hnumbered
  rw [tuning?, hc] at hown
  exact Option.some.inj hown

/-- A new connection that is closed again leaves nothing but a number that is used up. -/
theorem Joined.closes {n : Nat} {o : Opened} {e : Disk} (h : d.Joined n d')
    (hnumbered : d.Numbered) (hnext : e.nextConnection = d'.nextConnection)
    (hothers : ∀ k, k ≠ n → e.tuning? k = d'.tuning? k) (ho : o.tuning? config = none)
    (hnone : ∀ c, o ≠ .connection c) : d.Opens config o (e.close n) := by
  have hn := h.number
  have hgone (k : Nat) (hk : k ≠ n) : (e.close n).tuning? k = d.tuning? k := by
    rw [tuning?_close]
    dsimp only
    rw [if_neg hk, hothers k hk, h.others k hk]
  have hown : (e.close n).tuning? n = none := by
    rw [tuning?_close]
    exact if_pos rfl
  refine ⟨?_, ?_, ?_, ?_, fun c hc => (hnone c hc).elim⟩
  · rw [close_next, hnext, h.next]
    exact Nat.le_succ _
  · intro k hk
    rw [close_next, hnext, h.next] at hk
    rw [hgone k (by omega)]
    exact hnumbered k (by omega)
  · rw [← hn, hown, ho]
  · intro k hk
    exact hgone k (hn ▸ hk)

theorem openConfigured_opens (hnumbered : d.Numbered) (config : DatabaseConfig) :
    d.Opens config (d.openConfigured config).1 (d.openConfigured config).2 := by
  unfold openConfigured
  split
  · exact ⟨Nat.le_refl _, hnumbered, hnumbered _ (Nat.le_refl _), fun _ _ => rfl,
      fun _ h => by cases h⟩
  · rename_i n e hconnect
    have hjoined := connect_joined hconnect
    split
    · exact hjoined.closes hnumbered rfl (fun _ _ => rfl) rfl (fun _ h => by cases h)
    · rename_i hpatient
      split
      · rename_i hnone
        have hown := hjoined.own hnumbered
        rw [tuning?, hnone] at hown
        cases hown
      · rename_i c hc
        have hstart := View.On.start hc
        rw [hjoined.tuned hnumbered hc] at hstart
        split
        · rename_i v hrun
          have hdone := hstart.configure hrun
          rw [plan_tuning (Nat.not_lt.mp hpatient)] at hdone
          have htunes := hdone.tunes
          refine ⟨?_, ?_, ?_, ?_, ?_⟩
          · rw [htunes.next, hjoined.next]
            exact Nat.le_succ _
          · intro k hk
            rw [htunes.next, hjoined.next] at hk
            have hkn : k ≠ n := by rw [hjoined.number]; omega
            rw [htunes.others k hkn, hjoined.others k hkn]
            exact hnumbered k (by omega)
          · rw [← hjoined.number]
            exact htunes.own
          · intro k hk
            rw [← hjoined.number] at hk
            rw [htunes.others k hk, hjoined.others k hk]
          · intro k hk
            cases hk
            exact hjoined.number
        · rename_i v x hrun
          obtain ⟨before, p, rest, u, -, hbefore, hp⟩ := View.configure_error hrun
          have hlast := (hstart.configure hbefore).failPragma hp
          exact hjoined.closes hnumbered hlast.tunes.next hlast.tunes.others rfl
            (fun _ h => by cases h)

/-- An opening from `d` to `d'` has failed with `e` on the pragma `p`.  The pragmas `before` it have
succeeded; the connection has seen them and `p`, and has been closed. -/
def FailsOn (d : Disk) (before : List Pragma) (p : Pragma) (e : SqlError) (d' : Disk) : Prop :=
  ∃ (n : Nat) (m : Disk) (c : Connection) (v w : View), d.connect = .ok (n, m) ∧
    m.connection? n = some c ∧ c.applied = [] ∧
    (View.mk m n c).configure before = (v, .ok ()) ∧ v.connection.applied = before ∧
    v.runPragma p = (w, .error e) ∧ w.connection.applied = before ++ [p] ∧ d' = w.disk.close n

/-- What a connection has seen when its opening fails on a pragma: the plan up to that pragma.  Its
number is used up. -/
theorem openConfigured_failed (hnumbered : d.Numbered) {e : SqlError}
    (h : d.openConfigured config = (.failed e, d')) :
    d.nextConnection < d'.nextConnection ∧
      ∃ before p rest, config.plan = before ++ p :: rest ∧ d.FailsOn before p e d' := by
  unfold openConfigured at h
  split at h
  · cases h
  · rename_i n m hconnect
    have hjoined := connect_joined hconnect
    split at h
    · cases h
    · split at h
      · cases h
      · rename_i c hc
        have hnew := hjoined.tuned hnumbered hc
        have hstart := View.On.start hc
        rw [hnew] at hstart
        split at h
        · cases h
        · rename_i w x hrun
          cases h
          obtain ⟨before, p, rest, v, hplan, hbefore, hp⟩ := View.configure_error hrun
          have hv := hstart.configure hbefore
          have hw := hv.failPragma hp
          have happlied : v.connection.applied = before := by
            have ht := congrArg Tuning.applied hv.tuning
            rwa [Tuning.foldl_applied] at ht
          have hlast : w.connection.applied = before ++ [p] := by
            have ht := congrArg Tuning.applied hw.tuning
            rwa [Tuning.foldl_applied] at ht
          refine ⟨?_, before, p, rest, hplan, n, m, c, v, w, hconnect, hc,
            congrArg Tuning.applied hnew, hbefore, happlied, hp, hlast, rfl⟩
          rw [close_next, hw.tunes.next, hjoined.next]
          exact Nat.lt_succ_self _

end Disk

end Engine

end SingleWriter
