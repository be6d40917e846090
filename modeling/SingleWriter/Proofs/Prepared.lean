import SingleWriter.Proofs.Moves

/-! Prepared connections: those on which the whole plan of their target has run, and nothing else.
Whoever gets a connection gets a prepared one, and it stays prepared for as long as it is open. -/

namespace SingleWriter.Session

open Engine

namespace World

variable {w w' : World} {i c : Nat}

/-- Connection `c` is open, has seen the plan of target `i` and has the settings that it asks
for. -/
def Prepared (w : World) (i c : Nat) : Prop :=
  ∃ config conn, w.configs[i]? = some config ∧ w.disk.connection? c = some conn ∧
    conn.applied = config.plan ∧ conn.settings = config.settings

theorem prepared_iff : w.Prepared i c ↔
    ∃ config, w.configs[i]? = some config ∧ w.disk.tuning? c = some config.tuning := by
  constructor
  · rintro ⟨config, conn, hi, hc, happlied, hsettings⟩
    refine ⟨config, hi, ?_⟩
    rw [Disk.tuning?, hc, DatabaseConfig.tuning, ← happlied, ← hsettings]
    rfl
  · rintro ⟨config, hi, htuning⟩
    obtain ⟨conn, hc, hconn⟩ := Option.map_eq_some_iff.mp htuning
    exact ⟨config, conn, hi, hc, congrArg Tuning.applied hconn, congrArg Tuning.settings hconn⟩

theorem Fits.prepared (h : w.Fits i c) : w.Prepared i c ∨ w.disk.connection? c = none := by
  obtain ⟨config, hi, -, htuning | hgone⟩ := h
  · exact .inl (prepared_iff.mpr ⟨config, hi, htuning⟩)
  · exact .inr (Option.map_eq_none_iff.mp hgone)

namespace Upright

theorem prepared (h : w.Upright) (hc : w.Has i c) : w.Prepared i c :=
  prepared_iff.mpr (h.sound.tuned _ hc.allotted)

/-- A connection that someone gets is a prepared one. -/
theorem taken {id : Nat} (h : w.Upright) (htake : w.takeConnection id i = (some (.ok c), w')) :
    w.Later w' ∧ w'.Prepared i c := by
  obtain ⟨hlater, hsound⟩ := h.trade (takeConnection_deal htake) (zero_add _).symm
  refine ⟨hlater, prepared_iff.mpr (hsound.tuned (i, c) ?_)⟩
  rw [w'.lent_add]
  exact Multiset.mem_add.mpr (.inl (mem_holdings.mpr ⟨rfl, List.mem_singleton_self c⟩))

end Upright

theorem Prepared.isOpen (h : w.Prepared i c) : w.disk.tuning? c ≠ none := by
  obtain ⟨config, -, htuning⟩ := prepared_iff.mp h
  rw [htuning]
  exact Option.some_ne_none _

/-- In every run, each connection that is handed out has seen the plan of its target, in the order
of the plan and to its end, and nothing but that; so has each connection in use.  A connection on
which a pragma has failed has seen the plan up to that pragma and is never handed out. -/
theorem connections_prepared (h : w.Reached) :
    (∀ i c, w.Has i c → w.Prepared i c) ∧
    (∀ task ∈ w.tasks, ∀ c ∈ task.job.borrows,
      w.Prepared task.target c ∨ w.disk.connection? c = none) ∧
    (∀ id i c w', w.takeConnection id i = (some (.ok c), w') → w'.Prepared i c) ∧
    (∀ i c w', w.Has i c → w.Moves w' → w'.Prepared i c ∨ w'.disk.connection? c = none) ∧
    (∀ config : DatabaseConfig,
      config.plan.map Pragma.statement =
        ["PRAGMA busy_timeout = " ++ toString config.busyTimeout.millis,
          "PRAGMA synchronous = " ++ config.synchronous.name,
          "PRAGMA temp_store = " ++ config.tempStore.name] ++
        (if config.enableWal then ["PRAGMA journal_mode = WAL"] else []) ++
        ["PRAGMA foreign_keys = " ++ if config.foreignKeys then "ON" else "OFF"] ∧
      (config.plan.map (·.name)).Nodup ∧
      ((∃ p ∈ config.plan, p.name = "journal_mode") ↔ config.enableWal = true)) ∧
    ∀ (config : DatabaseConfig) (d d' : Disk) (e : SqlError), d.Numbered →
      d.openConfigured config = (.failed e, d') →
      (∃ before p rest, config.plan = before ++ p :: rest ∧ d.FailsOn before p e d') ∧
        (d'.Since w.disk → (∀ i, ¬ w.Has i d.nextConnection) ∧
          ∀ id i w', w.takeConnection id i ≠ (some (.ok d.nextConnection), w')) := by
  have hupright := h.upright
  refine ⟨fun i c => hupright.prepared, ?_, ?_, ?_, ?_, ?_⟩
  · intro task htask c hc
    have hfits := hupright.borrowed _
      (List.mem_map_of_mem (f := fun t : Task => (t.id, t.target, t.job)) htask) c hc
    exact hfits.prepared
  · intro id i c w' htake
    exact (hupright.taken htake).2
  · intro i c w' hc hmoves
    have hfits := hupright.sound.fits hc.allotted
    exact (hfits.later (hmoves.upright hupright).1).prepared
  · intro config
    exact ⟨config.plan_statements, config.plan_nodup, DatabaseConfig.journal_mode_mem_plan⟩
  · intro config d d' e hnumbered hfails
    obtain ⟨hused, hseen⟩ := Disk.openConfigured_failed hnumbered hfails
    refine ⟨hseen, fun hsince => ?_⟩
    have hopens := Disk.openConfigured_opens hnumbered config
    rw [hfails] at hopens
    -- The number was given out and will not be given out again.
    have hgone {v : World} (hlater : d'.Since v.disk) : v.disk.tuning? d.nextConnection = none :=
      hlater.gone hused hopens.own
    constructor
    · intro i hc
      exact (hupright.prepared hc).isOpen (hgone hsince)
    · intro id i w' htake
      obtain ⟨hlater, hprepared⟩ := hupright.taken htake
      exact hprepared.isOpen (hgone (hsince.trans hlater.disk))

/-- A world in which a task has asked for a connection and has got one. -/
def acquired : World :=
  let w := (addTarget { disk := {} } (databaseTarget "a" {} {} true)).2
  let w := (w.addTask 0 (.database { request := .acquire }) none).2
  (((w.pollTask 0).2.pollTask 0).2.pollTask 0).2

theorem acquired_reached : acquired.Reached := by
  have hasks : Moves { disk := {} } ((addTarget { disk := {} }
      (databaseTarget "a" {} {} true)).2.addTask 0 (.database { request := .acquire }) none).2 :=
    .tail (.single (.target rfl)) (.task none rfl (by rintro c ⟨⟩))
  exact ⟨_, ⟨rfl, rfl, rfl, rfl, rfl⟩, ((hasks.tail (.look 0)).tail (.look 0)).tail (.look 0)⟩

/-- A world in which someone from outside reads a file that has no log. -/
def reading : World :=
  (block { disk := { main := .file 0, files := [{ formatted := true }] } } "reader" .read).2

theorem reading_reached : reading.Reached :=
  ⟨_, ⟨rfl, rfl, rfl, rfl, rfl⟩, .single (.block "reader" .read)⟩

/-- The connection that a task has got is prepared.  Beside the reader an opening comes as far as
the fourth pragma, which asks for a log. -/
theorem acquired_connection_prepared :
    acquired.Reached ∧ acquired.Has 0 0 ∧ acquired.Prepared 0 0 ∧ reading.Reached ∧
      reading.disk.Numbered ∧ ∃ d' before p rest,
        reading.disk.openConfigured {} = (.failed .locked, d') ∧
          ({} : DatabaseConfig).plan = before ++ p :: rest ∧
          reading.disk.FailsOn before p .locked d' := by
  have htasks : acquired.tasks = [{ id := 0, target := 0, job := .finished (.number 0) }] := rfl
  have hhas : acquired.Has 0 0 := by
    have htask : ({ id := 0, target := 0, job := .finished (.number 0) } : Task) ∈ acquired.tasks :=
      htasks ▸ List.mem_singleton_self _
    exact .held htask (List.mem_singleton_self 0)
  have hnumbered := reading_reached.upright.sound.numbered
  have hfails : reading.disk.openConfigured {} =
      (.failed .locked, (reading.disk.openConfigured {}).2) := Prod.ext rfl rfl
  obtain ⟨hprepared, -⟩ := connections_prepared acquired_reached
  obtain ⟨-, -, -, -, -, hprefix⟩ := connections_prepared reading_reached
  obtain ⟨⟨before, p, rest, hplan, hseen⟩, -⟩ := hprefix {} _ _ _ hnumbered hfails
  exact ⟨acquired_reached, hhas, hprepared 0 0 hhas, reading_reached, hnumbered, _, before, p, rest,
    hfails, hplan, hseen⟩

end World

end SingleWriter.Session
