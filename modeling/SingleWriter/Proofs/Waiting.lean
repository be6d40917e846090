import SingleWriter.Proofs.Custody
import SingleWriter.Proofs.Upkeep
import SingleWriter.Session.Perform

/-! What becomes of connections while tasks wait: they are opened, lent, given back and closed.
Each function of a world comes with the deal that it makes.  `World.takeConnection_deal` is the one
by which writes, checkpoints and the closing of a handle get their connections. -/

namespace SingleWriter

namespace Database

variable {c : Call} {db : Database} {a : Answer}

theorem Call.usePool_config (c : Call) (db : Database) : (c.usePool db).2.config = db.config := by
  unfold usePool
  split
  · split <;> rfl
  · split <;> rfl

theorem Call.enter_config (c : Call) (db : Database) : (c.enter db).2.1.config = db.config := by
  simp only [enter]
  split
  · split <;> rfl
  · split
    · rfl
    · split
      · rfl
      · split <;> rfl
  · split
    · rfl
    · split
      · rfl
      · split <;> rfl
  · split
    · rfl
    · exact c.usePool_config db

theorem Call.resume_config (c : Call) (db : Database) (a : Answer) :
    (c.resume db a).2.1.config = db.config := by
  simp only [resume]
  split <;> first | rfl | exact c.enter_config db | exact c.usePool_config _

/-- The connections of a pool that an answer brings along. -/
def Answer.rests : Answer → List Nat
  | .built p => p.idle
  | _ => []

/-- The connection that an effect gives back. -/
def Effect.returns? : Effect → Option Nat
  | .release c => some c
  | .closePool => none

theorem Call.Resumes.returns {next : Call × Database × List Effect} (h : c.Resumes db a next) :
    next.2.2.filterMap Effect.returns? = c.carries := by
  obtain ⟨rest, hrest, heffects⟩ := h.effects
  have hnone : rest.filterMap Effect.returns? = [] := by
    rcases hrest with rfl | rfl <;> rfl
  rw [heffects, List.filterMap_append, hnone, List.append_nil, List.filterMap_map]
  exact List.filterMap_some

end Database

namespace Engine.Disk

theorem unlink_connections {d e : Disk} {p : Part} (h : d.unlink p = .ok e) :
    e.connections = d.connections ∧ e.nextConnection = d.nextConnection := by
  unfold unlink at h
  split at h
  · split at h
    · cases h
    · cases h
    · cases h
      cases p <;> exact ⟨rfl, rfl⟩
  · cases h
  · cases h

/-- Deleting files closes no connection. -/
theorem unlinkAll_connections (d : Disk) (ps : List Part) :
    (d.unlinkAll ps).1.connections = d.connections ∧
      (d.unlinkAll ps).1.nextConnection = d.nextConnection := by
  induction ps generalizing d with
  | nil => exact ⟨rfl, rfl⟩
  | cons p ps ih =>
    unfold unlinkAll
    split
    · rename_i e hunlink
      obtain ⟨hconnections, hnext⟩ := unlink_connections hunlink
      exact ⟨(ih e).1.trans hconnections, (ih e).2.trans hnext⟩
    · split
      · exact ih d
      · exact ⟨rfl, rfl⟩

end Engine.Disk

namespace Session

open Engine

namespace World

variable {w w' : World} {i c id : Nat} {config : DatabaseConfig}

/-! ### Connections of a pool -/

theorem openConnection_deal {o : Disk.Opened} (hi : w.configs[i]? = some config)
    (h : w.openConnection config = (o, w')) : Deal 0 (holdings i o.gives) w w' := by
  unfold openConnection at h
  cases hopen : w.disk.openConfigured config with
  | mk outcome d =>
    have hdeal := Deal.opens hi hopen
    rw [hopen] at h
    cases outcome with
    | connection n =>
      cases h
      have hborn : Deal 0 0 { w with disk := d }
          { w with disk := d, opened := (n, w.now) :: w.opened } :=
        Deal.of_same rfl rfl rfl rfl rfl fun _ => rfl
      exact hdeal.trans (hborn.aside _)
    | refused e =>
      cases h
      exact hdeal
    | failed e =>
      cases h
      exact hdeal

theorem closeConnection_deal (w : World) (i c : Nat) :
    Deal (holdings i [c]) 0 w (w.closeConnection c) :=
  (Deal.closes w i c).trans (Deal.of_same rfl rfl rfl rfl rfl fun _ => rfl)

theorem foldl_close_deal (i : Nat) (cs : List Nat) (w : World) :
    Deal (holdings i cs) 0 w (cs.foldl closeConnection w) := by
  induction cs generalizing w with
  | nil => exact Deal.refl 0 w
  | cons c cs ih =>
    have hfirst := (w.closeConnection_deal i c).lose (holdings i cs)
    rw [← holdings_append] at hfirst
    exact hfirst.trans (ih _)

/-- A connection in hand joins those at rest. -/
theorem rests_deal (w : World) (i c : Nat) (f : Pool → Pool)
    (hf : ∀ p, (f p).idle = p.idle ++ [c]) :
    Deal (holdings i [c]) 0 w (w.modifyPool i f) := by
  refine Deal.pool [c] [] (fun _ => rfl) ?_
  intro p _
  rw [hf p, List.nil_append]
  exact List.perm_append_comm.subperm

theorem refill_deal (i n : Nat) (w : World) : Deal 0 0 w (w.refill i n) := by
  induction n generalizing w with
  | zero => exact Deal.refl 0 w
  | succ n ih =>
    unfold refill
    split
    · exact Deal.refl 0 w
    · rename_i t ht
      split
      · exact Deal.refl 0 w
      · split
        · split
          · rename_i c w₁ hopen
            have hfirst := openConnection_deal (configs_of_target ht) hopen
            exact (hfirst.trans (w₁.rests_deal i c (·.addIdle c) fun _ => rfl)).trans (ih _)
          · rename_i o w₁ _ hopen
            exact (openConnection_deal (configs_of_target ht) hopen).weaken (le_refl _)
              (zero_le)
        · exact Deal.refl 0 w

theorem discard_deal (w : World) (i c : Nat) : Deal (holdings i [c]) 0 w (w.discard i c) := by
  have hfirst : Deal (holdings i [c]) 0 w ((w.closeConnection c).modifyPool i (·.forget c)) :=
    (w.closeConnection_deal i c).trans (Deal.pool_same _ i (·.forget c) fun _ => rfl)
  unfold discard
  dsimp only
  split
  · exact hfirst.trans (refill_deal i _ _)
  · exact hfirst

theorem release_deal (w : World) (i c : Nat) : Deal (holdings i [c]) 0 w (w.release i c) := by
  unfold release
  split
  · exact Deal.of_le (zero_le) w
  · split
    · exact w.discard_deal i c
    · exact w.rests_deal i c (·.giveBack c) fun _ => rfl

theorem closePool_deal (w : World) (i : Nat) : Deal 0 0 w (w.closePool i) := by
  unfold closePool
  split
  · exact Deal.refl 0 w
  · rename_i p hp
    have htaken : Deal 0 (holdings i p.idle) w (w.modifyPool i fun _ => p.close.2) := by
      refine Deal.pool [] p.idle (fun hnone => ?_) ?_
      · rw [hp] at hnone
        cases hnone
      · intro q hq
        rw [hp] at hq
        cases hq
        show (p.idle ++ []).Subperm p.idle
        rw [List.append_nil]
    exact htaken.trans (foldl_close_deal i p.idle _)

/-! ### Deadlines -/

/-- Only the deadline of a task changes. -/
theorem putTask_deal {t : Task} (ht : w.task? id = some t) (deadline : Option Nat) :
    Deal 0 0 w (w.putTask { t with deadline }) := by
  refine Deal.of_same rfl rfl rfl rfl rfl ?_
  intro hnodup
  have hmem : t ∈ w.tasks := List.mem_of_find?_eq_some ht
  rw [roster, roster, putTask, List.map_map]
  refine List.map_congr_left ?_
  intro old hold
  show (fun t : Task => (t.id, t.target, t.job))
    (if old.id = t.id then { t with deadline } else old) = _
  split
  · rename_i hid
    rw [List.inj_on_of_nodup_map hnodup hold hmem hid]
  · rfl

theorem deadlineOf_deal (w : World) (id : Nat) (wait : Duration) :
    Deal 0 0 w (w.deadlineOf id wait).2 := by
  unfold deadlineOf
  split
  · rename_i t ht
    split
    · exact Deal.refl 0 w
    · exact putTask_deal ht _
  · exact Deal.refl 0 w

theorem setDeadline_deal (w : World) (id time : Nat) : Deal 0 0 w (w.setDeadline id time) := by
  unfold setDeadline
  split
  · rename_i t ht
    exact putTask_deal ht _
  · exact Deal.refl 0 w

theorem clearDeadline_deal (w : World) (id : Nat) : Deal 0 0 w (w.clearDeadline id) := by
  unfold clearDeadline
  split
  · rename_i t ht
    exact putTask_deal ht _
  · exact Deal.refl 0 w

/-! ### Waits for a connection -/

/-- The connections that a look hands over. -/
def taken : Option (Except SqlError Nat) → List Nat
  | some (.ok c) => [c]
  | _ => []

/-- A wait that comes to its end leaves the pool's connections at rest alone. -/
theorem ends_deal (w : World) (i id : Nat) (f : Pool → Pool) (hf : ∀ p, (f p).idle = p.idle) :
    Deal 0 0 w ((w.modifyPool i f).clearDeadline id) :=
  (Deal.pool_same w i f hf).trans (clearDeadline_deal _ id)

theorem fillPlace_deal {deadline : Nat} {r : Option (Except SqlError Nat)}
    (hi : w.configs[i]? = some config) (h : w.fillPlace id i deadline config = (r, w')) :
    Deal 0 (holdings i (taken r)) w w' := by
  unfold fillPlace at h
  split at h
  · rename_i c w₁ hopen
    cases h
    exact (openConnection_deal hi hopen).trans
      ((w₁.ends_deal i id (·.opened id c) fun _ => rfl).aside _)
  · rename_i e w₁ hopen
    cases h
    exact (openConnection_deal hi hopen).trans (w₁.ends_deal i id (·.withdraw id) fun _ => rfl)
  · rename_i e w₁ hopen
    have hfirst := openConnection_deal hi hopen
    split at h
    · cases h
      exact hfirst.trans (w₁.ends_deal i id (·.withdraw id) fun _ => rfl)
    · cases h
      exact hfirst

/-- A connection at rest passes into someone's hands. -/
theorem lends_deal {p q : Pool} (hp : w.pool? i = some p) (hq : p.idle = c :: q.idle) :
    Deal 0 (holdings i [c]) w (w.modifyPool i fun _ => q) := by
  refine Deal.pool [] [c] (fun hnone => ?_) ?_
  · rw [hp] at hnone
    cases hnone
  · intro p' hp'
    rw [hp] at hp'
    cases hp'
    rw [hq]
    exact List.Subperm.refl _

/-- The pool is replaced by one with the same connections at rest. -/
theorem withPool_deal {p q : Pool} (hp : w.pool? i = some p) (hq : q.idle = p.idle) :
    Deal 0 0 w (w.modifyPool i fun _ => q) := by
  refine Deal.pool [] [] (fun _ => rfl) ?_
  intro p' hp'
  rw [hp] at hp'
  cases hp'
  rw [hq]

theorem deadlineOf_targets (w : World) (id : Nat) (wait : Duration) :
    (w.deadlineOf id wait).2.targets = w.targets := by
  unfold deadlineOf
  split
  · split <;> rfl
  · rfl

/-- What a turn in the line of a pool comes to. -/
theorem serve_deal {p : Pool} {deadline : Nat} {r : Option (Except SqlError Nat)}
    (hi : w.configs[i]? = some config) (hpool : w.pool? i = some p) {line : Pool}
    (hline : line.idle = p.idle)
    (h : (match line.serve? id with
      | some (.idle c, q) =>
        let w := w.modifyPool i fun _ => q
        if w.outlived config c then
          let w := (w.closeConnection c).modifyPool i (·.replace id c)
          w.fillPlace id i deadline config
        else (some (.ok c), w.clearDeadline id)
      | some (.opening, q) => (w.modifyPool i fun _ => q).fillPlace id i deadline config
      | none =>
        if deadline ≤ w.now then
          (some (.error .poolTimedOut), (w.modifyPool i fun _ => line.withdraw id).clearDeadline id)
        else (none, w.modifyPool i fun _ => line)) = (r, w')) :
    Deal 0 (holdings i (taken r)) w w' := by
  split at h
  · rename_i c q hserve
    have hlent := lends_deal hpool (c := c) (q := q) (hline ▸ (Pool.lends hserve).1)
    dsimp only at h
    split at h
    · have hclosed := (hlent.trans (closeConnection_deal _ i c)).trans
        (Deal.pool_same _ i (·.replace id c) fun _ => rfl)
      exact hclosed.trans (fillPlace_deal (hclosed.configs ▸ hi) h)
    · cases h
      exact hlent.trans ((clearDeadline_deal _ id).aside _)
  · rename_i q hserve
    have hplace := withPool_deal hpool (q := q) ((Pool.places hserve).1.trans hline)
    exact hplace.trans (fillPlace_deal (hplace.configs ▸ hi) h)
  · split at h
    · cases h
      exact (withPool_deal hpool (q := line.withdraw id) hline).trans (clearDeadline_deal _ id)
    · cases h
      exact withPool_deal hpool hline

theorem takeConnection_deal {r : Option (Except SqlError Nat)}
    (h : w.takeConnection id i = (r, w')) : Deal 0 (holdings i (taken r)) w w' := by
  unfold takeConnection at h
  split at h
  · cases h
    exact Deal.refl 0 w
  · rename_i t ht
    dsimp only at h
    split at h
    · cases h
      exact Deal.refl 0 w
    · rename_i p hp
      split at h
      · cases h
        exact w.ends_deal i id (·.withdraw id) fun _ => rfl
      · have hfirst := w.deadlineOf_deal id t.database.config.acquireTimeout
        have htargets := w.deadlineOf_targets id t.database.config.acquireTimeout
        cases hwait : w.deadlineOf id t.database.config.acquireTimeout with
        | mk deadline w₁ =>
          rw [hwait] at h hfirst htargets
          have hi : w₁.configs[i]? = some t.database.config :=
            hfirst.configs ▸ configs_of_target ht
          have hpool : w₁.pool? i = some p := by
            rw [pool?, target?, htargets]
            show (w.target? i).bind _ = _
            rw [ht]
            exact hp
          dsimp only at h
          split at h
          · cases h
            exact hfirst.trans (w₁.ends_deal i id (·.withdraw id) fun _ => rfl)
          · split at h
            · exact hfirst.trans (fillPlace_deal hi h)
            · have hline : (if p.line.contains id then p else p.enqueue id).idle = p.idle := by
                split <;> rfl
              exact hfirst.trans (serve_deal hi hpool hline h)

/-! ### A pool that is being built -/

/-- The connections that an attempt at several of them leaves open. -/
def allOf : Except Disk.Opened (List Nat) → List Nat
  | .ok cs => cs
  | .error _ => []

/-- The connections of a pool that has just been built. -/
def builtOf : Option (Except SqlError Pool) → List Nat
  | some (.ok p) => p.idle
  | _ => []

theorem openAll_deal {n : Nat} {done : List Nat} {r : Except Disk.Opened (List Nat)}
    (hi : w.configs[i]? = some config) (h : w.openAll config n done = (r, w')) :
    Deal (holdings i done) (holdings i (allOf r)) w w' := by
  induction n generalizing w done with
  | zero =>
    cases h
    exact Deal.refl _ _
  | succ n ih =>
    unfold openAll at h
    split at h
    · rename_i c w₁ hopen
      have hfirst := openConnection_deal hi hopen
      have hmore := hfirst.gain (holdings i done)
      have hrest := ih (hfirst.configs ▸ hi) h
      rw [holdings_append, add_comm] at hrest
      exact hmore.trans hrest
    · rename_i o w₁ hno hopen
      cases h
      have hfirst := openConnection_deal hi hopen
      have hgives : o.gives = [] := by
        cases o with
        | connection c => exact (hno c rfl).elim
        | refused e => rfl
        | failed e => rfl
      rw [hgives] at hfirst
      exact (hfirst.aside _).trans (foldl_close_deal i done w₁)

theorem buildPool_deal {r : Option (Except SqlError Pool)} (h : w.buildPool id i = (r, w')) :
    Deal 0 (holdings i (builtOf r)) w w' := by
  unfold buildPool at h
  split at h
  · cases h
    exact Deal.refl 0 w
  · rename_i t ht
    dsimp only at h
    have hfirst := w.deadlineOf_deal id t.database.config.acquireTimeout
    cases hwait : w.deadlineOf id t.database.config.acquireTimeout with
    | mk deadline w₁ =>
      rw [hwait] at h hfirst
      have hi : w₁.configs[i]? = some t.database.config := hfirst.configs ▸ configs_of_target ht
      dsimp only at h
      split at h
      · cases h
        exact hfirst.trans (clearDeadline_deal w₁ id)
      · split at h
        · rename_i idle w₂ hopen
          cases h
          have hopened := hfirst.trans (openAll_deal hi hopen)
          have hturned : holdings i (idle.drop 1 ++ idle.take 1) ≤ holdings i idle := by
            refine holdings_le ?_
            have hperm : (idle.drop 1 ++ idle.take 1).Perm (idle.take 1 ++ idle.drop 1) :=
              List.perm_append_comm
            rw [List.take_append_drop] at hperm
            exact hperm.subperm
          exact (hopened.trans ((clearDeadline_deal w₂ id).aside _)).weaken (le_refl _) hturned
        · rename_i e w₂ hopen
          cases h
          exact (hfirst.trans (openAll_deal hi hopen)).trans (clearDeadline_deal w₂ id)
        · rename_i o w₂ _ hopen
          have hopened := hfirst.trans (openAll_deal hi hopen)
          split at h
          · cases h
            exact hopened.trans (clearDeadline_deal w₂ id)
          · cases h
            exact hopened

/-! ### Statements -/

theorem ran_deal (w : World) (on : Nat) (patient : Bool) (s : Statement) :
    Deal 0 0 w { w with disk := (w.disk.execute on patient s).2 } :=
  Deal.of_tuning (w.disk.execute_tuning on patient s).1 (w.disk.execute_tuning on patient s).2

theorem execute_deal {on : Nat} {s : Statement} {r : Option (Except SqlError Reply)}
    (h : w.execute id on s = (r, w')) : Deal 0 0 w w' := by
  cases hc : w.disk.connection? on with
  | none | some c =>
    simp only [execute, hc] at h
    split at h
    · cases h
      exact (w.deadlineOf_deal id _).trans (ran_deal _ on _ s)
    · cases h
      exact ((w.deadlineOf_deal id _).trans (ran_deal _ on _ s)).trans (clearDeadline_deal _ id)
    · cases h
      exact ((w.deadlineOf_deal id _).trans (ran_deal _ on _ s)).trans (clearDeadline_deal _ id)

/-! ### Calls on a handle -/

theorem carryOut_deal (i : Nat) (es : List Database.Effect) (w : World) :
    Deal (holdings i (es.filterMap Database.Effect.returns?)) 0 w (w.carryOut i es) := by
  induction es generalizing w with
  | nil => exact Deal.refl 0 w
  | cons e es ih =>
    cases e with
    | release c =>
      have hfirst := (w.release_deal i c).lose (holdings i (es.filterMap Database.Effect.returns?))
      rw [← holdings_append] at hfirst
      exact hfirst.trans (ih _)
    | closePool => exact ((w.closePool_deal i).aside _).trans (ih _)

/-- The handle goes on with what it was told. -/
theorem answerCall_deal {call : Database.Call} {a : Database.Answer} (w : World) (i : Nat)
    (ha : call.phase.Awaits a) :
    Deal (holdings i (call.carries ++ a.hands ++ a.rests))
      (holdings i (w.answerCall i call a).1.carries) w (w.answerCall i call a).2 := by
  unfold answerCall
  split
  · refine Deal.of_le (holdings_le ?_) w
    rw [List.append_assoc]
    exact (List.sublist_append_left _ _).subperm
  · rename_i t ht
    have hresumes := Database.Call.resume_resumes t.database ha
    have hconfig := call.resume_config t.database a
    dsimp only
    generalize call.resume t.database a = next at hresumes hconfig
    obtain ⟨c', db', es⟩ := next
    have htold : Deal (holdings i (call.carries ++ a.hands ++ a.rests))
        (holdings i (call.carries ++ a.hands)) w (w.modifyDatabase i fun _ => db') := by
      refine Deal.modify _ _ ?_ ?_ ?_
      · intro t' ht'
        rw [ht] at ht'
        cases ht'
        exact hconfig
      · intro hnone
        rw [ht] at hnone
        cases hnone
      · intro t' ht'
        rw [ht] at ht'
        cases ht'
        rw [List.append_assoc _ a.rests]
        refine (List.subperm_append_left _).mpr ?_
        have hpool : db'.pool = a.poolAfter t.database.pool := hresumes.pool
        show List.Subperm ((db'.pool.map (·.idle)).getD []) (a.rests ++ t.idle)
        rw [hpool]
        cases a with
        | built p => exact (List.sublist_append_left _ _).subperm
        | _ => exact List.Subperm.refl _
    have hcarries : c'.carries = a.hands := hresumes.carries
    have hdone := (carryOut_deal i es (w.modifyDatabase i fun _ => db')).lose
      (holdings i c'.carries)
    have hreturns : es.filterMap Database.Effect.returns? = call.carries := hresumes.returns
    rw [← holdings_append, hreturns, hcarries] at hdone
    rw [hcarries]
    exact htold.trans hdone

/-- What a call holds after a look at what it waits for. -/
theorem pollCall_deal {call : Database.Call} {r : Option Database.Call}
    (h : w.pollCall id i call = (r, w')) :
    Deal (holdings i call.carries) (holdings i (r.getD call).carries) w w' := by
  have going {u : World} {a : Database.Answer} (ha : call.phase.Awaits a)
      (hu : Deal 0 (holdings i (a.hands ++ a.rests)) w u)
      (h : (some (u.answerCall i call a).1, (u.answerCall i call a).2) = (r, w')) :
      Deal (holdings i call.carries) (holdings i (r.getD call).carries) w w' := by
    cases h
    have hgain := hu.gain (holdings i call.carries)
    rw [add_comm, ← holdings_append, ← List.append_assoc] at hgain
    exact hgain.trans (u.answerCall_deal i ha)
  have staying {u : World} (hu : Deal 0 0 w u) (h : (none, u) = (r, w')) :
      Deal (holdings i call.carries) (holdings i (r.getD call).carries) w w' := by
    cases h
    exact hu.aside _
  unfold pollCall at h
  cases hphase : call.phase with
  | entering =>
    rw [hphase] at h going
    exact going .entered (Deal.refl 0 w) h
  | waiting =>
    rw [hphase] at h going
    dsimp only at h
    split at h
    · split at h
      · exact staying (Deal.refl 0 w) h
      · exact going .waited (Deal.refl 0 w) h
    · exact staying (Deal.refl 0 w) h
  | building =>
    rw [hphase] at h going
    dsimp only at h
    split at h
    · rename_i u hbuild
      exact staying (buildPool_deal hbuild) h
    · rename_i p u hbuild
      exact going (.built p) (buildPool_deal hbuild) h
    · rename_i e u hbuild
      exact going (.unbuilt e) (buildPool_deal hbuild) h
  | acquiring =>
    rw [hphase] at h going
    dsimp only at h
    split at h
    · rename_i u htake
      exact staying (takeConnection_deal htake) h
    · rename_i on u htake
      exact going (.acquired on) (takeConnection_deal htake) h
    · rename_i e u htake
      exact going (.refused e) (takeConnection_deal htake) h
  | checkpointing on =>
    rw [hphase] at h going
    dsimp only at h
    split at h
    · rename_i u hrun
      exact staying (execute_deal hrun) h
    · rename_i report u hrun
      exact going (.checkpointed report) (execute_deal hrun) h
    · rename_i u _ hrun
      exact going (.uncheckpointed .workerCrashed) (execute_deal hrun) h
    · rename_i e u hrun
      exact going (.uncheckpointed e) (execute_deal hrun) h
  | draining =>
    rw [hphase] at h going
    dsimp only at h
    split at h
    · exact going .drained (Deal.refl 0 w) h
    · exact staying (Deal.refl 0 w) h
  | unlinking =>
    rw [hphase] at h going
    have hunlinked : Deal 0 0 w { w with disk := (w.disk.unlinkAll [.main, .wal, .shm]).1 } := by
      obtain ⟨hconnections, hnext⟩ := w.disk.unlinkAll_connections [.main, .wal, .shm]
      exact Deal.of_tuning hnext (Disk.tuning?_congr hconnections)
    exact going (.unlinked _) hunlinked h
  | finished result =>
    rw [hphase] at h
    exact staying (Deal.refl 0 w) h

end World

end Session

end SingleWriter
