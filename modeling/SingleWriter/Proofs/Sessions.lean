import SingleWriter.Proofs.Moves
import SingleWriter.Session.Run

/-! Sessions are runs.  Whatever a session is asked, its world gets there by moves, so all that
holds of the worlds of runs holds of those of sessions: `Session.reached_of_run`. -/

namespace SingleWriter.Session

open Engine

namespace World

variable {w w' w₁ : World} {i id on : Nat} {job : Job}

/-! ### Turns -/

/-- What happens while a session waits for a task. -/
inductive Turn (w : World) : World → Prop where
  | look (id : Nat) : Turn w (w.pollTask id).2
  | reap : Turn w w.reap
  | time (now : Nat) : Turn w { w with now }

abbrev Turns : World → World → Prop := Relation.ReflTransGen Turn

theorem Turn.move (h : w.Turn w') : w.Move w' := by
  cases h with
  | look id => exact .look id
  | reap => exact .reap
  | time now => exact .aside rfl rfl rfl rfl rfl rfl

theorem Turns.moves (h : w.Turns w') : w.Moves w' :=
  Relation.ReflTransGen.mono (fun _ _ => Turn.move) _ _ h

/-- The tasks with their targets. -/
def seats (w : World) : List (Nat × Nat) := w.roster.map fun x => (x.1, x.2.1)

theorem seats_putTask {task : Task} (job : Job) (hids : (w.tasks.map (·.id)).Nodup)
    (htask : w.task? id = some task) : (w.putTask { task with job }).seats = w.seats := by
  have hmem : task ∈ w.tasks := List.mem_of_find?_eq_some htask
  rw [seats, seats, roster_putTask, List.map_map, roster, List.map_map, List.map_map]
  refine List.map_congr_left fun t ht => ?_
  dsimp only [Function.comp]
  split
  · rename_i hid
    obtain rfl := List.inj_on_of_nodup_map hids ht hmem hid
    rfl
  · rfl

theorem Turn.seats (hturn : w.Turn w') (h : w.Upright) : w'.seats = w.seats := by
  cases hturn with
  | look id =>
    unfold pollTask
    split
    · rfl
    · rename_i task htask
      obtain ⟨rfl, -⟩ := mem_roster htask
      split
      · rename_i w₁ hpoll
        exact congrArg (List.map _) ((pollJob_deal htask hpoll).roster h.ids)
      · rename_i job w₁ hpoll
        have hroster := (pollJob_deal htask hpoll).roster h.ids
        have hseats : w₁.seats = w.seats := congrArg (List.map _) hroster
        split
        · rename_i task' htask'
          have hids : (w₁.tasks.map (·.id)).Nodup := Deal.ids_eq hroster ▸ h.ids
          exact (seats_putTask job hids htask').trans hseats
        · exact hseats
  | reap => exact congrArg (List.map _) (w.reap_deal.roster h.ids)
  | time now => rfl

theorem Turns.seats (hturns : w.Turns w') (h : w.Upright) : w'.seats = w.seats := by
  induction hturns with
  | refl => rfl
  | tail hturns hturn ih => exact (hturn.seats (Moves.upright (Turns.moves hturns) h).2).trans ih

theorem foldl_turns {f : Bool × World → Nat → Bool × World}
    (hf : ∀ (p : Bool × World) (id : Nat), p.2.Turns (f p id).2) (ids : List Nat)
    (p : Bool × World) : p.2.Turns (ids.foldl f p).2 := by
  induction ids generalizing p with
  | nil => exact .refl
  | cons id ids ih => exact (hf p id).trans (ih _)

theorem pollAll_turns (w : World) : w.Turns w.pollAll.2 := by
  unfold pollAll
  refine foldl_turns ?_ _ (false, w)
  rintro ⟨-, v⟩ id
  exact .single (.look id)

theorem settle_turns (n : Nat) (w : World) : w.Turns (w.settle n) := by
  induction n generalizing w with
  | zero => exact .refl
  | succ n ih =>
    have hpolls := w.pollAll_turns
    unfold settle
    split
    · rename_i v hpoll
      rw [hpoll] at hpolls
      exact hpolls.trans (ih v)
    · rename_i v hpoll
      rw [hpoll] at hpolls
      exact hpolls.tail .reap

theorem runUntil_turns (id n : Nat) (w : World) : w.Turns (w.runUntil id n) := by
  induction n generalizing w with
  | zero => exact .refl
  | succ n ih =>
    have hsettles := w.settle_turns n
    unfold runUntil
    dsimp only
    split
    · exact hsettles
    · split
      · exact hsettles
      · rename_i time _
        exact (hsettles.tail (.time time)).trans (ih _)

/-! ### Tasks in the foreground -/

/-- A session adds a task and waits for it. -/
def awaited (w : World) (i : Nat) (job : Job) (deadline : Option Nat) : World :=
  (w.addTask i job deadline).2.runUntil w.nextTask stepFuel

theorem awaited_moves (w : World) (deadline : Option Nat) (hholds : job.holds = [])
    (hborrows : ∀ c ∈ job.borrows, w.Has i c) : w.Moves (w.awaited i job deadline) :=
  .head (.task deadline hholds hborrows) (Turns.moves (runUntil_turns _ _ _))

theorem await_moves (w : World) (i : Nat) (deadline : Option Nat) (hholds : job.holds = [])
    (hborrows : job.borrows = []) : w.Moves (w.await i job deadline).2 := by
  refine (w.awaited_moves deadline hholds ?_).tail (.drop _)
  rw [hborrows]
  exact fun c hc => absurd hc List.not_mem_nil

theorem moves_of_await {deadline : Option Nat} {a : Answer} (hholds : job.holds = [])
    (hborrows : job.borrows = []) (h : w.await i job deadline = (a, w')) : w.Moves w' := by
  have hmoves := w.await_moves i deadline hholds hborrows
  rwa [h] at hmoves

/-- A task that a session waits for stays on its target. -/
theorem awaited_target {task : Task} {deadline : Option Nat} (h : w.Upright)
    (hholds : job.holds = []) (hborrows : ∀ c ∈ job.borrows, w.Has i c)
    (htask : (w.awaited i job deadline).task? w.nextTask = some task) : task.target = i := by
  have hadds : w.Move (w.addTask i job deadline).2 := .task deadline hholds hborrows
  have hadded := (hadds.upright h).2
  have hturns := runUntil_turns w.nextTask stepFuel (w.addTask i job deadline).2
  have hseats : (w.awaited i job deadline).seats = w.seats ++ [(w.nextTask, i)] := by
    refine (Turns.seats hturns hadded).trans ?_
    rw [seats, roster_addTask, List.map_append]
    rfl
  obtain ⟨hid, hmem⟩ := mem_roster htask
  have hseat : (w.nextTask, task.target) ∈ w.seats ++ [(w.nextTask, i)] := by
    rw [← hseats]
    exact List.mem_map_of_mem (f := fun x : Nat × Nat × Job => (x.1, x.2.1)) hmem
  rcases List.mem_append.mp hseat with hold | hnew
  · obtain ⟨x, hx, heq⟩ := List.mem_map.mp hold
    have hlt := h.enrolled.fresh x.1 (List.mem_map_of_mem hx)
    rw [(Prod.mk.inj heq).1] at hlt
    exact absurd hlt (Nat.lt_irrefl _)
  · exact (Prod.mk.inj (List.mem_singleton.mp hnew)).2

/-- A connection that a session has waited for is kept under a name. -/
theorem await_keep_moves {deadline : Option Nat} (name : String) (h : w.Upright)
    (hholds : job.holds = []) (hborrows : job.borrows = [])
    (hanswer : w.await i job deadline = (.number on, w')) : w.Moves (w'.keep name i on) := by
  have hborrows : ∀ c ∈ job.borrows, w.Has i c := by
    rw [hborrows]
    exact fun c hc => absurd hc List.not_mem_nil
  obtain rfl : w' = (w.awaited i job deadline).dropTask w.nextTask :=
    (congrArg Prod.snd hanswer).symm
  have hnumber : (w.await i job deadline).1 = .number on := congrArg Prod.fst hanswer
  simp only [await] at hnumber
  cases htask : (w.awaited i job deadline).task? w.nextTask with
  | none =>
    rw [awaited] at htask
    rw [show (w.addTask i job deadline).1 = w.nextTask from rfl, htask] at hnumber
    cases hnumber
  | some task =>
    have htarget := awaited_target h hholds hborrows htask
    rw [show (w.addTask i job deadline).1 = w.nextTask from rfl] at hnumber
    rw [← awaited, htask, Option.map_some] at hnumber
    split at hnumber
    · rename_i a hjob
      rw [hnumber, Option.some.injEq] at hjob
      have hkeeps := (w.awaited_moves deadline hholds hborrows).tail (.keep name htask hjob)
      rw [htarget] at hkeeps
      exact hkeeps
    · cases hnumber
    · cases hnumber

/-! ### Steps of a session -/

theorem aside_moves (hdisk : w'.disk = w.disk) (htargets : w'.targets = w.targets)
    (htasks : w'.tasks = w.tasks) (hnext : w'.nextTask = w.nextTask)
    (hguards : w'.guards = w.guards) (hblockers : w'.blockers = w.blockers) : w.Moves w' :=
  .single (.aside hdisk htargets htasks hnext hguards hblockers)

theorem forgetTarget_moves (w : World) (i : Nat) : w.Moves (w.forgetTarget i) :=
  .single (.adjust i fun _ => rfl)

theorem turnTo_moves (w : World) (i : Nat) : w.Moves (w.turnTo i) := by
  unfold turnTo
  split
  · rename_i old _
    exact (w.forgetTarget_moves old).tail (.aside rfl rfl rfl rfl rfl rfl)
  · exact aside_moves rfl rfl rfl rfl rfl rfl

theorem startCheckpoints_moves (w : World) (i : Nat) (config : StoreConfig) :
    w.Moves (w.startCheckpoints i config) := by
  unfold startCheckpoints
  split
  · exact .refl
  · exact .tail (.single (.task _ rfl (by rintro c ⟨⟩))) (.adjust i fun _ => rfl)

theorem openDatabase_moves (w : World) (path : String) (config : DatabaseConfig)
    (policy : RetryPolicy) (recorded connect : Bool) :
    w.Moves (w.openDatabase path config policy recorded connect).2 := by
  have hadds : w.Moves (w.addTarget (databaseTarget path config policy recorded)).2 :=
    .single (.target rfl)
  have hopens := (hadds.trans (turnTo_moves _ w.targets.length)).tail .reap
  unfold openDatabase
  dsimp only
  split
  · exact hopens.trans (await_moves _ _ none rfl rfl)
  · exact hopens

theorem forgets_moves (w : World) (i : Nat) : w.Moves (w.forgetTarget i).reap :=
  (w.forgetTarget_moves i).tail .reap

theorem openStatic_moves (w : World) (path : String) (config : DatabaseConfig) :
    w.Moves (w.openStatic path config).2 := by
  have hadds : w.Move (w.addTarget (databaseTarget path config {} true)).2 := .target rfl
  unfold openStatic
  dsimp only
  split
  · rename_i v hanswer
    have hconnects : w.Moves v := .head hadds (moves_of_await rfl rfl hanswer)
    have hcloses : v.Moves (v.await w.targets.length (.database { request := .close }) none).2 :=
      v.await_moves _ none rfl rfl
    exact (hconnects.trans hcloses).trans (forgets_moves _ _)
  · rename_i v _ hanswer
    have hconnects : w.Moves v := .head hadds (moves_of_await rfl rfl hanswer)
    exact hconnects.trans (forgets_moves _ _)

theorem createParent_move {d : Disk} (h : w.disk.createParent = .ok d) :
    w.Move { w with disk := d } := by
  unfold Disk.createParent at h
  split at h <;> cases h <;> exact .files rfl rfl

theorem openStore_moves (w : World) (path : String) (config : StoreConfig) (record : Bool)
    (broadcast : Option Nat) : w.Moves (w.openStore path config record broadcast).2 := by
  have hconnects {v u : World} {t : Target} {a : Answer} (hv : w.Moves v)
      (ht : t.database.pool = none) (hanswer : (v.addTarget t).2.await v.targets.length
        (.database { request := .connect }) none = (a, u)) : w.Moves u :=
    (hv.tail (.target ht)).trans (moves_of_await rfl rfl hanswer)
  have hends {v : World} (hv : w.Moves v) (i : Nat) :
      w.Moves ((v.startCheckpoints i config).turnTo i) :=
    (hv.trans (startCheckpoints_moves v i config)).trans (turnTo_moves _ i)
  unfold openStore
  split
  · exact .refl
  · split
    · exact .refl
    · rename_i d hparent
      have hfirst : w.Moves { w with disk := d } := .single (createParent_move hparent)
      cases broadcast with
      | none =>
        dsimp only
        split <;> rename_i hanswer
        · exact hends (hconnects hfirst rfl hanswer) _
        · exact (hconnects hfirst rfl hanswer).trans (forgets_moves _ _)
        · exact (hconnects hfirst rfl hanswer).trans (forgets_moves _ _)
      | some capacity =>
        have hchannel : w.Moves { w with
            disk := d
            records := { w.records with
              channels := w.records.channels ++ [Channel.new capacity] } } :=
          hfirst.tail (.aside rfl rfl rfl rfl rfl rfl)
        dsimp only
        split <;> rename_i hanswer
        · exact hends (hconnects hchannel rfl hanswer) _
        · exact (hconnects hchannel rfl hanswer).trans (forgets_moves _ _)
        · exact (hconnects hchannel rfl hanswer).trans (forgets_moves _ _)

theorem receive_moves (w : World) (name : String) : w.Moves (w.receive name).2 := by
  unfold receive
  split
  · exact .refl
  · split
    · exact .refl
    · exact aside_moves rfl rfl rfl rfl rfl rfl

theorem subscribe_moves (w : World) (i : Nat) (name : String) (operations : List String) :
    w.Moves (w.subscribe i name operations).2 := by
  unfold subscribe
  split
  · exact .refl
  · split
    · exact .refl
    · exact .refl
    · split
      · exact .refl
      · exact aside_moves rfl rfl rfl rfl rfl rfl

theorem clearRecords_moves (w : World) : w.Moves w.clearRecords :=
  aside_moves rfl rfl rfl rfl rfl rfl

theorem forgetWrite_moves (w : World) (name : String) (id : Nat) :
    (w.dropTask id).Moves (w.forgetWrite name id) := aside_moves rfl rfl rfl rfl rfl rfl

theorem findWrite_eq {name : String} {task : Task} {write : Writing}
    (h : w.findWrite name = some (task, write)) :
    w.task? task.id = some task ∧ task.job = .write write := by
  unfold findWrite at h
  split at h
  · rename_i found hfound
    split at h
    · rename_i hjob
      cases h
      obtain ⟨id, -, htask⟩ := Option.bind_eq_some_iff.mp hfound
      exact ⟨(mem_roster htask).1 ▸ htask, hjob⟩
    · cases h
  · cases h

end World

open World

variable {s s' : Session} {a : Answer}

theorem moves_of_runFree {step : Step} (h : s.runFree step = some (a, s')) :
    s.world.Moves s'.world := by
  cases step with
  | files =>
    cases h
    exact .refl
  | rows =>
    cases h
    exact .single .rows
  | block name how =>
    cases h
    exact .single (.block name how)
  | unblock name =>
    cases h
    exact .single (.unblock name)
  | outsideInsert key value =>
    cases h
    exact .single (.outsideInsert key value)
  | sleep d =>
    cases h
    exact await_moves _ _ _ rfl rfl
  | release name =>
    cases h
    exact .single (.letGo name false)
  | discard name =>
    cases h
    exact .single (.letGo name true)
  | reached gate =>
    cases h
    exact await_moves _ _ _ rfl rfl
  | openGate gate =>
    cases h
    exact aside_moves rfl rfl rfl rfl rfl rfl
  | receive name =>
    cases h
    exact receive_moves _ name
  | dropReader name =>
    cases h
    exact aside_moves rfl rfl rfl rfl rfl rfl
  | dropTarget =>
    simp only [runFree] at h
    split at h
    · cases h
      exact .refl
    · rename_i i _
      cases h
      exact (forgetTarget_moves _ i).tail (.aside rfl rfl rfl rfl rfl rfl)
  | openDatabase o =>
    simp only [runFree] at h
    split at h
    · cases h
      exact openDatabase_moves ..
    · cases h
  | openStatic config =>
    simp only [runFree] at h
    split at h
    · cases h
      exact openStatic_moves ..
    · cases h
  | openStore o =>
    simp only [runFree] at h
    split at h
    · cases h
    · split at h
      · cases h
        exact .refl
      · cases h
        exact openStore_moves ..
  | backgroundDone name d =>
    simp only [runFree] at h
    split at h
    · cases h
      exact .refl
    · split at h
      · rename_i hanswer
        cases h
        exact moves_of_await rfl rfl hanswer
      · rename_i hanswer
        cases h
        have hwaits := moves_of_await rfl rfl hanswer
        exact (hwaits.tail (.drop _)).tail (.aside rfl rfl rfl rfl rfl rfl)
  | running name d =>
    simp only [runFree] at h
    split at h
    · cases h
      exact .refl
    · split at h
      · cases h
        exact await_moves _ _ _ rfl rfl
      · cases h
        exact await_moves _ _ _ rfl rfl
  | cancel name =>
    simp only [runFree] at h
    split at h
    · cases h
      exact .refl
    · rename_i task write hfound
      obtain ⟨htask, hjob⟩ := findWrite_eq hfound
      cases h
      exact .single (.cancel htask hjob)
  | join name =>
    simp only [runFree] at h
    split at h
    · cases h
      exact .refl
    · rename_i task write _
      cases h
      have hwaits : s.world.Moves (s.world.awaitTask task.id none).2 := await_moves _ _ _ rfl rfl
      exact ((hwaits.tail (.drop task.id)).trans (forgetWrite_moves ..)).trans
        (clearRecords_moves _)
  | abort name =>
    simp only [runFree] at h
    split at h
    · cases h
      exact .refl
    · rename_i task write hfound
      obtain ⟨htask, hjob⟩ := findWrite_eq hfound
      cases h
      have hdrops := Relation.ReflTransGen.single (Move.abandon htask hjob)
      exact (hdrops.trans (forgetWrite_moves ..)).trans (clearRecords_moves _)
  | _ => cases h

theorem choreJob_idle (t : Target) (what : Chore) :
    (choreJob t what).holds = [] ∧ (choreJob t what).borrows = [] := by
  unfold choreJob
  split
  · exact ⟨rfl, rfl⟩
  · split <;> exact ⟨rfl, rfl⟩
  · exact ⟨rfl, rfl⟩

/-- A session waits for a call that closes, removes or shuts down. -/
theorem chore_moves (w : World) (i : Nat) (t : Target) (what : Chore) :
    w.Moves (w.await i (choreJob t what)).2 :=
  w.await_moves i none (choreJob_idle t what).1 (choreJob_idle t what).2

theorem runOpen_moves (s : Session) (h : s.world.Upright) (i : Nat) (t : Target) (step : Step) :
    s.world.Moves (s.runOpen i t step).2.world := by
  cases step with
  | setup => exact await_moves _ _ _ rfl rfl
  | connect =>
    simp only [runOpen]
    split
    · rename_i hanswer
      exact moves_of_await rfl rfl hanswer
    · rename_i hanswer
      exact moves_of_await rfl rfl hanswer
  | pool =>
    simp only [runOpen]
    split <;> exact .refl
  | acquire name =>
    simp only [runOpen]
    split
    · rename_i hanswer
      exact await_keep_moves name h rfl rfl hanswer
    · rename_i hanswer
      exact moves_of_await rfl rfl hanswer
  | guard name actions =>
    simp only [runOpen]
    split
    · exact .refl
    · rename_i j on hkept
      refine (awaited_moves s.world none rfl ?_).tail (.drop _)
      intro c hc
      obtain rfl := List.mem_singleton.mp hc
      exact .kept ((subperm_of_lookup hkept).subset List.mem_cons_self)
  | checkpoint mode => exact await_moves _ _ _ rfl rfl
  | close => exact chore_moves _ i t .close
  | remove => exact chore_moves _ i t .remove
  | shutdown => exact chore_moves _ i t .shutdown
  | background name what =>
    obtain ⟨hholds, hborrows⟩ := choreJob_idle t what
    have hadds : s.world.Move (s.world.addTask i (choreJob t what) none).2 :=
      .task none hholds (by rw [hborrows]; exact fun c hc => absurd hc List.not_mem_nil)
    exact .tail (.single hadds) (.aside rfl rfl rfl rfl rfl rfl)
  | write order =>
    have hwaits := await_moves s.world.clearRecords i none
      (show (s.world.clearRecords.startWriting order).holds = [] from rfl) rfl
    exact ((clearRecords_moves _).trans hwaits).trans (clearRecords_moves _)
  | spawn name order =>
    have hadds : s.world.Move (s.world.addTask i (s.world.startWriting order) none).2 :=
      .task none rfl (by rintro c ⟨⟩)
    exact .tail (.single hadds) (.aside rfl rfl rfl rfl rfl rfl)
  | subscribe name operations => exact subscribe_moves ..
  | settings =>
    simp only [runOpen]
    split <;> exact .refl
  | waitLogEmpty d => exact await_moves _ _ _ rfl rfl
  | _ => exact .refl

/-- Each step of a session is a sequence of moves. -/
theorem run_moves (s : Session) (h : s.world.Upright) (step : Step) :
    s.world.Moves (s.run step).2.world := by
  have hsettles {u : Session} (hu : s.world.Moves u.world) :
      s.world.Moves (u.world.settle stepFuel) := hu.trans (Turns.moves (settle_turns _ _))
  unfold run
  cases hfree : s.runFree step with
  | some done =>
    obtain ⟨a, u⟩ := done
    exact hsettles (moves_of_runFree hfree)
  | none =>
    dsimp only
    split
    · exact hsettles .refl
    · split
      · exact hsettles (runOpen_moves s h _ _ step)
      · exact hsettles .refl

/-- The world of a session where it starts, on a disk that nobody has opened. -/
theorem start_reached (subject : Subject) (path : String) {d : Disk} (h : d.connections = []) :
    (start subject path d).world.Reached := by
  have hinitial : Initial { disk := d } := ⟨h, rfl, rfl, rfl, rfl⟩
  cases subject with
  | database config policy recorded =>
    have htarget : Move { disk := d } (World.addTarget { disk := d }
        (databaseTarget path config policy recorded)).2 := .target rfl
    exact ⟨_, hinitial, .tail (.single htarget) (.aside rfl rfl rfl rfl rfl rfl)⟩
  | store config => exact ⟨_, hinitial, .refl⟩

/-- After any steps the world of a session is one that a run leads to. -/
theorem reached_of_run (s : Session) (h : s.world.Reached) (steps : List Step) :
    (steps.foldl (fun s step => (s.run step).2) s).world.Reached := by
  induction steps generalizing s with
  | nil => exact h
  | cons step steps ih => exact ih _ (h.moves (s.run_moves h.upright step))

end SingleWriter.Session
