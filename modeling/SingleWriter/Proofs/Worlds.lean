import SingleWriter.Proofs.Looks
import SingleWriter.Session.Open

/-! The tasks of a world and the connections in their hands.  In an upright world every connection
that is for a target is open, has the tuning of that target, and is in one place.  A world stays
upright when tasks are looked at, come, go, are cancelled or dropped. -/

namespace SingleWriter.Session

open Engine

/-! ### Rosters -/

/-- The connections in the hands of the tasks of a roster. -/
def handled (l : List (Nat × Nat × Job)) : Multiset Holding :=
  (l.map fun x => holdings x.2.1 x.2.2.holds).sum

theorem handled_split (a b : List (Nat × Nat × Job)) (x : Nat × Nat × Job) :
    handled (a ++ x :: b) = holdings x.2.1 x.2.2.holds + handled (a ++ b) := by
  rw [handled, handled, List.map_append, List.map_cons, List.sum_append, List.sum_cons,
    List.map_append, List.sum_append, add_left_comm]

theorem handled_le {l l' : List (Nat × Nat × Job)} (h : l.Sublist l') : handled l ≤ handled l' :=
  (h.map _).sum_le_sum fun _ _ => zero_le

/-- Every task has a number of its own, which was given out. -/
structure Enrolled (l : List (Nat × Nat × Job)) (next : Nat) : Prop where
  ids : (l.map Prod.fst).Nodup
  fresh : ∀ id ∈ l.map Prod.fst, id < next

namespace Enrolled

variable {l l' : List (Nat × Nat × Job)} {next : Nat}

/-- An entry stands at one place among the others. -/
theorem split (h : Enrolled l next) {x : Nat × Nat × Job} (hx : x ∈ l) :
    ∃ a b, l = a ++ x :: b ∧ ∀ y ∈ a ++ b, y.1 ≠ x.1 := by
  obtain ⟨a, b, rfl⟩ := List.append_of_mem hx
  refine ⟨a, b, rfl, ?_⟩
  have hids := h.ids
  rw [List.map_append, List.map_cons, List.nodup_middle, ← List.map_append,
    List.nodup_cons] at hids
  intro y hy heq
  exact hids.1 (heq ▸ List.mem_map_of_mem hy)

theorem sublist (h : Enrolled l next) (hl : l'.Sublist l) : Enrolled l' next :=
  ⟨h.ids.sublist (hl.map _), fun id hid => h.fresh id ((hl.map _).subset hid)⟩

/-- Entries may change as long as they keep their numbers. -/
theorem of_ids (h : Enrolled l next) (hl : l'.map Prod.fst = l.map Prod.fst) : Enrolled l' next :=
  ⟨hl ▸ h.ids, hl ▸ h.fresh⟩

theorem concat (h : Enrolled l next) (i : Nat) (job : Job) :
    Enrolled (l ++ [(next, i, job)]) (next + 1) := by
  constructor
  · rw [List.map_append, List.map_singleton]
    refine List.nodup_append.mpr ⟨h.ids, List.nodup_singleton _, ?_⟩
    intro a ha b hb
    rw [List.mem_singleton.mp hb]
    exact Nat.ne_of_lt (h.fresh a ha)
  · intro id hid
    rw [List.map_append, List.map_singleton] at hid
    rcases List.mem_append.mp hid with hold | hnew
    · exact Nat.lt_succ_of_lt (h.fresh id hold)
    · rw [List.mem_singleton.mp hnew]
      exact Nat.lt_succ_self _

end Enrolled

namespace World

variable {w w' w₁ : World} {gave got own rest : Multiset Holding} {i c : Nat}

theorem mem_roster {task : Task} {id : Nat} (h : w.task? id = some task) :
    task.id = id ∧ (id, task.target, task.job) ∈ w.roster := by
  have hid : task.id = id := by simpa using List.find?_some h
  refine ⟨hid, ?_⟩
  subst hid
  exact List.mem_map_of_mem (List.mem_of_find?_eq_some h)

theorem roster_putTask (w : World) (new : Task) :
    (w.putTask new).roster =
      w.roster.map fun x => if x.1 = new.id then (new.id, new.target, new.job) else x := by
  rw [roster, roster, putTask, List.map_map, List.map_map]
  refine List.map_congr_left fun t _ => ?_
  show (fun t : Task => (t.id, t.target, t.job)) (if t.id = new.id then new else t) =
    if t.id = new.id then _ else _
  split <;> rfl

theorem roster_dropTask (w : World) (id : Nat) :
    (w.dropTask id).roster = w.roster.filter (·.1 != id) := by
  rw [roster, roster, dropTask, List.filter_map]
  rfl

theorem roster_drops {a b : List (Nat × Nat × Job)} {x : Nat × Nat × Job}
    (hroster : w.roster = a ++ x :: b) (hothers : ∀ y ∈ a ++ b, y.1 ≠ x.1) :
    (w.dropTask x.1).roster = a ++ b := by
  rw [roster_dropTask, hroster, List.filter_append, List.filter_cons_of_neg (by simp),
    ← List.filter_append, List.filter_eq_self]
  intro y hy
  simpa using hothers y hy

theorem task?_of_roster {task : Task} {id : Nat} (hroster : w'.roster = w.roster)
    (ht : w.task? id = some task) :
    ∃ task', w'.task? id = some task' ∧ task'.target = task.target := by
  have hfind (v : World) : v.roster.find? (·.1 == id) =
      (v.task? id).map fun t => (t.id, t.target, t.job) := by
    rw [roster, List.find?_map]
    rfl
  have hsame : (w'.task? id).map (fun t => (t.id, t.target, t.job)) =
      some (task.id, task.target, task.job) := by
    rw [← hfind, hroster, hfind, ht]
    rfl
  obtain ⟨task', htask', heq⟩ := Option.map_eq_some_iff.mp hsame
  exact ⟨task', htask', congrArg (·.2.1) heq⟩

/-! ### Upright worlds -/

/-- All connections that are for a target. -/
def allotted (w : World) : Multiset Holding := w.lent (handled w.roster)

/-- Target `i` has connection `c`: it is at rest in the pool, kept under a name, or in the hands of
a task. -/
inductive Has (w : World) : Nat → Nat → Prop where
  | rests {i c : Nat} {p : Pool} : w.pool? i = some p → c ∈ p.idle → Has w i c
  | kept {name : String} {i c : Nat} : (name, i, c) ∈ w.guards → Has w i c
  | held {task : Task} {c : Nat} : task ∈ w.tasks → c ∈ task.job.holds → Has w task.target c

/-- A connection for target `i`: it has the tuning of that target for as long as it is open. -/
def Fits (w : World) (i c : Nat) : Prop :=
  ∃ config, w.configs[i]? = some config ∧ c < w.disk.nextConnection ∧
    (w.disk.tuning? c = some config.tuning ∨ w.disk.tuning? c = none)

/-- Each connection for a target is open, has the tuning of its target, and is in one place; a task
borrows none but those. -/
structure Upright (w : World) : Prop where
  sound : w.Sound (handled w.roster)
  enrolled : Enrolled w.roster w.nextTask
  borrowed : ∀ x ∈ w.roster, ∀ c ∈ x.2.2.borrows, w.Fits x.2.1 c

/-- `after` comes later than `before`: targets are never taken away. -/
structure Later (before after : World) : Prop where
  disk : before.disk.Since after.disk
  configs : before.configs <+: after.configs

theorem Later.refl (w : World) : w.Later w := ⟨.refl _, List.prefix_refl _⟩

theorem Later.trans (h : w.Later w₁) (h' : w₁.Later w') : w.Later w' :=
  ⟨h.disk.trans h'.disk, h.configs.trans h'.configs⟩

theorem Later.config {config : DatabaseConfig} {i : Nat} (h : w.Later w')
    (hi : w.configs[i]? = some config) : w'.configs[i]? = some config := by
  obtain ⟨more, hmore⟩ := h.configs
  rw [← hmore, List.getElem?_append_left (List.getElem?_eq_some_iff.mp hi).1]
  exact hi

theorem Fits.later {i c : Nat} (h : w.Fits i c) (hlater : w.Later w') : w'.Fits i c := by
  obtain ⟨config, hi, hc, htuning⟩ := h
  refine ⟨config, hlater.config hi, Nat.lt_of_lt_of_le hc hlater.disk.next, ?_⟩
  rcases hlater.disk.tuning c hc with hsame | hgone
  · rw [hsame]
    exact htuning
  · exact .inr hgone

theorem Sound.fits (h : w.Sound own) {x : Holding} (hx : x ∈ w.lent own) : w.Fits x.1 x.2 := by
  obtain ⟨config, hi, htuning⟩ := h.tuned x hx
  exact ⟨config, hi, h.lent_lt hx, .inl htuning⟩

theorem Has.allotted (h : w.Has i c) : (i, c) ∈ w.allotted := by
  rw [World.allotted, lent]
  cases h with
  | @rests _ _ p hp hc =>
    obtain ⟨t, ht, hpool⟩ := Option.bind_eq_some_iff.mp hp
    have hlt : i < w.targets.length := (List.getElem?_eq_some_iff.mp ht).1
    refine Multiset.mem_add.mpr (.inl (Multiset.mem_add.mpr (.inr ?_)))
    refine Multiset.mem_sum.mpr ⟨i, Finset.mem_range.mpr hlt, mem_holdings.mpr ⟨rfl, ?_⟩⟩
    rw [idle_of_target ht, Target.idle_of_pool hpool]
    exact hc
  | kept hkept =>
    refine Multiset.mem_add.mpr (.inr ?_)
    exact List.mem_map_of_mem (f := fun x : String × Nat × Nat => x.2) hkept
  | @held task _ htask hc =>
    refine Multiset.mem_add.mpr (.inl (Multiset.mem_add.mpr (.inl ?_)))
    obtain ⟨a, b, hroster⟩ := List.append_of_mem
      (List.mem_map_of_mem (f := fun t : Task => (t.id, t.target, t.job)) htask)
    rw [roster, hroster, handled_split]
    exact Multiset.mem_add.mpr (.inl (mem_holdings.mpr ⟨rfl, hc⟩))

/-- Tasks come, go or go on, and have no more than before. -/
theorem Sound.tasks (h : w.Sound own) (hle : got ≤ own) (tasks : List Task) (next : Nat) :
    World.Sound { w with tasks, nextTask := next } got :=
  h.mono rfl rfl (add_le_add_left (add_le_add_left hle _) _) (le_refl _)

namespace Upright

theorem ids (h : w.Upright) : (w.tasks.map (·.id)).Nodup := by
  have hids := h.enrolled.ids
  rwa [roster, List.map_map] at hids

/-- Some of the tasks trade what they have. -/
theorem trade (h : w.Upright) (hdeal : Deal gave got w w')
    (hhands : handled w.roster = gave + rest) : w.Later w' ∧ w'.Sound (got + rest) := by
  obtain ⟨hsince, hsound⟩ := hdeal.sound rest (hhands ▸ h.sound)
  exact ⟨⟨hsince, hdeal.configs ▸ List.prefix_refl _⟩, hsound⟩

/-- Some tasks are gone; the others are as before. -/
theorem fewer (h : w.Upright) (hlater : w.Later w') (hsound : w'.Sound (handled w'.roster))
    (hroster : w'.roster.Sublist w.roster) (hnext : w'.nextTask = w.nextTask) : w'.Upright := by
  refine ⟨hsound, hnext ▸ h.enrolled.sublist hroster, ?_⟩
  intro x hx c hc
  exact (h.borrowed x (hroster.subset hx) c hc).later hlater

/-- Some of the tasks get back what they gave. -/
theorem steady (h : w.Upright) (hdeal : Deal gave gave w w') (hgave : gave ≤ handled w.roster) :
    w.Later w' ∧ w'.Upright := by
  obtain ⟨rest, hrest⟩ := le_iff_exists_add.mp hgave
  obtain ⟨hlater, hsound⟩ := h.trade hdeal hrest
  have hroster := hdeal.roster h.ids
  rw [← hrest, ← hroster] at hsound
  exact ⟨hlater, h.fewer hlater hsound (hroster ▸ List.Sublist.refl _) hdeal.nextTask⟩

theorem deal (h : w.Upright) (hdeal : Deal 0 0 w w') : w.Later w' ∧ w'.Upright :=
  h.steady hdeal zero_le

end Upright

/-- A world before anything has been opened. -/
structure Initial (w : World) : Prop where
  connections : w.disk.connections = []
  targets : w.targets = []
  tasks : w.tasks = []
  guards : w.guards = []
  blockers : w.blockers = []

theorem Initial.upright (h : w.Initial) : w.Upright := by
  have hroster : w.roster = [] := by
    rw [roster, h.tasks]
    rfl
  have hnone : w.lent (handled w.roster) = 0 := by
    rw [lent, resting, guarded, hroster, h.targets, h.guards]
    rfl
  refine ⟨⟨?_, ?_, ?_, ?_⟩, ?_, ?_⟩
  · intro k _
    rw [Disk.tuning?, Disk.connection?, h.connections]
    rfl
  · rw [hnone]
    simp
  · rw [hnone, World.blocking, h.blockers]
    simp
  · rw [World.blocking, h.blockers]
    simp
  · rw [hroster]
    exact ⟨List.nodup_nil, by simp⟩
  · rw [hroster]
    simp

/-! ### Looks -/

/-- A task goes on with another job. -/
theorem roster_goesOn {a b : List (Nat × Nat × Job)} {x : Nat × Nat × Job} {task : Task}
    (hroster : w.roster = a ++ x :: b) (hothers : ∀ y ∈ a ++ b, y.1 ≠ x.1) (hid : task.id = x.1) :
    (w.putTask task).roster = a ++ (task.id, task.target, task.job) :: b := by
  have hkeep (l : List (Nat × Nat × Job)) (hl : ∀ y ∈ l, y.1 ≠ x.1) :
      l.map (fun y => if y.1 = task.id then (task.id, task.target, task.job) else y) = l := by
    refine (List.map_congr_left fun y hy => ?_).trans (List.map_id' l)
    rw [hid, if_neg (hl y hy)]
  rw [roster_putTask, hroster, List.map_append, List.map_cons, if_pos hid.symm,
    hkeep a fun y hy => hothers y (List.mem_append_left b hy),
    hkeep b fun y hy => hothers y (List.mem_append_right a hy)]

/-- A task trades what it had for what its next job has. -/
theorem Upright.goesOn {task task' : Task} {job : Job} {id : Nat} (h : w.Upright)
    (htask : w.task? id = some task)
    (hdeal : Deal (holdings task.target task.job.holds) (holdings task.target job.holds) w w₁)
    (hborrows : job.borrows ⊆ task.job.borrows) (htask' : w₁.task? id = some task') :
    w.Later (w₁.putTask { task' with job }) ∧ (w₁.putTask { task' with job }).Upright := by
  obtain ⟨rfl, hmem⟩ := mem_roster htask
  obtain ⟨a, b, hroster, hothers⟩ := h.enrolled.split hmem
  have hhands : handled w.roster = holdings task.target task.job.holds + handled (a ++ b) := by
    rw [hroster, handled_split]
  obtain ⟨hlater, hsound⟩ := h.trade hdeal hhands
  have hsame := hdeal.roster h.ids
  obtain ⟨t, ht, htarget⟩ := task?_of_roster hsame htask
  obtain rfl := Option.some.inj (ht.symm.trans htask')
  have hid : t.id = task.id := (mem_roster ht).1
  have hafter : (w₁.putTask { t with job }).roster = a ++ (t.id, t.target, job) :: b :=
    roster_goesOn (hsame.trans hroster) hothers hid
  have hputs : w.Later (w₁.putTask { t with job }) := ⟨hlater.disk, hlater.configs⟩
  refine ⟨hputs, ?_, ?_, ?_⟩
  · rw [hafter, handled_split, htarget]
    exact hsound.tasks (le_refl _) _ _
  · refine (hdeal.nextTask ▸ h.enrolled : Enrolled w.roster w₁.nextTask).of_ids ?_
    rw [hafter, hroster, hid]
    simp
  · intro x hx c hc
    rw [hafter] at hx
    rcases List.mem_append.mp hx with hold | hrest
    · exact (h.borrowed x (hroster ▸ List.mem_append_left _ hold) c hc).later hputs
    · rcases List.mem_cons.mp hrest with rfl | hold
      · have hown : w.Fits task.target c := h.borrowed _ hmem c (hborrows hc)
        rw [← htarget] at hown
        exact hown.later hputs
      · exact (h.borrowed x (hroster ▸ List.mem_append_right _ (List.mem_cons_of_mem _ hold))
          c hc).later hputs

theorem pollTask_upright (h : w.Upright) (id : Nat) :
    w.Later (w.pollTask id).2 ∧ (w.pollTask id).2.Upright := by
  unfold pollTask
  split
  · exact ⟨.refl w, h⟩
  · rename_i task htask
    obtain ⟨rfl, hmem⟩ := mem_roster htask
    split
    · rename_i w₁ hpoll
      obtain ⟨a, b, hroster, -⟩ := h.enrolled.split hmem
      refine h.steady (pollJob_deal htask hpoll) ?_
      rw [hroster, handled_split]
      exact Multiset.le_add_right _ _
    · rename_i job w₁ hpoll
      have hdeal := pollJob_deal htask hpoll
      obtain ⟨task', htask', -⟩ := task?_of_roster (hdeal.roster h.ids) htask
      rw [htask']
      exact h.goesOn htask hdeal (pollJob_borrows hpoll) htask'

/-! ### Tasks that come and go -/

theorem roster_addTask (w : World) (i : Nat) (job : Job) (deadline : Option Nat) :
    (w.addTask i job deadline).2.roster = w.roster ++ [(w.nextTask, i, job)] := by
  rw [roster, addTask, List.map_append]
  rfl

theorem addTask_upright (h : w.Upright) {i : Nat} {job : Job} (deadline : Option Nat)
    (hholds : job.holds = []) (hborrows : ∀ c ∈ job.borrows, w.Fits i c) :
    w.Later (w.addTask i job deadline).2 ∧ (w.addTask i job deadline).2.Upright := by
  have hlater : w.Later (w.addTask i job deadline).2 := ⟨.refl _, List.prefix_refl _⟩
  have hroster := w.roster_addTask i job deadline
  refine ⟨hlater, ?_, ?_, ?_⟩
  · rw [hroster, handled_split, List.append_nil, hholds]
    exact h.sound.tasks (le_of_eq (zero_add _)) _ _
  · rw [hroster]
    exact h.enrolled.concat i job
  · intro x hx c hc
    rw [hroster] at hx
    rcases List.mem_append.mp hx with hold | hnew
    · exact (h.borrowed x hold c hc).later hlater
    · obtain rfl := List.mem_singleton.mp hnew
      exact (hborrows c hc).later hlater

theorem dropTask_upright (h : w.Upright) (id : Nat) :
    w.Later (w.dropTask id) ∧ (w.dropTask id).Upright := by
  have hlater : w.Later (w.dropTask id) := ⟨.refl _, List.prefix_refl _⟩
  have hsublist : (w.dropTask id).roster.Sublist w.roster := by
    rw [roster_dropTask]
    exact List.filter_sublist
  exact ⟨hlater, h.fewer hlater (h.sound.tasks (handled_le hsublist) _ _) hsublist rfl⟩

/-! ### Kept connections -/

theorem letGo_deal (w : World) (name : String) (close : Bool) :
    Deal 0 0 w (w.letGo name close).2 := by
  unfold letGo
  split
  · exact Deal.refl 0 w
  · rename_i i on hkept
    have hloses : Deal 0 (holdings i [on]) w { w with guards := unassign w.guards name } := by
      refine Deal.guards ?_
      rw [zero_add]
      exact Multiset.map_le_map (f := Prod.snd) (Multiset.coe_le.mpr (subperm_of_lookup hkept))
    dsimp only
    split
    · exact hloses.trans (discard_deal _ i on)
    · exact hloses.trans (release_deal _ i on)

theorem keep_deal (w : World) (name : String) (i on : Nat) :
    Deal (holdings i [on]) 0 w (w.keep name i on) := by
  have hfirst := (w.letGo_deal name false).aside (holdings i [on])
  refine hfirst.trans (Deal.guards ?_)
  rw [zero_add]
  exact Multiset.coe_le.mpr ((List.filter_sublist.map _).cons_cons _).subperm

/-- A connection that a task has ended with is kept under a name. -/
theorem kept_upright {task : Task} {id on : Nat} (h : w.Upright) (htask : w.task? id = some task)
    (hjob : task.job = .finished (.number on)) (name : String) :
    w.Later ((w.dropTask id).keep name task.target on) ∧
      ((w.dropTask id).keep name task.target on).Upright := by
  obtain ⟨rfl, hmem⟩ := mem_roster htask
  obtain ⟨a, b, hroster, hothers⟩ := h.enrolled.split hmem
  have hdropped := roster_drops hroster hothers
  have hown : World.Sound (w.dropTask task.id) (holdings task.target [on] + handled (a ++ b)) := by
    refine h.sound.tasks (le_of_eq ?_) _ _
    rw [hroster, handled_split, hjob]
    rfl
  obtain ⟨hdrops, hupright⟩ := dropTask_upright h task.id
  have hdeal := keep_deal (w.dropTask task.id) name task.target on
  obtain ⟨hsince, hsound⟩ := hdeal.sound _ hown
  have hafter := hdeal.roster hupright.ids
  have hlater : w.Later ((w.dropTask task.id).keep name task.target on) :=
    hdrops.trans ⟨hsince, hdeal.configs ▸ List.prefix_refl _⟩
  refine ⟨hlater, h.fewer hlater ?_ ?_ hdeal.nextTask⟩
  · rw [hafter, hdropped, ← zero_add (handled (a ++ b))]
    exact hsound
  · rw [hafter, hdropped, hroster]
    exact (List.sublist_cons_self _ b).append_left a

/-! ### Writes that are cancelled or dropped -/

theorem cancel_upright {task : Task} {job : Writing} {id : Nat} (h : w.Upright)
    (htask : w.task? id = some task) (hjob : task.job = .write job) :
    w.Later (w.putTask { task with job := .write { job with cancelled := true } }) ∧
      (w.putTask { task with job := .write { job with cancelled := true } }).Upright := by
  refine h.goesOn htask ?_ (List.nil_subset _) htask
  rw [hjob]
  exact Deal.refl _ w

/-- The first things that a dropped write gives up: its place in all lines. -/
theorem leaves_deal (w : World) (task : Task) (job : Writing) :
    Deal 0 0 w (match job.access.phase with
      | .building => ((w.modifyLock task.target (·.leave task.id)).modifyPool task.target
          (·.withdraw task.id)).modifyDatabase task.target fun db => { db with building := false }
      | _ => (w.modifyLock task.target (·.leave task.id)).modifyPool task.target
          (·.withdraw task.id)) := by
  have hlines := (w.modifyLock_deal task.target (·.leave task.id)).trans
    (Deal.pool_same _ task.target (·.withdraw task.id) fun _ => rfl)
  split
  · exact hlines.trans (Deal.modify_same _ _
      (fun t => { t with database := { t.database with building := false } }) (fun _ => rfl)
      fun _ => rfl)
  · exact hlines

theorem abandon_frees_beginning {call : Write.Call (List Answer)} {on : Nat}
    (h : call.phase = .beginning on) (p : RetryPolicy) :
    ((call.abandon p).filter fun e => e != .release on).filterMap Write.Effect.frees? = [] := by
  refine Write.frees_eq_nil fun e he => ?_
  rw [Write.Call.abandon, h] at he
  obtain ⟨hmem, hne⟩ := List.mem_filter.mp he
  rcases List.mem_cons.mp hmem with rfl | hunlocks
  · simp at hne
  · exact Write.unlocking_frees p e hunlocks

/-- A write that is dropped gives up its place in all lines.  While its `BEGIN` is under way another
task takes over its connection; otherwise the connection is given up at once. -/
theorem abandon_cases (w : World) (task : Task) (job : Writing) :
    w.abandon task job = w ∨ ∃ w₁ p, Deal 0 0 w w₁ ∧
      (w.abandon task job = w₁.fulfil task.target (job.call.abandon p) ∨
        ∃ on, job.call.phase = .beginning on ∧
          w.abandon task job = (w₁.addTask task.target (.linger on) task.deadline).2.fulfil
            task.target ((job.call.abandon p).filter fun e => e != .release on)) := by
  have hleaves := w.leaves_deal task job
  unfold abandon
  dsimp only
  split
  · exact .inl rfl
  · rename_i t _
    split
    · rename_i on hphase
      exact .inr ⟨_, t.policy, hleaves, .inr ⟨on, hphase, rfl⟩⟩
    · exact .inr ⟨_, t.policy, hleaves, .inl rfl⟩

/-- A task has gone whose connections were given up before. -/
theorem Upright.gone {task : Task} {id : Nat} (h : w.Upright) (htask : w.task? id = some task)
    (hdeal : Deal (holdings task.target task.job.holds) 0 w w') :
    w.Later (w'.dropTask id) ∧ (w'.dropTask id).Upright := by
  obtain ⟨rfl, hmem⟩ := mem_roster htask
  obtain ⟨a, b, hroster, hothers⟩ := h.enrolled.split hmem
  have hhands : handled w.roster = holdings task.target task.job.holds + handled (a ++ b) := by
    rw [hroster, handled_split]
  obtain ⟨hlater, hsound⟩ := h.trade hdeal hhands
  have hafter : (w'.dropTask task.id).roster = a ++ b :=
    roster_drops ((hdeal.roster h.ids).trans hroster) hothers
  have hdrops : w.Later (w'.dropTask task.id) := ⟨hlater.disk, hlater.configs⟩
  refine ⟨hdrops, h.fewer hdrops ?_ ?_ hdeal.nextTask⟩
  · rw [hafter]
    exact hsound.tasks (le_of_eq (zero_add _).symm) _ _
  · rw [hafter, hroster]
    exact (List.sublist_cons_self _ b).append_left a

/-- A task has gone whose connection another task has taken over. -/
theorem Upright.takenOver {task : Task} {id on : Nat} {deadline : Option Nat} (h : w.Upright)
    (htask : w.task? id = some task) (hon : on ∈ task.job.holds) (hdeal : Deal 0 0 w w₁)
    (hdeal' : Deal 0 0 (w₁.addTask task.target (.linger on) deadline).2 w') :
    w.Later (w'.dropTask id) ∧ (w'.dropTask id).Upright := by
  obtain ⟨rfl, hmem⟩ := mem_roster htask
  obtain ⟨a, b, hroster, hothers⟩ := h.enrolled.split hmem
  obtain ⟨hlater₁, hupright₁⟩ := h.deal hdeal
  have hroster₁ := (hdeal.roster h.ids).trans hroster
  have hadded := w₁.roster_addTask task.target (.linger on) deadline
  rw [hroster₁, List.append_assoc, List.cons_append] at hadded
  -- Between the two the connection counts as that of the newcomer.
  have hown : World.Sound (w₁.addTask task.target (.linger on) deadline).2
      (0 + (holdings task.target [on] + handled (a ++ b))) := by
    refine hupright₁.sound.tasks ?_ _ _
    rw [hroster₁, handled_split, zero_add]
    exact add_le_add_left (holdings_le (List.singleton_subperm_iff.mpr hon)) _
  obtain ⟨hsince, hsound⟩ := hdeal'.sound _ hown
  have henrolled := hupright₁.enrolled.concat task.target (.linger on)
  rw [hroster₁, List.append_assoc, List.cons_append] at henrolled
  have hsame : w'.roster = a ++ (task.id, task.target, task.job) ::
      (b ++ [(w₁.nextTask, task.target, .linger on)]) := by
    refine (hdeal'.roster ?_).trans hadded
    have hids := henrolled.ids
    rw [← hadded, roster, List.map_map] at hids
    exact hids
  have hafter : (w'.dropTask task.id).roster =
      a ++ (b ++ [(w₁.nextTask, task.target, .linger on)]) := by
    refine roster_drops hsame ?_
    intro y hy
    rw [← List.append_assoc] at hy
    rcases List.mem_append.mp hy with hold | hnew
    · exact hothers y hold
    · rw [List.mem_singleton.mp hnew, hdeal.nextTask]
      exact (Nat.ne_of_lt (h.enrolled.fresh _ (List.mem_map_of_mem hmem))).symm
  have hlater : w.Later (w'.dropTask task.id) :=
    hlater₁.trans ⟨hsince, hdeal'.configs ▸ List.prefix_refl _⟩
  refine ⟨hlater, ?_, ?_, ?_⟩
  · rw [hafter, ← List.append_assoc, handled_split, List.append_nil]
    exact hsound.tasks (le_of_eq (zero_add _).symm) _ _
  · rw [hafter]
    refine Enrolled.sublist ?_
      ((List.sublist_cons_self (task.id, task.target, task.job) _).append_left a)
    have hnext : w'.nextTask = w₁.nextTask + 1 := hdeal'.nextTask
    exact hnext ▸ henrolled
  · intro x hx c hc
    rw [hafter, ← List.append_assoc] at hx
    rcases List.mem_append.mp hx with hold | hnew
    · have hmem : x ∈ w.roster := by
        rw [hroster]
        exact ((List.sublist_cons_self _ b).append_left a).subset hold
      exact (h.borrowed x hmem c hc).later hlater
    · rw [List.mem_singleton.mp hnew] at hc
      cases hc

theorem abandon_upright {task : Task} {job : Writing} {id : Nat} (h : w.Upright)
    (htask : w.task? id = some task) (hjob : task.job = .write job) :
    w.Later ((w.abandon task job).dropTask id) ∧ ((w.abandon task job).dropTask id).Upright := by
  have hholds : task.job.holds = job.call.connection?.toList ++ job.access.carries := by
    rw [hjob]
    rfl
  rcases w.abandon_cases task job with heq | ⟨w₁, p, hleaves, heq | ⟨on, hphase, heq⟩⟩
  · rw [heq]
    exact dropTask_upright h id
  · rw [heq]
    have hfulfil := fulfil_deal task.target (job.call.abandon p) w₁
    rw [job.call.abandon_frees p] at hfulfil
    refine h.gone htask ((hleaves.aside _).trans (hfulfil.weaken (holdings_le ?_) (le_refl _)))
    rw [hholds]
    exact (List.sublist_append_left _ _).subperm
  · rw [heq]
    have hon : on ∈ task.job.holds := by
      rw [hholds, Write.Call.connection?, hphase]
      exact List.mem_cons_self
    have hfulfil := fulfil_deal task.target
      ((job.call.abandon p).filter fun e => e != .release on)
      (w₁.addTask task.target (.linger on) task.deadline).2
    rw [abandon_frees_beginning hphase p] at hfulfil
    exact h.takenOver htask hon hleaves hfulfil

end World

end SingleWriter.Session
