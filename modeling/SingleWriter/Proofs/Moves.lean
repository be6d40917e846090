import Mathlib.Logic.Relation
import SingleWriter.Proofs.Worlds

/-! The runs of a world.  Tasks are looked at in any order, and between two looks anything may
happen that a session can bring about.  `World.Move.upright` says that one move of such a run keeps
every connection in one place and in its tuning; `World.Reached.upright` says it for whole runs. -/

namespace SingleWriter.Session

open Engine

namespace World

variable {w w' : World}

/-! ### Targets -/

theorem resting_addTarget (w : World) {t : Target} (hpool : t.database.pool = none) :
    (w.addTarget t).2.resting = w.resting := by
  have hlength : (w.addTarget t).2.targets.length = w.targets.length + 1 := by
    rw [addTarget, List.length_append, List.length_singleton]
  have hnew : (w.addTarget t).2.idle w.targets.length = [] := by
    have ht : (w.addTarget t).2.target? w.targets.length = some t := List.getElem?_concat_length
    rw [idle_of_target ht, Target.idle, hpool]
    rfl
  have hold (i : Nat) (hi : i < w.targets.length) : (w.addTarget t).2.idle i = w.idle i := by
    rw [idle, idle, target?, addTarget, List.getElem?_append_left hi]
    rfl
  rw [resting, resting, hlength, Finset.sum_range_succ, hnew]
  refine (add_zero _).trans (Finset.sum_congr rfl fun i hi => ?_)
  rw [hold i (Finset.mem_range.mp hi)]

theorem addTarget_upright (h : w.Upright) {t : Target} (hpool : t.database.pool = none) :
    w.Later (w.addTarget t).2 ∧ (w.addTarget t).2.Upright := by
  have hconfigs : (w.addTarget t).2.configs = w.configs ++ [t.database.config] := by
    rw [configs, addTarget, List.map_append]
    rfl
  have hlater : w.Later (w.addTarget t).2 := ⟨.refl _, hconfigs ▸ List.prefix_append _ _⟩
  have hlent : (w.addTarget t).2.lent (handled w.roster) = w.lent (handled w.roster) := by
    rw [lent, resting_addTarget w hpool]
    rfl
  refine ⟨hlater, ⟨h.sound.numbered, ?_, ?_, h.sound.blocking⟩, h.enrolled, ?_⟩
  · intro x hx
    obtain ⟨config, hi, htuning⟩ := h.sound.tuned x (hlent ▸ hx)
    exact ⟨config, hlater.config hi, htuning⟩
  · show ((w.addTarget t).2.lent (handled w.roster)).map Prod.snd + w.blocking |>.Nodup
    rw [hlent]
    exact h.sound.apart
  · intro x hx c hc
    exact (h.borrowed x hx c hc).later hlater

theorem foldl_deal {f : World → Nat → World} (hf : ∀ v i, Deal 0 0 v (f v i)) (l : List Nat)
    (w : World) : Deal 0 0 w (l.foldl f w) := by
  induction l generalizing w with
  | nil => exact Deal.refl 0 w
  | cons i l ih => exact (hf w i).trans (ih _)

theorem reap_deal (w : World) : Deal 0 0 w w.reap := by
  unfold reap
  refine foldl_deal ?_ _ w
  intro v i
  split
  · split
    · exact v.closePool_deal i
    · exact Deal.refl 0 v
  · exact Deal.refl 0 v

/-! ### Moves -/

/-- One move of a run: a look at a task, or something that is done from outside. -/
inductive Move (w : World) : World → Prop where
  | look (id : Nat) : Move w (w.pollTask id).2
  | reap : Move w w.reap
  /-- The clock, gates, streams, records and names of tasks. -/
  | aside {w' : World} : w'.disk = w.disk → w'.targets = w.targets → w'.tasks = w.tasks →
      w'.nextTask = w.nextTask → w'.guards = w.guards → w'.blockers = w.blockers → Move w w'
  /-- Files and directories change under the connections. -/
  | files {d : Disk} : d.connections = w.disk.connections →
      d.nextConnection = w.disk.nextConnection → Move w { w with disk := d }
  | target {t : Target} : t.database.pool = none → Move w (w.addTarget t).2
  | adjust (i : Nat) {f : Target → Target} : (∀ t, (f t).database = t.database) →
      Move w (w.modifyTarget i f)
  /-- A task begins with nothing in its hands. -/
  | task {i : Nat} {job : Job} (deadline : Option Nat) : job.holds = [] →
      (∀ c ∈ job.borrows, w.Has i c) → Move w (w.addTask i job deadline).2
  | drop (id : Nat) : Move w (w.dropTask id)
  /-- A task has ended with a connection, which is kept under a name. -/
  | keep {id on : Nat} {task : Task} (name : String) : w.task? id = some task →
      task.job = .finished (.number on) → Move w ((w.dropTask id).keep name task.target on)
  | letGo (name : String) (close : Bool) : Move w (w.letGo name close).2
  | cancel {id : Nat} {task : Task} {job : Writing} : w.task? id = some task →
      task.job = .write job →
      Move w (w.putTask { task with job := .write { job with cancelled := true } })
  | abandon {id : Nat} {task : Task} {job : Writing} : w.task? id = some task →
      task.job = .write job → Move w ((w.abandon task job).dropTask id)
  | block (name : String) (how : Hold) : Move w (w.block name how).2
  | unblock (name : String) : Move w (w.unblock name).2
  | outsideInsert (key value : String) : Move w (w.outsideInsert key value).2
  | rows : Move w w.rows.2

theorem Move.upright (hmove : w.Move w') (h : w.Upright) : w.Later w' ∧ w'.Upright := by
  cases hmove with
  | look id => exact pollTask_upright h id
  | reap => exact h.deal w.reap_deal
  | aside hdisk htargets htasks hnext hguards hblockers =>
    refine h.deal (Deal.of_same hdisk htargets hguards hblockers hnext fun _ => ?_)
    rw [roster, roster, htasks]
  | files hconnections hnext =>
    exact h.deal (Deal.of_tuning hnext (Disk.tuning?_congr hconnections))
  | target hpool => exact addTarget_upright h hpool
  | adjust i hf =>
    exact h.deal (Deal.modify_same w i _ (fun t => by rw [hf t]) fun t => by rw [hf t])
  | task deadline hholds hborrows =>
    exact addTask_upright h deadline hholds fun c hc =>
      h.sound.fits (hborrows c hc).allotted
  | drop id => exact dropTask_upright h id
  | keep name htask hjob => exact kept_upright h htask hjob name
  | letGo name close => exact h.deal (w.letGo_deal name close)
  | cancel htask hjob => exact cancel_upright h htask hjob
  | abandon htask hjob => exact abandon_upright h htask hjob
  | block name how => exact h.deal (w.block_deal name how)
  | unblock name => exact h.deal (w.unblock_deal name)
  | outsideInsert key value => exact h.deal (w.outsideInsert_deal key value)
  | rows => exact h.deal w.rows_deal

/-! ### Runs -/

/-- Any number of moves. -/
abbrev Moves : World → World → Prop := Relation.ReflTransGen Move

theorem Moves.upright (hmoves : w.Moves w') (h : w.Upright) : w.Later w' ∧ w'.Upright := by
  induction hmoves with
  | refl => exact ⟨.refl w, h⟩
  | tail _ hmove ih =>
    obtain ⟨hlater, hupright⟩ := ih
    obtain ⟨hnext, hlast⟩ := hmove.upright hupright
    exact ⟨hlater.trans hnext, hlast⟩

/-- A world that a run leads to from where nothing has been opened. -/
def Reached (w : World) : Prop := ∃ w₀ : World, w₀.Initial ∧ w₀.Moves w

theorem Reached.upright (h : w.Reached) : w.Upright := by
  obtain ⟨w₀, hinitial, hmoves⟩ := h
  exact (hmoves.upright hinitial.upright).2

theorem Reached.moves (h : w.Reached) (hmoves : w.Moves w') : w'.Reached := by
  obtain ⟨w₀, hinitial, hfirst⟩ := h
  exact ⟨w₀, hinitial, hfirst.trans hmoves⟩

end World

end SingleWriter.Session
