import SingleWriter.Proofs.Working
import SingleWriter.Session.Task

/-! Looks at tasks.  Each job has connections in its hands, `Job.holds`; `World.pollJob_deal` says
that one look at a task trades those that its job had before for those that it has afterwards. -/

namespace SingleWriter

/-! ### What a job holds -/

/-- The connections that the call of a shutdown holds. -/
def Shutdown.holds (s : Shutdown) : List Nat :=
  match s.phase with
  | .closing c => c.carries
  | .removing c => c.carries
  | _ => []

/-- The connections that the checkpoint under way holds. -/
def Checkpointer.holds (c : Checkpointer) : List Nat :=
  match c.phase with
  | .checkpointing call => call.carries
  | _ => []

theorem Shutdown.enter_holds (s : Shutdown) (store : Store) :
    (s.enter store).1.holds = [] := by
  unfold enter
  split <;> rfl

theorem Shutdown.advance_holds (s : Shutdown) (c : Database.Call) :
    (s.advance c).holds.Subperm c.carries := by
  obtain ⟨remove, phase⟩ := s
  cases phase with
  | closing call | removing call =>
    cases hr : c.result? with
    | none =>
      simp only [advance, hr]
      exact List.Subperm.refl _
    | some r =>
      cases r with
      | error e =>
        simp only [advance, hr]
        exact List.nil_subperm
      | ok product =>
        simp only [advance, hr]
        cases remove <;> exact List.nil_subperm
  | entering | joining task | finished result =>
    cases hr : c.result? with
    | none =>
      simp only [advance, hr]
      exact List.nil_subperm
    | some r =>
      cases r <;>
      · simp only [advance, hr]
        exact List.nil_subperm

theorem Checkpointer.advance_holds (c : Checkpointer) (call : Database.Call) :
    (c.advance call).holds.Subperm call.carries := by
  unfold advance
  split
  · exact List.Subperm.refl _
  · exact List.nil_subperm

theorem Checkpointer.wake_holds {c c' : Checkpointer} {now : Nat} {stopping : Bool}
    (h : c.wake now stopping = some c') : c'.holds = [] := by
  unfold wake at h
  split at h
  · split at h
    · cases h
      rfl
    · split at h
      · cases h
        rfl
      · cases h
  · cases h

namespace Session

open Engine

/-- The connections that a job has in its hands.  Actions on a connection that is kept under a name
only borrow it. -/
def Job.holds : Job → List Nat
  | .write job => job.holds
  | .database c => c.carries
  | .setup c => c.carries
  | .creating on => [on]
  | .shutdown s => s.holds
  | .checkpoints c => c.holds
  | .linger on => [on]
  | .finished (.number on) => [on]
  | _ => []

/-- The connection that a job uses while it is kept under a name. -/
def Job.borrows : Job → List Nat
  | .guard on _ _ _ => [on]
  | _ => []

namespace World

variable {w w' : World} {i c id on : Nat} {r : Option Job} {t : Target}

/-! ### Looks at a task -/

theorem shutdownJob_holds (s : Shutdown) : (shutdownJob s).holds.Subperm s.holds := by
  unfold shutdownJob
  split
  · exact List.Subperm.refl _
  · exact List.nil_subperm
  · exact List.nil_subperm

theorem pollShutdown_deal {s : Shutdown} (h : w.pollShutdown id t i s = (r, w')) :
    Deal (holdings i s.holds) (holdings i (r.getD (.shutdown s)).holds) w w' := by
  have waits {c : Database.Call} {u : World} (hs : s.holds = c.carries)
      (hpoll : w.pollCall id i c = (none, u)) :
      Deal (holdings i s.holds) (holdings i s.holds) w u := by
    rw [hs]
    exact pollCall_deal hpoll
  have goes {c c' : Database.Call} {u : World} (hs : s.holds = c.carries)
      (hpoll : w.pollCall id i c = (some c', u)) :
      Deal (holdings i s.holds) (holdings i (shutdownJob (s.advance c')).holds) w u := by
    rw [hs]
    exact (pollCall_deal hpoll).weaken (le_refl _)
      (holdings_le ((shutdownJob_holds _).trans (s.advance_holds c')))
  unfold pollShutdown at h
  dsimp only at h
  split at h
  · split at h
    · cases h
      exact Deal.of_le zero_le w
    · rename_i store _
      cases h
      have hstopped := Deal.modify_same w i
        (fun t => { t with store := some (s.enter store).2 }) (fun _ => rfl) fun _ => rfl
      have hnone : (s.enter store).1.holds.Subperm [] := by rw [s.enter_holds store]
      exact hstopped.weaken zero_le (holdings_le hnone)
  · split at h
    · cases h
      exact Deal.of_le zero_le w
    · cases h
      exact Deal.refl _ w
  · rename_i c hphase
    split at h <;> rename_i hpoll <;> cases h
    · exact waits (by rw [Shutdown.holds, hphase]) hpoll
    · exact goes (by rw [Shutdown.holds, hphase]) hpoll
  · rename_i c hphase
    split at h <;> rename_i hpoll <;> cases h
    · exact waits (by rw [Shutdown.holds, hphase]) hpoll
    · exact goes (by rw [Shutdown.holds, hphase]) hpoll
  · cases h
    exact Deal.refl _ w

theorem keepCheckpoints_deal {c : Checkpointer} {j : Job} (h : w.keepCheckpoints id c = (r, w')) :
    Deal (holdings i c.holds) (holdings i (r.getD j).holds) w w' := by
  unfold keepCheckpoints at h
  split at h
  · cases h
    exact (clearDeadline_deal w id).weaken zero_le (le_refl _)
  · cases h
    exact Deal.refl _ w
  · cases h
    exact (setDeadline_deal w id _).aside _

theorem pollCheckpoints_deal {c : Checkpointer} (h : w.pollCheckpoints id t i c = (r, w')) :
    Deal (holdings i c.holds) (holdings i (r.getD (.checkpoints c)).holds) w w' := by
  unfold pollCheckpoints at h
  split at h
  · rename_i call hphase
    have hholds : c.holds = call.carries := by rw [Checkpointer.holds, hphase]
    split at h
    · rename_i u hpoll
      cases h
      show Deal (holdings i c.holds) (holdings i c.holds) w w'
      rw [hholds]
      exact pollCall_deal hpoll
    · rename_i call' u hpoll
      rw [hholds]
      exact ((pollCall_deal hpoll).weaken (le_refl _)
        (holdings_le (c.advance_holds call'))).trans (keepCheckpoints_deal h)
  · split at h
    · rename_i c' hwake
      have hkept := keepCheckpoints_deal (i := i) (j := .checkpoints c) h
      rw [Checkpointer.wake_holds hwake] at hkept
      exact (((clearDeadline_deal w id).trans hkept)).weaken zero_le (le_refl _)
    · cases h
      exact Deal.refl _ w

theorem pollGuard_deal {left : List Action} {atGate : Bool} {done : List Answer}
    (h : w.pollGuard id on left atGate done = (r, w')) :
    Deal 0 (holdings i (r.getD (.guard on left atGate done)).holds) w w' := by
  unfold pollGuard at h
  split at h
  · cases h
    exact Deal.refl 0 w
  · split at h
    · rename_i hperform
      cases h
      split <;> exact perform_deal hperform
    · rename_i hperform
      cases h
      exact perform_deal hperform
    · rename_i hperform
      cases h
      exact perform_deal hperform
    · rename_i hperform
      cases h
      exact perform_deal hperform

/-- A look at the clock, a gate or another task. -/
theorem pollClock_deal {task : Task} (ht : w.task? task.id = some task) {job : Job}
    (h : w.pollClock task job = (r, w')) :
    Deal (holdings i job.holds) (holdings i (r.getD job).holds) w w' := by
  have hclear := clearDeadline_deal w task.id
  cases job with
  | sleep time =>
    simp only [pollClock] at h
    split at h
    · cases h
      exact hclear
    · cases h
      exact Deal.refl _ w
  | watch time next =>
    simp only [pollClock] at h
    split at h
    · split at h
      · cases h
        exact hclear
      · split at h
        · cases h
          exact hclear
        · cases h
          exact putTask_deal ht _
    · cases h
      exact Deal.refl _ w
  | join other time =>
    simp only [pollClock] at h
    split at h
    · cases h
      exact hclear
    · split at h
      · split at h
        · cases h
          exact hclear
        · cases h
          exact Deal.refl _ w
      · cases h
        exact Deal.refl _ w
  | reach name =>
    simp only [pollClock] at h
    split at h
    · rename_i u hreach
      cases h
      unfold reach? at hreach
      dsimp only at hreach
      split at hreach
      · cases hreach
      · cases hreach
        exact w.setGate_deal name _
    · cases h
      exact Deal.refl _ w
  | _ =>
    cases h
    exact Deal.refl _ w

/-- A call that has ended with anything but a connection leaves its task with nothing. -/
theorem answered_holds (store : Bool) (r : Except ConnectionError Database.Product)
    (cs : List Nat) : (Job.finished (answerOf store r)).holds.Subperm cs := by
  have hnone : (Job.finished (answerOf store r)).holds = [] := by
    unfold answerOf
    split
    · rfl
    · rfl
    · cases store <;> rfl
  rw [hnone]
  exact List.nil_subperm

theorem pollCall_ends {c c' : Database.Call} (h : w.pollCall id i c = (some c', w')) (store : Bool)
    (r : Except ConnectionError Database.Product) :
    Deal (holdings i c.carries) (holdings i (Job.finished (answerOf store r)).holds) w w' :=
  (pollCall_deal h).weaken (le_refl _) (holdings_le (answered_holds ..))

/-- The connection that a call has ended with goes to its task. -/
theorem pollCall_hands {c c' : Database.Call} {on : Nat} (h : w.pollCall id i c = (some c', w'))
    (hresult : c'.result? = some (.ok (.connection on))) :
    Deal (holdings i c.carries) (holdings i [on]) w w' := by
  have hdeal := pollCall_deal h
  rwa [Option.getD_some, Database.Call.carries_of_result hresult] at hdeal

/-- A look at a job that works on a target. -/
theorem pollWork_deal {job : Job} (h : w.pollWork id i t job = (r, w')) :
    Deal (holdings i job.holds) (holdings i (r.getD job).holds) w w' := by
  cases job with
  | write job =>
    simp only [pollWork] at h
    cases hpoll : w.pollWrite id t i job with
    | mk moved rest =>
      obtain ⟨job', u⟩ := rest
      rw [hpoll] at h
      have hdeal := pollWrite_deal hpoll
      dsimp only at h
      split at h
      · cases h
        exact hdeal
      · rename_i hmoved
        cases h
        rw [Bool.or_eq_true, not_or, Bool.not_eq_true] at hmoved
        rw [hmoved.1] at hpoll
        rw [pollWrite_stays hpoll] at hdeal
        exact hdeal
  | database c =>
    simp only [pollWork] at h
    split at h
    · rename_i u hpoll
      cases h
      exact pollCall_deal hpoll
    · rename_i c' u hpoll
      split at h
      · cases h
        exact pollCall_deal hpoll
      · cases h
        exact pollCall_ends hpoll ..
      · rename_i on hresult _
        cases h
        exact pollCall_hands hpoll hresult
      · cases h
        exact pollCall_ends hpoll ..
  | setup c =>
    simp only [pollWork] at h
    split at h
    · rename_i u hpoll
      cases h
      exact pollCall_deal hpoll
    · rename_i c' u hpoll
      split at h
      · cases h
        exact pollCall_deal hpoll
      · rename_i on hresult
        cases h
        exact pollCall_hands hpoll hresult
      · cases h
        exact pollCall_ends hpoll ..
  | creating on =>
    simp only [pollWork] at h
    split at h
    · rename_i u hrun
      cases h
      exact (execute_deal hrun).aside _
    · rename_i r' u hrun
      cases h
      exact ((execute_deal hrun).aside _).trans (u.release_deal i on)
    · rename_i e u hrun
      cases h
      exact ((execute_deal hrun).aside _).trans (u.release_deal i on)
  | guard on left atGate done => exact pollGuard_deal h
  | shutdown s => exact pollShutdown_deal h
  | checkpoints c => exact pollCheckpoints_deal h
  | linger on =>
    simp only [pollWork] at h
    split at h
    · rename_i u hrun
      cases h
      exact (execute_deal hrun).aside _
    · rename_i r' u hrun
      cases h
      exact ((execute_deal hrun).aside _).trans (u.release_deal i on)
  | _ =>
    cases h
    exact Deal.refl _ w

/-- A look at a task trades what its job held for what it holds afterwards. -/
theorem pollJob_deal {task : Task} (ht : w.task? task.id = some task)
    (h : w.pollJob task = (r, w')) :
    Deal (holdings task.target task.job.holds) (holdings task.target (r.getD task.job).holds) w
      w' := by
  unfold pollJob at h
  split at h
  · rename_i hclock
    cases h
    exact pollClock_deal ht hclock
  · rename_i u hclock
    have hwaited := pollClock_deal (i := task.target) ht hclock
    split at h
    · exact hwaited.trans (pollWork_deal h)
    · cases h
      exact hwaited

/-! ### Borrowed connections -/

theorem shutdownJob_borrows (s : Shutdown) : (shutdownJob s).borrows = [] := by
  unfold shutdownJob
  split <;> rfl

theorem pollShutdown_borrows {s : Shutdown} {job : Job}
    (h : w.pollShutdown id t i s = (some job, w')) : job.borrows = [] := by
  unfold pollShutdown at h
  dsimp only at h
  split at h
  · split at h <;> cases h <;> rfl
  · split at h <;> cases h
    rfl
  · split at h <;> cases h
    exact shutdownJob_borrows _
  · split at h <;> cases h
    exact shutdownJob_borrows _
  · cases h

theorem keepCheckpoints_borrows {c : Checkpointer} {job : Job}
    (h : w.keepCheckpoints id c = (some job, w')) : job.borrows = [] := by
  unfold keepCheckpoints at h
  split at h <;> cases h <;> rfl

theorem pollCheckpoints_borrows {c : Checkpointer} {job : Job}
    (h : w.pollCheckpoints id t i c = (some job, w')) : job.borrows = [] := by
  unfold pollCheckpoints at h
  split at h
  · split at h
    · cases h
    · exact keepCheckpoints_borrows h
  · split at h
    · exact keepCheckpoints_borrows h
    · cases h

theorem pollGuard_borrows {left : List Action} {atGate : Bool} {done : List Answer} {job : Job}
    (h : w.pollGuard id on left atGate done = (some job, w')) : job.borrows ⊆ [on] := by
  unfold pollGuard at h
  split at h
  · cases h
    exact List.nil_subset _
  · split at h
    · split at h <;> cases h
      exact List.Subset.refl _
    all_goals
      cases h
      exact List.Subset.refl _

theorem pollClock_borrows {task : Task} {old job : Job}
    (h : w.pollClock task old = (some job, w')) : job.borrows = [] := by
  unfold pollClock at h
  split at h
  · split at h <;> cases h
    rfl
  · split at h
    · split at h
      · cases h
        rfl
      · split at h <;> cases h <;> rfl
    · cases h
  · split at h
    · cases h
      rfl
    · split at h
      · split at h <;> cases h
        rfl
      · cases h
  · split at h <;> cases h
    rfl
  · cases h

/-- A look at a task never makes it borrow another connection. -/
theorem pollJob_borrows {task : Task} {job : Job} (h : w.pollJob task = (some job, w')) :
    job.borrows ⊆ task.job.borrows := by
  have of_nil (hnil : job.borrows = []) : job.borrows ⊆ task.job.borrows :=
    hnil ▸ List.nil_subset _
  unfold pollJob at h
  split at h
  · rename_i hclock
    cases h
    exact of_nil (pollClock_borrows hclock)
  · split at h
    · rename_i u hclock t _
      clear hclock
      unfold pollWork at h
      split at h
      · dsimp only at h
        split at h <;> cases h
        exact of_nil rfl
      · split at h
        · cases h
        · split at h <;> cases h <;> exact of_nil rfl
      · split at h
        · cases h
        · split at h <;> cases h <;> exact of_nil rfl
      · split at h <;> cases h <;> exact of_nil rfl
      · rename_i hjob
        rw [hjob]
        exact pollGuard_borrows h
      · exact of_nil (pollShutdown_borrows h)
      · exact of_nil (pollCheckpoints_borrows h)
      · split at h <;> cases h
        exact of_nil rfl
      · cases h
    · cases h

end World

end Session

end SingleWriter
