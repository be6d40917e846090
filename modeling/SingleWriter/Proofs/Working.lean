import SingleWriter.Proofs.Connections
import SingleWriter.Proofs.Waiting
import SingleWriter.Session.Writing

/-! What becomes of connections while writes work, and while others beside the pool open connections
of their own.  `World.pollWrite_deal` says that one look at a write trades the connection that it
held before for the one that it holds afterwards. -/

namespace SingleWriter

/-! ### Answers to a write -/

namespace Write

variable {α : Type}

/-- The connection that an answer hands over. -/
def Answer.hands : Answer α → List ConnectionId
  | .acquired on => [on]
  | _ => []

/-- A write gives back what it has got or had, or has it afterwards. -/
theorem Call.resume_connections (c : Call α) (p : RetryPolicy) (m : Moment) (a : Answer α) :
    ((c.resume p m a).2.filterMap Effect.frees? ++
      (c.resume p m a).1.connection?.toList).Subperm (c.connection?.toList ++ a.hands) := by
  have hnothing (a : Answer α) :
      ([] : List ConnectionId).Subperm (c.connection?.toList ++ a.hands) := List.nil_subperm
  have hheld {on : ConnectionId} (a : Answer α) (hon : c.connection? = some on) :
      [on].Subperm (c.connection?.toList ++ a.hands) := by
    rw [hon]
    exact (List.sublist_append_left _ _).subperm
  have hconclude (a : Answer α) (first : List Effect) (o : Except WriteError α)
      (h : (first.filterMap Effect.frees?).Subperm (c.connection?.toList ++ a.hands)) :
      ((Call.conclude p first (c.settle p m o)).2.filterMap Effect.frees? ++
        (Call.conclude p first (c.settle p m o)).1.connection?.toList).Subperm
          (c.connection?.toList ++ a.hands) := by
    rw [frees_conclude, conclude, settle_connection]
    exact (List.append_nil _).symm ▸ h
  unfold resume
  split <;> rename_i hphase
  · exact hnothing .cancelled
  · split <;> exact hnothing .proceed
  · exact hnothing .cancelled
  · exact hnothing .proceed
  · exact (List.sublist_append_right _ _).subperm
  · exact hconclude (.refused _) [] (.error _) (hnothing _)
  · exact hheld .proceed (by rw [connection?, hphase])
  · exact hconclude (.failed _) [.release _] (.error _) (hheld _ (by rw [connection?, hphase]))
  · exact hheld (.value _) (by rw [connection?, hphase])
  · exact hheld (.failed _) (by rw [connection?, hphase])
  · exact hconclude .proceed [.release _] (.ok _) (hheld _ (by rw [connection?, hphase]))
  · exact hheld (.failed _) (by rw [connection?, hphase])
  · exact hconclude .proceed [.release _] (.error _) (hheld _ (by rw [connection?, hphase]))
  · exact hconclude (.failed _) [.discard _] (.error _) (hheld _ (by rw [connection?, hphase]))
  · exact hnothing .cancelled
  · exact hnothing .proceed
  · exact (List.sublist_append_left _ _).subperm

theorem Call.abandon_frees (c : Call α) (p : RetryPolicy) :
    (c.abandon p).filterMap Effect.frees? = c.connection?.toList := by
  have hunlocking : (Call.unlocking p).filterMap Effect.frees? = [] :=
    frees_eq_nil (unlocking_frees p)
  unfold abandon connection?
  cases c.phase <;> simp [Effect.frees?, hunlocking]

end Write

theorem Database.Call.carries_of_result {c : Call} {on : Nat}
    (h : c.result? = some (.ok (.connection on))) : c.carries = [on] := by
  unfold result? at h
  unfold carries
  split at h
  · cases h
    rename_i hphase
    rw [hphase]
  · cases h

namespace Session

open Engine

/-- The connections that a write holds. -/
def Writing.holds (job : Writing) : List Nat := job.call.connection?.toList ++ job.access.carries

namespace World

variable {w w' : World} {i c id on : Nat} {config : DatabaseConfig}

/-! ### Connections from outside -/

theorem runAll_tuning (d : Disk) (on : Nat) (ss : List Statement) :
    (runAll d on ss).2.nextConnection = d.nextConnection ∧
      (runAll d on ss).2.tuning? = d.tuning? := by
  induction ss generalizing d with
  | nil => exact ⟨rfl, rfl⟩
  | cons s ss ih =>
    obtain ⟨hnext, htuning⟩ := d.execute_tuning on false s
    unfold runAll
    cases hrun : d.execute on false s with
    | mk outcome e =>
      rw [hrun] at hnext htuning
      cases outcome with
      | reply r =>
        dsimp only
        split
        · exact ⟨hnext, htuning⟩
        · exact ⟨(ih e).1.trans hnext, (ih e).2.trans htuning⟩
      | failed x => exact ⟨hnext, htuning⟩
      | busy => exact ⟨hnext, htuning⟩

/-- A connection is opened from outside and runs some statements. -/
theorem visit_deal {d : Disk} (h : w.disk.openPlain = .ok (on, d)) (name : String)
    (ss : List Statement) :
    Deal 0 0 w { w with disk := (runAll d on ss).2, blockers := (name, on) :: w.blockers } :=
  (Deal.visits h name).trans
    (Deal.of_tuning (w := { w with disk := d, blockers := (name, on) :: w.blockers })
      (runAll_tuning d on ss).1 (runAll_tuning d on ss).2)

/-- A connection is opened from outside, runs some statements, and is closed again. -/
theorem visitor_deal {d : Disk} (h : w.disk.openPlain = .ok (on, d)) (ss : List Statement) :
    Deal 0 0 w { w with disk := (runAll d on ss).2.close on } :=
  (visit_deal h "" ss).trans (Deal.leaves (le_refl _))

theorem outside_deal (w : World) (ss : List Statement) : Deal 0 0 w (w.outside ss).2 := by
  unfold outside
  split
  · exact Deal.refl 0 w
  · rename_i on d hopen
    exact visitor_deal hopen ss

theorem blocking_unassign {name : String} (h : w.blockers.lookup name = some on) :
    on ::ₘ ((unassign w.blockers name).map (·.2) : List Nat) ≤ w.blocking :=
  Multiset.map_le_map (f := Prod.snd) (Multiset.coe_le.mpr (subperm_of_lookup h))

theorem unassign_le (w : World) (name : String) :
    (((unassign w.blockers name).map (·.2) : List Nat) : Multiset Nat) ≤ w.blocking :=
  Multiset.coe_le.mpr (List.filter_sublist.map _).subperm

theorem block_deal (w : World) (name : String) (how : Hold) : Deal 0 0 w (w.block name how).2 := by
  unfold block
  split
  · exact Deal.refl 0 w
  · rename_i on d hopen
    split
    · rename_i e d' hrun
      have hvisitor := visitor_deal hopen (holding how)
      rwa [hrun] at hvisitor
    · rename_i r d' hrun
      have hvisit := visit_deal hopen name (holding how)
      rw [hrun] at hvisit
      dsimp only
      split
      · rename_i old hold
        refine hvisit.trans (Deal.leaves ?_)
        show old ::ₘ on ::ₘ (((unassign w.blockers name).map (·.2) : List Nat) : Multiset Nat) ≤
          on ::ₘ w.blocking
        rw [Multiset.cons_swap]
        exact Multiset.cons_le_cons on (blocking_unassign hold)
      · refine hvisit.trans (Deal.forgets ?_)
        exact Multiset.cons_le_cons on (unassign_le w name)

theorem unblock_deal (w : World) (name : String) : Deal 0 0 w (w.unblock name).2 := by
  unfold unblock
  split
  · rename_i on hold
    exact Deal.leaves (blocking_unassign hold)
  · exact Deal.refl 0 w

theorem outsideInsert_deal (w : World) (key value : String) :
    Deal 0 0 w (w.outsideInsert key value).2 := by
  have hdeal := w.outside_deal [.change (.insert key (some value))]
  unfold outsideInsert
  split <;> rename_i hout <;> rwa [hout] at hdeal

theorem rows_deal (w : World) : Deal 0 0 w w.rows.2 := by
  have hdeal := w.outside_deal [.survey]
  unfold rows
  split
  · exact Deal.refl 0 w
  · split <;> rename_i hout <;> rwa [hout] at hdeal

/-! ### Actions -/

theorem setGate_deal (w : World) (name : String) (g : Gate) : Deal 0 0 w (w.setGate name g) :=
  Deal.of_same rfl rfl rfl rfl rfl fun _ => rfl

theorem pass?_deal {name : String} (h : w.pass? name = some w') : Deal 0 0 w w' := by
  unfold pass? at h
  dsimp only at h
  split at h
  · cases h
  · cases h
    exact w.setGate_deal name _

theorem performStatement_deal {s : Statement} {r : Performed}
    (h : w.performStatement id on s = (r, w')) : Deal 0 0 w w' := by
  unfold performStatement at h
  split at h <;> rename_i hrun <;> cases h <;> exact execute_deal hrun

theorem perform_deal {attempt : Nat} {atGate : Bool} {a : Action} {r : Performed}
    (h : w.perform id on attempt atGate a = (r, w')) : Deal 0 0 w w' := by
  cases a with
  | statement s => exact performStatement_deal h
  | insertAttempt => exact performStatement_deal h
  | attempt =>
    cases h
    exact Deal.refl 0 w
  | value v =>
    cases h
    exact Deal.refl 0 w
  | fail e =>
    cases h
    exact Deal.refl 0 w
  | cancel =>
    cases h
    exact Deal.refl 0 w
  | block name how =>
    cases h
    exact w.block_deal name how
  | unblock name =>
    cases h
    exact w.unblock_deal name
  | outsideInsert key value =>
    cases h
    exact w.outsideInsert_deal key value
  | wait name =>
    simp only [perform] at h
    have harrived : Deal 0 0 w (if atGate then w else w.arrive name) := by
      split
      · exact Deal.refl 0 w
      · exact w.setGate_deal name _
    split at h
    · rename_i u hpass
      cases h
      exact harrived.trans (pass?_deal hpass)
    · cases h
      exact harrived

/-! ### Writes -/

theorem modifyLock_deal (w : World) (i : Nat) (f : Write.Lock → Write.Lock) :
    Deal 0 0 w (w.modifyLock i f) :=
  Deal.modify_same w i (fun t => { t with lock := f t.lock }) (fun _ => rfl) fun _ => rfl

theorem emit_deal (w : World) (i : Nat) (e : Event) : Deal 0 0 w (w.emit i e) := by
  unfold emit
  split
  · exact Deal.of_same rfl rfl rfl rfl rfl fun _ => rfl
  · exact Deal.refl 0 w

theorem fulfil_deal (i : Nat) (es : List Write.Effect) (w : World) :
    Deal (holdings i (es.filterMap Write.Effect.frees?)) 0 w (w.fulfil i es) := by
  induction es generalizing w with
  | nil => exact Deal.refl 0 w
  | cons e es ih =>
    cases e with
    | release c =>
      have hfirst := (w.release_deal i c).lose (holdings i (es.filterMap Write.Effect.frees?))
      rw [← holdings_append] at hfirst
      exact hfirst.trans (ih _)
    | discard c =>
      have hfirst := (w.discard_deal i c).lose (holdings i (es.filterMap Write.Effect.frees?))
      rw [← holdings_append] at hfirst
      exact hfirst.trans (ih _)
    | unlock => exact ((w.modifyLock_deal i (·.free)).aside _).trans (ih _)
    | emit e => exact ((w.emit_deal i e).aside _).trans (ih _)

/-- A write goes on with what it was told. -/
theorem answerWrite_deal (w : World) (t : Target) (i : Nat) (job : Writing)
    (a : Write.Answer (List Answer)) :
    Deal (holdings i (a.hands ++ job.holds)) (holdings i (w.answerWrite t i job a).1.holds) w
      (w.answerWrite t i job a).2 := by
  have hresume := job.call.resume_connections t.policy
    { elapsed := .ofNanos (w.now - job.started) } a
  unfold answerWrite
  dsimp only
  generalize job.call.resume t.policy { elapsed := .ofNanos (w.now - job.started) } a = next
    at hresume ⊢
  have hle : ((next.2.filterMap Write.Effect.frees? ++ next.1.connection?.toList) ++
      job.access.carries).Subperm (a.hands ++ job.holds) := by
    refine ((List.subperm_append_right _).mpr hresume).trans ?_
    rw [Writing.holds, ← List.append_assoc]
    exact ((List.perm_append_right_iff _).mpr List.perm_append_comm).subperm
  have hfulfil := (fulfil_deal i next.2 w).lose (holdings i (next.1.connection?.toList ++
    job.access.carries))
  rw [← holdings_append, ← List.append_assoc] at hfulfil
  exact (Deal.of_le (holdings_le hle) w).trans hfulfil

theorem pollOperation_deal {t : Target} {job job' : Writing} {moved : Bool}
    (h : w.pollOperation id t i on job = (moved, job', w')) :
    Deal (holdings i job.holds) (holdings i job'.holds) w w' := by
  unfold pollOperation at h
  split at h
  · cases h
    exact w.answerWrite_deal t i job (.value _)
  · split at h
    · rename_i hperform
      cases h
      exact (perform_deal hperform).aside _
    · rename_i hperform
      cases h
      exact (perform_deal hperform).aside _
    · rename_i hperform
      cases h
      exact (perform_deal hperform).aside _
    · rename_i e u hperform
      cases h
      exact ((perform_deal hperform).aside _).trans (u.answerWrite_deal t i
        { note job (.error e) with left := [], atGate := false } (.failed e))

theorem pollStatement_deal {t : Target} {job job' : Writing} {s : Statement} {moved : Bool}
    (h : w.pollStatement id t i on job s = (moved, job', w')) :
    Deal (holdings i job.holds) (holdings i job'.holds) w w' := by
  unfold pollStatement at h
  split at h
  · rename_i hrun
    cases h
    exact (execute_deal hrun).aside _
  · rename_i r u hrun
    cases h
    exact ((execute_deal hrun).aside _).trans (u.answerWrite_deal t i job .proceed)
  · rename_i e u hrun
    cases h
    exact ((execute_deal hrun).aside _).trans (u.answerWrite_deal t i job (.failed (.sql e)))

theorem takeLock_deal {t : Target} {taken : Bool} (h : w.takeLock id t i = (taken, w')) :
    Deal 0 0 w w' := by
  unfold takeLock at h
  dsimp only at h
  split at h <;> cases h <;> exact w.modifyLock_deal i _

/-- The wait of a write for a connection goes on. -/
theorem access_deal {job : Writing} {access : Database.Call}
    (h : Deal (holdings i job.access.carries) (holdings i access.carries) w w') :
    Deal (holdings i job.holds) (holdings i { job with access }.holds) w w' := by
  have hframe := h.frame (holdings i job.call.connection?.toList)
  rw [add_comm, add_comm (holdings i access.carries), ← holdings_append,
    ← holdings_append] at hframe
  exact hframe

/-- A write has been told how its wait for a connection has ended. -/
theorem accessed_deal {t : Target} {job : Writing} {access : Database.Call}
    {a : Write.Answer (List Answer)}
    (h : Deal (holdings i job.access.carries) (holdings i access.carries) w w')
    (ha : a.hands.Subperm access.carries) :
    Deal (holdings i job.holds)
      (holdings i (w'.answerWrite t i { job with access := { request := .acquire } } a).1.holds) w
      (w'.answerWrite t i { job with access := { request := .acquire } } a).2 := by
  have hle : (a.hands ++ Writing.holds { job with access := { request := .acquire } }).Subperm
      (Writing.holds { job with access }) := by
    show (a.hands ++ (job.call.connection?.toList ++ [])).Subperm
      (job.call.connection?.toList ++ access.carries)
    rw [List.append_nil]
    exact List.perm_append_comm.subperm.trans ((List.subperm_append_left _).mpr ha)
  exact ((access_deal h).trans (Deal.of_le (holdings_le hle) w')).trans
    (w'.answerWrite_deal t i _ a)

theorem pollWrite_deal {t : Target} {job job' : Writing} {moved : Bool}
    (h : w.pollWrite id t i job = (moved, job', w')) :
    Deal (holdings i job.holds) (holdings i job'.holds) w w' := by
  have going {u : World} {a : Write.Answer (List Answer)} (hu : Deal 0 0 w u)
      (h : (true, (u.answerWrite t i job a).1, (u.answerWrite t i job a).2) = (moved, job', w'))
      (ha : a.hands = []) : Deal (holdings i job.holds) (holdings i job'.holds) w w' := by
    cases h
    have hanswer := u.answerWrite_deal t i job a
    rw [ha] at hanswer
    exact (hu.aside _).trans hanswer
  unfold pollWrite at h
  dsimp only at h
  split at h
  · exact going (Deal.refl 0 w) h (by split <;> rfl)
  · split at h
    · rename_i hlock
      exact going (takeLock_deal hlock) h rfl
    · rename_i u hlock
      split at h
      · exact going ((takeLock_deal hlock).trans (u.modifyLock_deal i _)) h rfl
      · cases h
        exact (takeLock_deal hlock).aside _
  · split at h
    · rename_i u hpoll
      cases h
      have hcall : Deal (holdings i job.access.carries) (holdings i job.access.carries) w w' :=
        pollCall_deal hpoll
      exact access_deal hcall
    · rename_i access u hpoll
      have haccess := pollCall_deal hpoll
      split at h
      · cases h
        exact access_deal haccess
      · rename_i r hresult
        split at h
        · rename_i on
          cases h
          refine accessed_deal haccess ?_
          rw [Option.getD_some, Database.Call.carries_of_result hresult]
          exact List.Subperm.refl _
        · cases h
          exact accessed_deal haccess List.nil_subperm
        · cases h
          exact accessed_deal haccess List.nil_subperm
  · split at h
    · rename_i hrun
      have hbegun := pollStatement_deal hrun
      split at h <;> cases h <;> exact hbegun
    · exact pollStatement_deal h
  · exact pollOperation_deal h
  · exact pollStatement_deal h
  · exact pollStatement_deal h
  · rename_i delay hphase
    have hwait := w.deadlineOf_deal id delay
    split at h
    · exact going (hwait.trans (clearDeadline_deal _ id)) h rfl
    · split at h
      · exact going (hwait.trans (clearDeadline_deal _ id)) h rfl
      · cases h
        exact hwait.aside _
  · cases h
    exact Deal.refl _ w

theorem pollOperation_stays {t : Target} {job job' : Writing}
    (h : w.pollOperation id t i on job = (false, job', w')) : job'.holds = job.holds := by
  unfold pollOperation at h
  split at h
  · cases h
  · split at h <;> cases h
    rfl

theorem pollStatement_stays {t : Target} {job job' : Writing} {s : Statement}
    (h : w.pollStatement id t i on job s = (false, job', w')) : job'.holds = job.holds := by
  unfold pollStatement at h
  split at h <;> cases h
  rfl

/-- A write that did not go on holds what it held. -/
theorem pollWrite_stays {t : Target} {job job' : Writing}
    (h : w.pollWrite id t i job = (false, job', w')) : job'.holds = job.holds := by
  unfold pollWrite at h
  dsimp only at h
  split at h
  · cases h
  · split at h
    · cases h
    · split at h <;> cases h
      rfl
  · split at h
    · cases h
      rfl
    · split at h
      · cases h
      · split at h <;> cases h
  · split at h
    · split at h <;> cases h
    · exact pollStatement_stays h
  · exact pollOperation_stays h
  · exact pollStatement_stays h
  · exact pollStatement_stays h
  · split at h
    · cases h
    · split at h
      · cases h
      · cases h
        rfl
  · cases h
    rfl

end World

end Session

end SingleWriter
