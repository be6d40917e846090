import SingleWriter.Proofs.Deletion
import SingleWriter.Proofs.Leaving
import SingleWriter.Proofs.Ticking
import SingleWriter.Session.Wait

/-! The removal of a database and of a store.  The handle is closed first, then the files are
deleted in order.  What comes of the deletion is what the removal comes to, and the handle is closed
in any case, so another removal deletes what is left. -/

namespace SingleWriter

open Database (Answer Call Request Traffic)

/-! ### Shutdowns -/

section

variable {s : Shutdown} {c : Call}

theorem Shutdown.result?_eq_some {r : Except StoreError Unit} :
    s.result? = some r ↔ s.phase = .finished r := by
  unfold result?
  cases s.phase <;> simp

theorem Shutdown.enter_close {store : Store} (hstore : store.checkpointer = none) (s : Shutdown) :
    (s.enter store).1 = s.close := by
  unfold enter Store.stop
  rw [hstore]

theorem Shutdown.advance_closing_phase (hs : s.phase = .closing c) (call : Call) :
    (s.advance call).phase =
      match call.result? with
      | none => .closing call
      | some (.error e) => .finished (.error (.connection e))
      | some (.ok _) =>
        if s.remove then .removing { request := .remove } else .finished (.ok ()) := by
  rw [advance, hs]
  rcases call.result? with _ | _ | p
  · rfl
  · rfl
  · cases hremove : s.remove <;> rfl

theorem Shutdown.advance_removing_phase (hs : s.phase = .removing c) (call : Call) :
    (s.advance call).phase =
      match call.result? with
      | none => .removing call
      | some r => .finished ((r.map fun _ => ()).mapError .connection) := by
  rw [advance, hs]
  rcases call.result? with _ | _ | p <;> rfl

end

namespace Household

variable {h h' : Household} {k : Nat} {l : Label} {φ : ShutdownPhase}

theorem Run.trans {m : Household} {ls ls' : List Label} (hrun : h.Run ls m) (hrun' : m.Run ls' h') :
    h.Run (ls ++ ls') h' := by
  induction hrun' with
  | start => rwa [List.append_nil]
  | step _ hstep ih =>
    rw [← List.append_assoc]
    exact ih.step hstep

/-- How far the calls of a shutdown have come that is in this phase. -/
inductive Conduct (h : Household) (k : Nat) : ShutdownPhase → Prop
  | entering : h.call (.closing k) = { request := .close } →
      h.call (.removing k) = { request := .remove } → Conduct h k .entering
  | joining (task : Nat) : h.call (.closing k) = { request := .close } →
      Conduct h k (.joining task)
  | closing {c : Call} : h.call (.closing k) = c → Conduct h k (.closing c)
  | removing {c : Call} : (h.call (.closing k)).result?.isSome = true → Conduct h k (.removing c)
  | finished (r : Except StoreError Unit) : (h.call (.closing k)).result?.isSome = true →
      Conduct h k (.finished r)

theorem Conduct.same (hc : h.Conduct k φ)
    (hclosing : h'.call (.closing k) = h.call (.closing k))
    (hremoving : h'.call (.removing k) = h.call (.removing k)) : h'.Conduct k φ := by
  cases hc with
  | entering hclose hremove => exact .entering (hclosing.trans hclose) (hremoving.trans hremove)
  | joining task hclose => exact .joining task (hclosing.trans hclose)
  | closing hclose => exact .closing (hclosing.trans hclose)
  | removing hover => exact .removing (hclosing ▸ hover)
  | finished r hover => exact .finished r (hclosing ▸ hover)

/-- What holds of the shutdowns of a store: all their calls close the handle, and from the first of
them on nobody is left to wait for the periodic checkpoints. -/
structure Parting (h : Household) : Prop where
  closing : ∀ k, h.traffic.Leaves (Caller.closing k).number ∧
    (h.call (.closing k)).request = .close
  removing : ∀ k, h.traffic.Leaves (Caller.removing k).number ∧
    (h.call (.removing k)).request = .remove
  conduct : ∀ k, h.Conduct k (h.shutdowns k).phase
  stopped : ∀ k, (h.shutdowns k).phase ≠ .entering → h.store.checkpointer = none

theorem Opened.parting (h : h'.Opened) : h'.Parting := by
  refine ⟨fun k => ?_, fun k => ?_, fun k => ?_, fun k hk => absurd (h.shutdowns k) hk⟩
  · exact ⟨Traffic.leaves_of_fresh (h.closing k) rfl, by rw [h.closing k]⟩
  · exact ⟨Traffic.leaves_of_fresh (h.removing k) rfl, by rw [h.removing k]⟩
  · rw [h.shutdowns k]
    exact .entering (h.closing k) (h.removing k)

/-- The calls that close the handle go on as such. -/
theorem Step.leaves (hstep : h.Step l h') {i : Nat} {q : Request}
    (hi : h.traffic.Leaves i ∧ (h.traffic.calls i).request = q) :
    h'.traffic.Leaves i ∧ (h'.traffic.calls i).request = q := by
  rcases hstep.traffic with hsame | ⟨l', hs⟩
  · rw [hsame]
    exact hi
  · obtain ⟨hleaves, hrequest⟩ := hi.1.step hs
    exact ⟨hleaves, hrequest.trans hi.2⟩

theorem Step.stopped (hstep : h.Step l h')
    (hk : ∀ j, (h.shutdowns j).phase ≠ .entering → h.store.checkpointer = none)
    (hphase : (h'.shutdowns k).phase ≠ .entering) : h'.store.checkpointer = none := by
  cases hstep with
  | begins | ticks | works | ends | passes | drops | aside => exact hk k hphase
  | enters => rw [Shutdown.enter_store]
  | joins hj =>
    obtain ⟨task, hj⟩ := hj
    exact hk _ (by rw [hj]; nofun)
  | closes hj | removes hj => exact hk _ (by rw [hj]; nofun)

theorem Conduct.enters (hc : h.Conduct k (h.shutdowns k).phase)
    (hk : (h.shutdowns k).phase = .entering) :
    h.Conduct k ((h.shutdowns k).enter h.store).1.phase := by
  rw [hk] at hc
  rw [Shutdown.enter_phase]
  cases hc with
  | entering hclose =>
    cases h.store.checkpointer with
    | none => exact .closing hclose
    | some task => exact .joining task hclose

theorem Conduct.closes (s : Shutdown) {c : Call} (hs : s.phase = .closing c) :
    h.Conduct k (s.advance (h.call (.closing k))).phase := by
  rw [s.advance_closing_phase hs]
  cases hresult : (h.call (.closing k)).result? with
  | none => exact .closing rfl
  | some r =>
    have hover : (h.call (.closing k)).result?.isSome = true := by rw [hresult]; rfl
    cases r with
    | error e => exact .finished _ hover
    | ok p =>
      cases s.remove with
      | false => exact .finished _ hover
      | true => exact .removing hover

theorem Conduct.removes (hover : (h.call (.closing k)).result?.isSome = true) (s : Shutdown)
    {c : Call} (hs : s.phase = .removing c) (call : Call) :
    h.Conduct k (s.advance call).phase := by
  rw [s.advance_removing_phase hs]
  cases call.result? with
  | none => exact .removing hover
  | some r => exact .finished _ hover

theorem Parting.conducts (hp : h.Parting) (hstep : h.Step l h') (k : Nat) :
    h'.Conduct k (h'.shutdowns k).phase := by
  have hc := hp.conduct k
  -- The steps of a shutdown are those that change its phase; all others leave its calls alone.
  have shut {j : Nat} (s : Shutdown)
      (hself : j = k → h'.Conduct k s.phase)
      (hother : j ≠ k → h'.Conduct k (h.shutdowns k).phase) :
      h'.Conduct k ((h.withShutdown j s).shutdowns k).phase := by
    by_cases hj : j = k
    · subst hj
      rw [withShutdown_self]
      exact hself rfl
    · rw [withShutdown_ne s (Ne.symm hj)]
      exact hother hj
  cases hstep with
  | begins | ticks | ends | passes | drops => exact hc.same rfl rfl
  | works _ _ _ hs => exact hc.same (call_of_ne (by simp) hs) (call_of_ne (by simp) hs)
  | enters hj =>
    refine shut _ ?_ fun _ => hc.same rfl rfl
    rintro rfl
    exact (hc.enters hj).same rfl rfl
  | joins hj =>
    refine shut _ ?_ fun _ => hc.same rfl rfl
    rintro rfl
    obtain ⟨task, hj⟩ := hj
    rw [hj] at hc
    cases hc with
    | joining _ hclose => exact .closing hclose
  | closes hj hs =>
    refine shut _ ?_ fun hne => ?_
    · rintro rfl
      exact .closes _ hj
    · exact hc.same (call_of_ne (by simpa using hne.symm) hs) (call_of_ne (by simp) hs)
  | removes hj hs =>
    refine shut _ ?_ fun hne => ?_
    · rintro rfl
      rw [hj] at hc
      cases hc with
      | removing hover =>
        rw [← call_of_ne (by simp) hs] at hover
        refine .removes ?_ _ hj _
        exact hover
    · exact hc.same (call_of_ne (by simp) hs) (call_of_ne (by simpa using hne.symm) hs)
  | aside hs hothers =>
    refine hc.same (hs.calls_of_ne fun a ha => ?_) (hs.calls_of_ne fun a ha => ?_)
    all_goals
      obtain ⟨j, hj⟩ := hothers _ a ha
      cases Caller.number_inj.mp hj

theorem Parting.step (hp : h.Parting) (hstep : h.Step l h') : h'.Parting :=
  ⟨fun k => hstep.leaves (hp.closing k), fun k => hstep.leaves (hp.removing k), hp.conducts hstep,
    fun _ => hstep.stopped hp.stopped⟩

theorem Run.parting {ls : List Label} (hrun : h.Run ls h') (hp : h.Parting) : h'.Parting :=
  hrun.preserves (fun hstep hp => hp.step hstep) hp

/-- What has just come to its end is what has just changed. -/
theorem withShutdown_finished {j : Nat} {s : Shutdown} {r : Except StoreError Unit}
    (hrunning : (h.shutdowns k).result? = none)
    (hr : ((h.withShutdown j s).shutdowns k).result? = some r) : j = k ∧ s.phase = .finished r := by
  by_cases hj : j = k
  · subst hj
    rw [withShutdown_self, Shutdown.result?_eq_some] at hr
    exact ⟨rfl, hr⟩
  · rw [withShutdown_ne s (Ne.symm hj), hrunning] at hr
    cases hr

/-- A shutdown whose last step this is: the deletion, if the database is removed. -/
theorem Parting.finishes (hp : h.Parting) (hstep : h.Step l h')
    (hremove : (h.shutdowns k).remove = true) (hrunning : (h.shutdowns k).result? = none)
    {r : Except StoreError Unit} (hr : (h'.shutdowns k).result? = some r) :
    (∃ c, (h.shutdowns k).phase = .removing c) ∧ h.traffic.handle.closed = true ∧
      h'.traffic.handle.closed = true ∧ ∃ x, l = .removes k (.unlinked x) ∧
        r = x.mapError fun e => .connection (.io e) := by
  cases hstep with
  | begins | ticks | works | ends | passes | drops | aside =>
    rw [show _ = none from hrunning] at hr
    cases hr
  | enters =>
    obtain ⟨rfl, hphase⟩ := withShutdown_finished hrunning hr
    rw [Shutdown.enter_phase] at hphase
    cases hstore : h.store.checkpointer <;> rw [hstore] at hphase <;> cases hphase
  | joins =>
    obtain ⟨rfl, hphase⟩ := withShutdown_finished hrunning hr
    cases hphase
  | @closes _ c a t hk ht =>
    obtain ⟨rfl, hphase⟩ := withShutdown_finished hrunning hr
    rw [Shutdown.advance_closing_phase hk] at hphase
    obtain ⟨hleaves, hrequest⟩ := hp.closing _
    cases hresult : (t.calls (Caller.closing _).number).result? with
    | none =>
      rw [hresult] at hphase
      cases hphase
    | some r' =>
      -- Closing never fails, so the removal goes on.
      obtain rfl := hleaves.finishes_close hrequest ht ht.unfinished hresult
      rw [hresult] at hphase
      simp only [hremove, if_true] at hphase
      cases hphase
  | @removes _ c a t hk ht =>
    obtain ⟨rfl, hphase⟩ := withShutdown_finished hrunning hr
    rw [Shutdown.advance_removing_phase hk] at hphase
    obtain ⟨hleaves, hrequest⟩ := hp.removing _
    cases hresult : (t.calls (Caller.removing _).number).result? with
    | none =>
      rw [hresult] at hphase
      cases hphase
    | some r' =>
      obtain ⟨hclosed, hclosed', x, hl, rfl⟩ :=
        hleaves.finishes_remove hrequest ht ht.unfinished hresult
      rw [hresult] at hphase
      cases hl
      cases hphase
      refine ⟨⟨c, hk⟩, hclosed, hclosed', x, rfl, ?_⟩
      cases x <;> rfl

theorem Step.checkpointer (hstep : h.Step l h') (hnone : h.store.checkpointer = none) :
    h'.store.checkpointer = none := by
  cases hstep with
  | enters => rw [Shutdown.enter_store]
  | begins | ticks | works | ends | joins | closes | removes | aside | passes | drops => exact hnone

theorem Run.checkpointer {ls : List Label} (hrun : h.Run ls h')
    (hnone : h.store.checkpointer = none) : h'.store.checkpointer = none :=
  hrun.preserves (P := fun m => m.store.checkpointer = none) Step.checkpointer hnone

/-- A shutdown that comes to close an open handle has closed it for good when it is past that. -/
theorem Parting.shut {m m' : Household} {ls : List Label} (hp : m.Parting)
    (hm : m.traffic.Orderly ∧ m.traffic.handle.pool.isSome = true)
    (hopen : m.traffic.handle.closed = false) (hstep : m.Step (.closes k .proceed) m')
    (hrun : m'.Run ls h) (hover : (h.call (.closing k)).result?.isSome = true) :
    h.traffic.Shut := by
  obtain ⟨hleaves, -⟩ := hp.closing k
  have hentering : (m.traffic.calls (Caller.closing k).number).phase = .entering := by
    by_contra hbegun
    rw [Database.Call.Leaves.closed hleaves hbegun] at hopen
    cases hopen
  have hcloses : m.traffic.Closes (Caller.closing k).number := by
    refine ⟨Database.Call.Leaves.request hleaves, hentering, hopen, fun hnone => ?_⟩
    rw [hnone] at hm
    cases hm.2
  obtain ⟨ls', hrun'⟩ := hrun.traffic
  cases hstep with
  | closes _ ht =>
    refine hcloses.shut hm.1 ht hrun' ?_
    obtain ⟨r, hr⟩ := Option.isSome_iff_exists.mp hover
    rw [show (h.traffic.calls _).phase = _ from Database.Call.result?_eq_some.mp hr]
    rfl

/-! ### Another removal -/

theorem may_enter (hk : (h.shutdowns k).phase = .entering) (hstore : h.store.checkpointer = none) :
    ∃ h', h.Step (.enters k) h' ∧ h'.traffic = h.traffic ∧
      h'.shutdowns k = (h.shutdowns k).close := by
  refine ⟨_, .enters hk, rfl, (withShutdown_self ..).trans ?_⟩
  exact Shutdown.enter_close hstore _

theorem may_close {c : Call} (hk : (h.shutdowns k).phase = .closing c) {a : Answer} {t : Traffic}
    (ht : h.traffic.Step (.turn (Caller.closing k).number a) t) :
    ∃ h', h.Step (.closes k a) h' ∧ h'.traffic = t ∧
      h'.shutdowns k = (h.shutdowns k).advance (t.calls (Caller.closing k).number) :=
  ⟨_, .closes hk ht, rfl, withShutdown_self ..⟩

theorem may_remove {c : Call} (hk : (h.shutdowns k).phase = .removing c) {a : Answer} {t : Traffic}
    (ht : h.traffic.Step (.turn (Caller.removing k).number a) t) :
    ∃ h', h.Step (.removes k a) h' ∧ h'.traffic = t ∧
      h'.shutdowns k = (h.shutdowns k).advance (t.calls (Caller.removing k).number) :=
  ⟨_, .removes hk ht, rfl, withShutdown_self ..⟩

/-- Another removal of a store goes straight to the files. -/
theorem Parting.removes_again (hp : h.Parting) (hclosed : h.traffic.handle.closed = true)
    (hstore : h.store.checkpointer = none) (hk : (h.shutdowns k).phase = .entering)
    (hremove : (h.shutdowns k).remove = true) (x : Except IoError Unit) :
    ∃ h', h.Run [.enters k, .closes k .proceed, .removes k .proceed, .removes k (.unlinked x)] h' ∧
      (h'.shutdowns k).result? = some (x.mapError fun e => .connection (.io e)) := by
  have hc := hp.conduct k
  rw [hk] at hc
  cases hc with
  | entering hclose hremoving =>
    obtain ⟨h₁, hstep₁, htraffic, hk₁⟩ := may_enter hk hstore
    rw [← htraffic] at hclosed
    have hclose' : h₁.call (.closing k) = { request := .close } := by
      rw [call, htraffic, ← hclose, call]
    obtain ⟨t, ht, hcall⟩ := Traffic.passes_closed hclosed hclose' rfl
    obtain ⟨h₂, hstep₂, rfl, hk₂⟩ := may_close (by rw [hk₁]; rfl) ht
    have hremoving' : h₂.call (.removing k) = { request := .remove } := by
      rw [call, call_of_ne (by simp) ht, call, htraffic, ← hremoving, call]
    have hphase₂ : (h₂.shutdowns k).phase = .removing { request := .remove } := by
      rw [hk₂, hcall, hk₁, Shutdown.advance_closing_phase rfl]
      exact if_pos hremove
    obtain ⟨m, t, hm, ht', hresult⟩ :=
      Traffic.removes_again (ht.closed hclosed) hremoving' x
    obtain ⟨h₃, hstep₃, rfl, hk₃⟩ := may_remove hphase₂ hm
    have hphase₃ : (h₃.shutdowns k).phase = .removing (h₃.call (.removing k)) := by
      rw [hk₃, Shutdown.advance_removing_phase hphase₂, ht'.unfinished]
      rfl
    obtain ⟨h₄, hstep₄, rfl, hk₄⟩ := may_remove hphase₃ ht'
    refine ⟨h₄, (((Run.start.step hstep₁).step hstep₂).step hstep₃).step hstep₄, ?_⟩
    rw [Shutdown.result?_eq_some, hk₄, Shutdown.advance_removing_phase hphase₃, hresult]
    cases x <;> rfl

end Household

/-! ### The files -/

open Engine (Disk files)

/-- In a world, the files of a database are deleted as in any file system. -/
theorem Session.World.pollCall_unlinking (path : String) (w : World) (id i : Nat) {c : Call}
    (hc : c.phase = .unlinking) : w.pollCall id i c =
      let deletion := (Disk.under path).deleteAll w.disk (files path)
      let answered := { w with disk := deletion.1 }.answerCall i c (.unlinked deletion.2)
      (some answered.1, answered.2) := by
  simp only [pollCall, hc]
  rw [w.disk.unlinkAll_eq path]
  rfl

section

variable {σ ι : Type} (fs : FileSystem σ ι)

/-- What a deletion of the files of a database that came to `x` has done. -/
def FileSystem.Removes (path : String) (x : Except IoError Unit) : Prop :=
  ∀ s s', fs.deleteAll s (files path) = (s', x) →
    fs.Deleted (files path) s x s' ∧ ((∀ n ∈ files path, fs.Free s n) → x = .ok ())

theorem FileSystem.removes (path : String) (x : Except IoError Unit) : fs.Removes path x := by
  intro s s' hdeletion
  have hdeleted := fs.deleted (Engine.files_nodup path) s
  rw [hdeletion] at hdeleted
  exact ⟨hdeleted, hdeleted.ok⟩

/-- With nothing in the way, a deletion of the files leaves none of them. -/
theorem FileSystem.removes_all {path : String} {s : σ} (hfree : ∀ n ∈ files path, fs.Free s n) :
    ∃ s', fs.deleteAll s (files path) = (s', .ok ()) ∧ ∀ n ∈ files path, fs.Absent s' n := by
  obtain ⟨hdeleted, hok⟩ := fs.removes path _ s _ rfl
  have hx := hok hfree
  exact ⟨_, Prod.ext rfl hx, hdeleted.gone hx⟩

end

/-- A removal closes the handle first and then deletes the main file, the log and its index.  If it
succeeds, all three are gone.  If it fails, it says why the first of them that cannot be deleted
cannot; those before it are gone, and it and those after it are as they were.  No other file is
touched, and the handle is closed in any case.  If nobody was connecting and nobody else was closing
the handle, its pool is closed and empty before the first file goes.  Once nothing is in the way,
another removal succeeds, whatever the first has left. -/
theorem removal_deletes_files {σ ι : Type} (fs : FileSystem σ ι) :
    (∀ (path : String) (w : Session.World) (id i : Nat) (c : Call), c.phase = .unlinking →
      w.pollCall id i c =
        let deletion := (Disk.under path).deleteAll w.disk (files path)
        let answered := { w with disk := deletion.1 }.answerCall i c (.unlinked deletion.2)
        (some answered.1, answered.2)) ∧
    (∀ (s₀ s s' : Traffic) ls l i r, s₀.calls i = { request := .remove } → s₀.Run ls s →
      (s.calls i).result? = none → s.Step l s' → (s'.calls i).result? = some r →
      (∃ x, l = .turn i (.unlinked x) ∧ r = (x.map fun _ => .done).mapError .io ∧
        s.handle.path = s₀.handle.path ∧ fs.Removes s₀.handle.path x) ∧
      s.handle.closed = true ∧
      (s₀.Orderly → ∀ ls₁ m m' ls₂, s₀.Run ls₁ m → m.Closes i → m.Step (.turn i .proceed) m' →
        m'.Run ls₂ s → s.Shut) ∧
      ∀ ls' t, s'.Run ls' t → t.handle.closed = true ∧
        ∀ j, t.calls j = { request := .remove } →
          ∀ τ, (∀ n ∈ files s₀.handle.path, fs.Free τ n) →
            ∃ τ' m t', t.Step (.turn j .proceed) m ∧
              fs.deleteAll τ (files s₀.handle.path) = (τ', .ok ()) ∧
              m.Step (.turn j (.unlinked (.ok ()))) t' ∧
              (t'.calls j).result? = some (.ok .done) ∧
              ∀ n ∈ files s₀.handle.path, fs.Absent τ' n) ∧
    ∀ (h₀ h h' : Household) ls l k r, h₀.Opened → h₀.Run ls h → (h.shutdowns k).remove = true →
      (h.shutdowns k).result? = none → h.Step l h' → (h'.shutdowns k).result? = some r →
      (∃ x, l = .removes k (.unlinked x) ∧ r = x.mapError (fun e => .connection (.io e)) ∧
        h.traffic.handle.path = h₀.traffic.handle.path ∧ fs.Removes h₀.traffic.handle.path x) ∧
      h.traffic.handle.closed = true ∧
      (∀ ls₁ m m' ls₂, h₀.Run ls₁ m → m.traffic.handle.closed = false →
        m.Step (.closes k .proceed) m' → m'.Run ls₂ h → h.traffic.Shut) ∧
      ∀ ls' t, h'.Run ls' t → t.traffic.handle.closed = true ∧
        ∀ j, (t.shutdowns j).phase = .entering → (t.shutdowns j).remove = true →
          ∀ τ, (∀ n ∈ files h₀.traffic.handle.path, fs.Free τ n) →
            ∃ τ' t', t.Run [.enters j, .closes j .proceed, .removes j .proceed,
                .removes j (.unlinked (.ok ()))] t' ∧
              fs.deleteAll τ (files h₀.traffic.handle.path) = (τ', .ok ()) ∧
              (t'.shutdowns j).result? = some (.ok ()) ∧
              ∀ n ∈ files h₀.traffic.handle.path, fs.Absent τ' n := by
  refine ⟨fun path w id i c hc => w.pollCall_unlinking path id i hc, ?database, ?store⟩
  case database =>
    intro s₀ s s' ls l i r hcall hrun hrunning hstep hr
    obtain ⟨hleaves, hrequest⟩ := (Traffic.leaves_of_fresh hcall rfl).run hrun
    rw [hcall] at hrequest
    obtain ⟨hclosed, hclosed', x, rfl, rfl⟩ :=
      hleaves.finishes_remove hrequest hstep hrunning hr
    refine ⟨⟨x, rfl, rfl, hrun.path, fs.removes _ x⟩, hclosed,
      fun ho ls₁ m m' ls₂ hrun₁ hcloses hfirst hrun₂ => ?_,
      fun ls' t hrun' => ⟨hrun'.closed hclosed', fun j hj τ hfree => ?_⟩⟩
    · refine hcloses.shut (hrun₁.orderly ho) hfirst hrun₂ ?_
      have hawaits := hstep.turned.1
      generalize (s.calls i).phase = φ at hawaits
      cases hawaits
      rfl
    · obtain ⟨τ', hdeletion, hgone⟩ := fs.removes_all hfree
      obtain ⟨m, t', hm, ht', hresult⟩ :=
        Traffic.removes_again (hrun'.closed hclosed') hj (.ok ())
      exact ⟨τ', m, t', hm, hdeletion, ht', hresult, hgone⟩
  case store =>
    intro h₀ h h' ls l k r hopened hrun hremove hrunning hstep hr
    have hp := hrun.parting hopened.parting
    obtain ⟨⟨c, hk⟩, hclosed, hclosed', x, rfl, rfl⟩ := hp.finishes hstep hremove hrunning hr
    obtain ⟨tls, htraffic⟩ := hrun.traffic
    refine ⟨⟨x, rfl, rfl, htraffic.path, fs.removes _ x⟩, hclosed,
      fun ls₁ m m' ls₂ hrun₁ hopen hfirst hrun₂ => ?_, fun ls' t hrun' => ?_⟩
    · obtain ⟨tls₁, htraffic₁⟩ := hrun₁.traffic
      refine (hrun₁.parting hopened.parting).shut
        (htraffic₁.pooled ⟨hopened.orderly, hopened.connected⟩) hopen hfirst hrun₂ ?_
      have hconduct := hp.conduct k
      rw [hk] at hconduct
      cases hconduct
      assumption
    · have hp' := hp.step hstep
      obtain ⟨tls', htraffic'⟩ := hrun'.traffic
      have htclosed := htraffic'.closed hclosed'
      refine ⟨htclosed, fun j hj hjremove τ hfree => ?_⟩
      have hstore := hrun'.checkpointer (hp'.stopped k fun hentering => by
        rw [Shutdown.result?_eq_some, hentering] at hr
        cases hr)
      obtain ⟨τ', hdeletion, hgone⟩ := fs.removes_all hfree
      obtain ⟨t', ht', hresult⟩ :=
        (hrun'.parting hp').removes_again htclosed hstore hj hjremove (.ok ())
      exact ⟨τ', t', ht', hdeletion, hresult, hgone⟩

/-- A store that only those use who remove it. -/
def outgoing : Household := { Household.justOpened with shutdowns := fun _ => { remove := true } }

theorem outgoing_opened : outgoing.Opened :=
  { Household.justOpened_opened with shutdowns := fun _ => rfl }

/-- A database with a directory in the place of its log. -/
def blocked : Disk := { main := .file 0, wal := .directory, shm := .file 0, files := [{}] }

/-- The first removal ends at the directory, and the second one deletes what is left. -/
theorem removal_is_taken_up_again :
    ∃ (ls : List Household.Label) (h h' t : Household) (d d' : Disk), outgoing.Run ls h ∧
      h.Step (.removes 0 (.unlinked (.error .isADirectory))) h' ∧ h.traffic.Shut ∧
      (h'.shutdowns 0).result? = some (.error (.connection (.io .isADirectory))) ∧
      (Disk.under "app.db").deleteAll blocked (files "app.db") = (d, .error .isADirectory) ∧
      h'.Run [.enters 1, .closes 1 .proceed, .removes 1 .proceed,
        .removes 1 (.unlinked (.ok ()))] t ∧ (t.shutdowns 1).result? = some (.ok ()) ∧
      (Disk.under "app.db").deleteAll { d with wal := .absent } (files "app.db") = (d', .ok ()) ∧
      ∀ n ∈ files "app.db", (Disk.under "app.db").Absent d' n := by
  have r := Household.Run.start (h := outgoing)
  have r := r.step (.begins rfl rfl)
  have r := r.step (.enters (k := 0) rfl)
  have r := r.step (.ends rfl rfl rfl)
  have r := r.step (.joins (k := 0) ⟨_, rfl⟩ ⟨_, rfl, rfl⟩)
  have r₁ := r.step (.closes (k := 0) rfl (.turn true (.entered rfl)))
  have r₂ := r₁.here
  have r₂ := r₂.step (.aside (.queue (i := 1) (.inl rfl) rfl) nofun)
  have r₂ := r₂.step (.closes (k := 0) rfl (.turn true (.acquired rfl (.idle rfl rfl))))
  have r₂ := r₂.step (.closes (k := 0) rfl (.turn true (.checkpointed ⟨false, none⟩ rfl)))
  have r₂ := r₂.step (.closes (k := 0) rfl (.turn true (.drained rfl rfl rfl)))
  have r₂ := r₂.step (.removes (k := 0) rfl (.turn true (.entered rfl)))
  obtain ⟨-, -, hshut, hafter⟩ := (removal_deletes_files (Disk.under "app.db")).2.2 _ _ _ _ _ 0 _
    outgoing_opened (r₁.trans r₂) rfl rfl
    (.removes (k := 0) rfl (.turn true (.unlinked (.error .isADirectory) rfl))) rfl
  have hfree : ∀ n ∈ files "app.db",
      (Disk.under "app.db").Free { blocked with main := .absent, wal := .absent } n := by
    intro n hn e he
    obtain ⟨p, -, rfl⟩ := List.mem_map.mp hn
    rw [Disk.under_unlink] at he
    cases p <;> cases he <;> rfl
  obtain ⟨d', t, ht, hdeletion, hresult, hgone⟩ := (hafter _ _ .start).2 1 rfl rfl _ hfree
  refine ⟨_, _, _, t, { blocked with main := .absent }, d', r₁.trans r₂,
    .removes rfl (.turn true (.unlinked (.error .isADirectory) rfl)),
    hshut _ _ _ _ r rfl (.closes rfl (.turn true (.entered rfl))) r₂, rfl,
    (blocked.unlinkAll_eq "app.db" Engine.Part.all).symm, ht, hresult, hdeletion, hgone⟩

end SingleWriter
