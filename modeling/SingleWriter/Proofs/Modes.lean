import SingleWriter.Proofs.Ticking
import SingleWriter.Proofs.Trimming

/-! The names of checkpoint modes.  A text names a mode if, without the blanks around it, it is the
name of the mode up to the case of ASCII letters; it stands for the mode that it names, and for the
engine's own if it names none.  In a store, the periodic checkpoints and those that are asked for
run in the mode of their text, whatever else goes on. -/

namespace SingleWriter

open Text

/-! ### Names -/

namespace CheckpointMode

/-- The text is the name of the mode, up to the blanks around it and the case of ASCII letters. -/
def Named (m : CheckpointMode) (text : String) : Prop :=
  ∃ core, Core text.toList core ∧ List.Forall₂ Recased core m.name.toList

/-- The texts differ at most in the blanks around them and in the case of ASCII letters. -/
def SameName (s t : String) : Prop :=
  ∃ core core', Core s.toList core ∧ Core t.toList core' ∧ List.Forall₂ Recased core core'

variable {m k : CheckpointMode} {s t : String} {c : Char}

theorem statement_inj : m.statement = k.statement ↔ m = k := by
  cases m <;> cases k <;> simp [statement, name]

theorem name_letters (m : CheckpointMode) : ∀ c ∈ m.name.toList, 65 ≤ c.toNat ∧ c.toNat ≤ 90 := by
  have hall : (m.name.toList.all fun c => 65 ≤ c.toNat ∧ c.toNat ≤ 90) = true := by
    cases m <;> decide
  simpa using hall

theorem upper_name (m : CheckpointMode) : upper m.name.toList = m.name.toList := by
  cases m <;> decide

theorem named_iff : m.Named s ↔ m.name.toList = upper (trim s.toList) := by
  simp only [Named, core_iff, exists_eq_left', recased_iff_upper, upper_name]
  exact eq_comm

theorem sameName_iff : SameName s t ↔ upper (trim s.toList) = upper (trim t.toList) := by
  simp only [SameName, core_iff, exists_and_left, exists_eq_left', recased_iff_upper]

instance (m : CheckpointMode) (s : String) : Decidable (m.Named s) :=
  decidable_of_iff _ named_iff.symm

instance (s t : String) : Decidable (SameName s t) :=
  decidable_of_iff _ sameName_iff.symm

theorem find?_name {key : List Char} :
    all.find? (fun m => m.name.toList == key) = some m ↔ m.name.toList = key := by
  constructor
  · intro h
    simpa using List.find?_some h
  · rintro rfl
    cases m <;> rfl

/-! ### The mode of a text -/

theorem parse_of_named (h : m.Named s) : parse s = m := by
  have hfind := find?_name.mpr (named_iff.mp h)
  rw [parse, hfind]
  rfl

theorem parse_eq_iff (hm : m ≠ normal) : parse s = m ↔ m.Named s := by
  refine ⟨fun h => ?_, parse_of_named⟩
  rw [parse] at h
  cases hfind : all.find? fun m => m.name.toList == upper (trim s.toList) with
  | none =>
    rw [hfind] at h
    exact absurd h.symm hm
  | some k =>
    rw [hfind] at h
    obtain rfl : k = m := h
    exact named_iff.mpr (find?_name.mp hfind)

theorem parse_eq_normal_iff : parse s = normal ↔ ∀ m, m ≠ normal → ¬m.Named s := by
  constructor
  · intro h m hm hnamed
    exact hm ((parse_of_named hnamed).symm.trans h)
  · intro h
    by_contra hne
    exact h _ hne ((parse_eq_iff hne).mp rfl)

theorem parse_sameName (h : SameName s t) : parse s = parse t := by
  rw [parse, parse, sameName_iff.mp h]

theorem parse_name (m : CheckpointMode) : parse m.name = m := by
  refine parse_of_named (named_iff.mpr ?_)
  cases m <;> decide

/-- In a text that names a mode there is nothing but letters between the blanks. -/
theorem Named.letter (h : m.Named s) (hc : c ∈ trim s.toList) : 65 ≤ c.toNat ∧ c.toNat ≤ 122 := by
  have hname : c.toUpper ∈ m.name.toList := by
    rw [named_iff.mp h]
    exact List.mem_map_of_mem hc
  have hupper := m.name_letters _ hname
  have hsame := recased_toUpper c
  generalize c.toUpper = d at hupper hsame
  cases hsame with
  | same | lowered | raised => omega

theorem parse_of_no_letter (hc : c ∈ trim s.toList) (hno : ¬(65 ≤ c.toNat ∧ c.toNat ≤ 122)) :
    parse s = normal :=
  parse_eq_normal_iff.mpr fun _ _ hnamed => hno (hnamed.letter hc)

/-- A blank inside a text is part of its core. -/
theorem parse_of_inner_blank {before after : List Char} (hs : s.toList = before ++ c :: after)
    (hc : isBlank c = true) (hbefore : ∃ d ∈ before, isBlank d = false)
    (hafter : ∃ d ∈ after, isBlank d = false) : parse s = normal := by
  have hcore := trim_core s.toList
  rw [hs] at hcore
  refine parse_of_no_letter (c := c) (hs ▸ hcore.mem_inside hbefore hafter) fun hletter => ?_
  simp [isBlank_eq_false hletter.1 hletter.2] at hc

theorem parse_of_foreign (hmem : c ∈ s.toList) (hc : 128 ≤ c.toNat) (hblank : isBlank c = false) :
    parse s = normal :=
  parse_of_no_letter ((trim_core _).mem hmem hblank) (by omega)

end CheckpointMode

/-! ### The task of the periodic checkpoints -/

namespace Household

variable {h h' : Household} {l : Label}

/-- The checkpoint that the task is at has the mode of the configuration. -/
def KeepsMode (h : Household) : Prop :=
  ∀ t c, h.ticker = some t → t.state.phase = .checkpointing c →
    c.request = .checkpoint h.store.config.mode

theorem KeepsMode.step (hm : h.KeepsMode) (ht : h.Tended)
    (hcalls : ∀ n, (h.call (.periodic n)).request = .checkpoint h.store.config.mode)
    (hstep : h.Step l h') : h'.KeepsMode := by
  intro t' c' hsome' hphase'
  rw [hstep.config]
  cases hstep with
  | begins =>
    cases hsome'
    cases hphase'
  | ticks hsome hwake =>
    obtain ⟨-, -, rfl⟩ := Checkpointer.wake_tick hwake
    cases hsome'
    cases hphase'
    rw [← (ht.keeps _ hsome).mode]
  | @works t c n a s _ _ _ hs =>
    cases hsome'
    rw [Checkpointer.advance_eq] at hphase'
    cases hresult : (s.calls (Caller.periodic n).number).result? with
    | some r =>
      rw [hresult] at hphase'
      cases hphase'
    | none =>
      rw [hresult] at hphase'
      cases hphase'
      rw [hs.request]
      exact hcalls n
  | ends _ _ hwake =>
    obtain ⟨-, rfl⟩ := Checkpointer.wake_stop hwake
    cases hsome'
    cases hphase'
  | enters | joins | passes | drops | closes | removes | aside => exact hm t' c' hsome' hphase'

theorem Opened.keepsMode {ls : List Label} (hopened : h.Opened) (hrun : h.Run ls h') :
    h'.KeepsMode := by
  induction hrun with
  | start =>
    intro t c hsome
    rw [hopened.ticker] at hsome
    cases hsome
  | step hrun hstep ih =>
    refine ih.step (hrun.tended hopened.tended) (fun n => ?_) hstep
    rw [hrun.request, hrun.config, hopened.periodic]

end Household

/-! ### What a text decides -/

open CheckpointMode
open Database (Call)

/-- The mode of a text stays the same when blanks are put around it and ASCII letters change their
case.  It is another mode than the engine's own exactly if the text names that mode; so a text with
a blank inside, or with any other character outside ASCII, stands for the engine's own, and no other
mode has its statement.  Each mode is read back from its name.  The mode in which a store runs a
checkpoint depends on nothing but the name in a text, that of the configuration or that of whoever
asked for the checkpoint. -/
theorem name_decides_mode :
    (∀ s s' before after : String, List.Forall₂ Recased s.toList s'.toList →
      Blank before.toList → Blank after.toList → parse (before ++ s' ++ after) = parse s) ∧
    (∀ s m, m ≠ normal → (parse s = m ↔ m.Named s)) ∧
    (∀ s, (∀ m, m ≠ normal → ¬m.Named s) → parse s = normal) ∧
    (∀ s, (parse s).statement = normal.statement ↔ parse s = normal) ∧
    (∀ (s : String) before c after, s.toList = before ++ c :: after → isBlank c = true →
      (∃ d ∈ before, isBlank d = false) → (∃ d ∈ after, isBlank d = false) → parse s = normal) ∧
    (∀ s : String, ∀ c ∈ s.toList, 128 ≤ c.toNat → isBlank c = false → parse s = normal) ∧
    (∀ m : CheckpointMode, parse m.name = m ∧ parse (toString m) = m) ∧
    (∀ s t, SameName s t → parse s = parse t) ∧
    ∀ (h₀ h : Household) ls, h₀.Opened → h₀.Run ls h →
      (∀ t c s, h.ticker = some t → t.state.phase = .checkpointing c →
        SameName s h₀.store.config.checkpointMode → c.checkpointMode = parse s) ∧
      ∀ i s t, h₀.call (.other i) = Store.checkpoint t → SameName s t →
        (h.call (.other i)).checkpointMode = parse s := by
  refine ⟨fun s s' before after hsame hb ha => ?_, fun s m => parse_eq_iff,
    fun s => parse_eq_normal_iff.mpr, fun s => statement_inj,
    fun s before c after => parse_of_inner_blank, fun s c => parse_of_foreign,
    fun m => ⟨parse_name m, parse_name m⟩, fun s t => parse_sameName,
    fun h₀ h ls hopened hrun => ⟨fun t c s hsome hphase hname => ?_, fun i s t hcall hname => ?_⟩⟩
  · refine (parse_sameName ⟨_, _, trim_core _, ?_, trim_recased hsame⟩).symm
    rw [String.toList_append, String.toList_append]
    exact (trim_core _).pad hb ha
  · rw [Call.checkpointMode, hopened.keepsMode hrun t c hsome hphase, hrun.config]
    exact (parse_sameName hname).symm
  · rw [Call.checkpointMode, hrun.request, hcall]
    exact (parse_sameName hname).symm

namespace Household

/-- A store whose configuration spells its mode with blanks and letters of either case. -/
def spelled : StoreConfig := { frequent with checkpointMode := "\u2003tRuNcAtE\u0085" }

/-- One of its users asks for a checkpoint. -/
def asks (i : Nat) : Call :=
  if i = 3 then Store.checkpoint "Full\n"
  else if i % 4 = 0 then { request := .checkpoint spelled.mode }
  else { request := requests i }

def justSpelled : Household :=
  { justOpened with
    store := { justOpened.store with config := spelled }
    traffic := { justOpened.traffic with calls := asks } }

theorem asks_entering (i : Nat) : (asks i).phase = .entering := by
  unfold asks
  split
  · rfl
  · split <;> rfl

theorem justSpelled_opened : justSpelled.Opened := by
  have hcall (who : Caller) : justSpelled.call who = asks who.number := rfl
  have hother (n r : Nat) (hr : r < 3) (hr' : r ≠ 0) :
      asks (4 * n + r) = { request := requests (4 * n + r) } := by
    rw [asks, if_neg (by omega), if_neg (by omega)]
  have hmod (n r : Nat) (hr : r < 4) : (4 * n + r) % 4 = r := by omega
  refine ⟨rfl, rfl, ⟨fun {j} hj => ?_, fun {j k} hj => ?_, fun _ j => ?_⟩, rfl, fun n => ?_,
    fun k => ?_, fun k => ?_, fun _ => rfl⟩
  · cases (asks_entering j).symm.trans hj
  · cases (asks_entering j).symm.trans hj
  · show (asks j).closing = false
    rw [Call.closing, asks_entering]
    exact Bool.and_false _
  · rw [hcall, asks, Caller.number, if_neg (by omega), if_pos (Nat.mul_mod_right 4 n)]
    rfl
  · rw [hcall, Caller.number, hother k 1 (by decide) (by decide), requests, hmod k 1 (by decide)]
    rfl
  · rw [hcall, Caller.number, hother k 2 (by decide) (by decide), requests, hmod k 2 (by decide)]
    rfl

/-- The periodic checkpoint empties the log, and the one that was asked for is a full one. -/
theorem spelled_modes_run :
    parse "\u2003tRuNcAtE\u0085" = truncate ∧ parse "bogus" = normal ∧
      (parse "bogus").statement = "PRAGMA wal_checkpoint" ∧ parse "re start" = normal ∧
      parse "re\u017ftart" = normal ∧
      ∃ ls h t c, justSpelled.Run ls h ∧ h.ticker = some t ∧ t.state.phase = .checkpointing c ∧
        c.phase = .checkpointing 0 ∧ c.checkpointMode = truncate ∧
        (h.call (.other 0)).checkpointMode = full := by
  obtain ⟨hpadded, hnamed, hnone, hstatement, hinner, hforeign, -, -, hstore⟩ := name_decides_mode
  have hcase : List.Forall₂ Recased "truncate".toList "tRuNcAtE".toList :=
    recased_iff_upper.mpr (by decide)
  have htruncate : parse "truncate" = truncate := (hnamed _ _ (by decide)).mpr (by decide)
  have hbogus : parse "bogus" = normal := hnone _ fun m _ => by cases m <;> decide
  have r := Run.start (h := justSpelled)
  have r := r.step (.begins rfl rfl)
  have r := r.step (.passes (Nat.zero_le 50000000))
  have r := r.step (.ticks rfl rfl)
  have r := r.step (.works (n := 0) rfl rfl rfl (.turn true (.entered rfl)))
  have r := r.step (.aside (.queue (i := 0) (.inl rfl) rfl) nofun)
  have r := r.step (.works (n := 0) rfl rfl rfl (.turn true (.acquired rfl (.idle rfl rfl))))
  have r := r.step (.aside (.turn true (.entered (i := 3) rfl)) fun _ _ h => ⟨0, by cases h; rfl⟩)
  obtain ⟨htask, huser⟩ := hstore _ _ _ justSpelled_opened r
  refine ⟨?_, hbogus, (hstatement _).mpr hbogus, ?_, ?_, _, _, _, _, r, rfl, rfl, rfl, ?_, ?_⟩
  · exact (hpadded _ _ "\u2003" "\u0085" hcase (by decide) (by decide)).trans htruncate
  · exact hinner _ "re".toList ' ' "start".toList rfl rfl ⟨'r', by decide⟩ ⟨'s', by decide⟩
  · exact hforeign _ '\u017f' (by decide) (by decide) rfl
  · exact (htask _ _ "truncate" rfl rfl (by decide)).trans htruncate
  · exact huser 0 "FULL" "Full\n" rfl (by decide)

end Household

end SingleWriter
