import Mathlib.Algebra.BigOperators.Group.Finset.Basic
import Mathlib.Algebra.Order.BigOperators.Group.Finset
import Mathlib.Data.Multiset.Basic
import SingleWriter.Proofs.Plan
import SingleWriter.Proofs.Storage
import SingleWriter.Session.World

/-! Who has which connection of a world.  A connection is at rest in a pool, kept under a name, or
in the hands of someone, and in one of these places only.  `World.Sound` says that each of them is
open and has the tuning of its pool's configuration; `Deal` says how what someone has in hand
changes on the way from one world to another, and that a sound world stays sound on that way. -/

namespace SingleWriter

namespace Engine.Disk

variable {d e f : Disk}

/-- `after` comes later than `before`: a connection keeps its tuning for as long as it is open, and
one that is closed does not come back. -/
structure Since (before after : Disk) : Prop where
  next : before.nextConnection ≤ after.nextConnection
  tuning : ∀ k, k < before.nextConnection →
    after.tuning? k = before.tuning? k ∨ after.tuning? k = none

theorem Since.refl (d : Disk) : d.Since d := ⟨Nat.le_refl _, fun _ _ => .inl rfl⟩

theorem Since.trans (h : d.Since e) (h' : e.Since f) : d.Since f := by
  refine ⟨Nat.le_trans h.next h'.next, ?_⟩
  intro k hk
  rcases h'.tuning k (Nat.lt_of_lt_of_le hk h.next) with hsame | hgone
  · rw [hsame]
    exact h.tuning k hk
  · exact .inr hgone

/-- A connection that is gone stays away. -/
theorem Since.gone (h : d.Since e) {k : Nat} (hk : k < d.nextConnection)
    (hgone : d.tuning? k = none) : e.tuning? k = none := by
  rcases h.tuning k hk with hsame | hgone'
  · rw [hsame, hgone]
  · exact hgone'

theorem Numbered.lt (h : d.Numbered) {k : Nat} {t : Tuning} (hk : d.tuning? k = some t) :
    k < d.nextConnection := by
  by_contra hle
  rw [h k (Nat.not_lt.mp hle)] at hk
  cases hk

/-- The connections that an opening hands out. -/
def Opened.gives : Opened → List Nat
  | .connection c => [c]
  | _ => []

end Engine.Disk

namespace Session

open Engine

/-- A connection with the number of the target that it is for. -/
abbrev Holding := Nat × Nat

def holdings (i : Nat) (cs : List Nat) : Multiset Holding := (cs.map fun c => (i, c) : List Holding)

theorem holdings_append (i : Nat) (cs ds : List Nat) :
    holdings i (cs ++ ds) = holdings i cs + holdings i ds := by
  rw [holdings, List.map_append]
  rfl

theorem holdings_le {i : Nat} {cs ds : List Nat} (h : cs.Subperm ds) :
    holdings i cs ≤ holdings i ds :=
  Multiset.coe_le.mpr (h.map fun _ _ heq => congrArg Prod.snd heq)

/-- The connections at rest in a target's pool. -/
def Target.idle (t : Target) : List Nat := (t.database.pool.map (·.idle)).getD []

theorem Target.idle_of_pool {t : Target} {p : Pool} (h : t.database.pool = some p) :
    t.idle = p.idle := by
  rw [idle, h]
  rfl

theorem map_holdings (i : Nat) (cs : List Nat) :
    (holdings i cs).map Prod.snd = (cs : Multiset Nat) := by
  rw [holdings, Multiset.map_coe, List.map_map]
  exact congrArg _ (List.map_id' cs)

theorem mem_holdings {i : Nat} {cs : List Nat} {x : Holding} :
    x ∈ holdings i cs ↔ x.1 = i ∧ x.2 ∈ cs := by
  rw [holdings, Multiset.mem_coe, List.mem_map]
  constructor
  · rintro ⟨c, hc, rfl⟩
    exact ⟨rfl, hc⟩
  · rintro ⟨hi, hc⟩
    exact ⟨x.2, hc, Prod.ext hi.symm rfl⟩

namespace World

/-! ### Places -/

section

variable (w : World)

def configs : List DatabaseConfig := w.targets.map (·.database.config)

/-- The connections at rest in the pool of a target. -/
def idle (i : Nat) : List Nat := ((w.target? i).map (·.idle)).getD []

def resting : Multiset Holding := ∑ i ∈ Finset.range w.targets.length, holdings i (w.idle i)

def guarded : Multiset Holding := (w.guards.map (·.2) : List Holding)

/-- All connections that are for a target, when `own` are in someone's hands. -/
def lent (own : Multiset Holding) : Multiset Holding := own + w.resting + w.guarded

/-- The connections that hold a lock from outside. -/
def blocking : Multiset Nat := (w.blockers.map (·.2) : List Nat)

/-- The tasks without their deadlines. -/
def roster : List (Nat × Nat × Job) := w.tasks.map fun t => (t.id, t.target, t.job)

end

variable {w w' w₁ w₂ : World} {own gave got : Multiset Holding} {i c : Nat}
  {config : DatabaseConfig}

theorem configs_of_target {t : Target} (h : w.target? i = some t) :
    w.configs[i]? = some t.database.config := by
  rw [configs, List.getElem?_map]
  exact congrArg (Option.map _) h

theorem idle_of_target {t : Target} (h : w.target? i = some t) : w.idle i = t.idle := by
  rw [idle, h]
  rfl

theorem idle_of_none (h : w.target? i = none) : w.idle i = [] := by
  rw [idle, h]
  rfl

/-- What changes at one target only changes as much over all. -/
theorem resting_le {gave got : Multiset Holding} (hlength : w'.targets.length = w.targets.length)
    (hothers : ∀ j, j ≠ i → w'.idle j = w.idle j)
    (hi : got + holdings i (w'.idle i) ≤ gave + holdings i (w.idle i)) :
    got + w'.resting ≤ gave + w.resting := by
  by_cases hlt : i < w.targets.length
  · have hmem : i ∈ Finset.range w.targets.length := Finset.mem_range.mpr hlt
    have hrest : ∑ j ∈ (Finset.range w.targets.length).erase i, holdings j (w'.idle j) =
        ∑ j ∈ (Finset.range w.targets.length).erase i, holdings j (w.idle j) :=
      Finset.sum_congr rfl fun j hj => by rw [hothers j (Finset.ne_of_mem_erase hj)]
    rw [resting, resting, hlength, ← Finset.add_sum_erase _ _ hmem,
      ← Finset.add_sum_erase _ (fun j => holdings j (w.idle j)) hmem, hrest, ← add_assoc,
      ← add_assoc]
    exact add_le_add_left hi _
  · have hle := Nat.not_lt.mp hlt
    have hsame : w'.resting = w.resting := by
      rw [resting, resting, hlength]
      refine Finset.sum_congr rfl fun j hj => ?_
      have hj := Finset.mem_range.mp hj
      rw [hothers j (by omega)]
    rw [idle_of_none (List.getElem?_eq_none hle),
      idle_of_none (List.getElem?_eq_none (hlength ▸ hle))] at hi
    rw [hsame]
    exact add_le_add_left (by simpa [holdings] using hi) _

section

variable {f : Target → Target}

theorem idle_modify_ne (w : World) (f : Target → Target) {j : Nat} (h : j ≠ i) :
    (w.modifyTarget i f).idle j = w.idle j := by
  have htarget : (w.modifyTarget i f).target? j = w.target? j := by
    rw [target?, modifyTarget, List.getElem?_modify]
    simp only [if_neg (Ne.symm h)]
    exact Option.map_id'
  rw [World.idle, World.idle, htarget]

theorem target?_modify (w : World) (f : Target → Target) (i : Nat) :
    (w.modifyTarget i f).target? i = (w.target? i).map f := by
  rw [target?, modifyTarget, List.getElem?_modify]
  simp only [if_true]
  rfl

theorem configs_modify
    (h : ∀ t, w.target? i = some t → (f t).database.config = t.database.config) :
    (w.modifyTarget i f).configs = w.configs := by
  rw [World.configs, World.configs, modifyTarget]
  refine List.ext_getElem? fun j => ?_
  rw [List.getElem?_map, List.getElem?_map, List.getElem?_modify]
  cases ht : w.targets[j]? with
  | none => rfl
  | some t =>
    by_cases hij : i = j
    · simp [hij, h t (hij ▸ ht)]
    · simp [hij]

end

/-! ### Sound worlds -/

/-- Every connection that is for a target, with `own` in someone's hands, is open and has the
tuning of that target; nobody else has it. -/
structure Sound (w : World) (own : Multiset Holding) : Prop where
  numbered : w.disk.Numbered
  tuned : ∀ h ∈ w.lent own, ∃ config, w.configs[h.1]? = some config ∧
    w.disk.tuning? h.2 = some config.tuning
  apart : ((w.lent own).map Prod.snd + w.blocking).Nodup
  blocking : ∀ c ∈ w.blocking, c < w.disk.nextConnection

/-- Whoever has less than before still has it alone. -/
theorem Sound.mono (h : w.Sound gave) (hdisk : w'.disk = w.disk) (hconfigs : w'.configs = w.configs)
    (hlent : w'.lent got ≤ w.lent gave) (hblocking : w'.blocking ≤ w.blocking) : w'.Sound got := by
  refine ⟨hdisk ▸ h.numbered, ?_, ?_, ?_⟩
  · intro x hx
    rw [hdisk, hconfigs]
    exact h.tuned x (Multiset.mem_of_le hlent hx)
  · exact Multiset.nodup_of_le (add_le_add (Multiset.map_le_map hlent) hblocking) h.apart
  · intro x hx
    rw [hdisk]
    exact h.blocking x (Multiset.mem_of_le hblocking hx)

theorem lent_add (w : World) (gave own : Multiset Holding) :
    w.lent (gave + own) = gave + w.lent own := by
  rw [lent, lent, add_assoc, add_assoc, add_assoc]

theorem Sound.lent_lt (h : w.Sound own) {x : Holding} (hx : x ∈ w.lent own) :
    x.2 < w.disk.nextConnection := by
  obtain ⟨config, -, htuning⟩ := h.tuned x hx
  exact h.numbered.lt htuning

theorem Sound.number_lt (h : w.Sound own) {c : Nat}
    (hc : c ∈ (w.lent own).map Prod.snd + w.blocking) : c < w.disk.nextConnection := by
  rcases Multiset.mem_add.mp hc with hlent | hblocking
  · obtain ⟨x, hx, rfl⟩ := Multiset.mem_map.mp hlent
    exact h.lent_lt hx
  · exact h.blocking c hblocking

/-- New connections are opened.  Those in `more` are for a target, those in `strangers` are not. -/
theorem Sound.grow {d : Disk} (h : w.Sound own) (more : Multiset Holding)
    (strangers : List (String × Nat)) (hnext : w.disk.nextConnection ≤ d.nextConnection)
    (hnumbered : d.Numbered)
    (hsame : ∀ k, k < w.disk.nextConnection → d.tuning? k = w.disk.tuning? k)
    (htuned : ∀ x ∈ more, ∃ config, w.configs[x.1]? = some config ∧
      d.tuning? x.2 = some config.tuning)
    (hnodup : (more.map Prod.snd + (strangers.map (·.2) : List Nat)).Nodup)
    (hfresh : ∀ c ∈ more.map Prod.snd + (strangers.map (·.2) : List Nat),
      w.disk.nextConnection ≤ c ∧ c < d.nextConnection) :
    w.disk.Since d ∧
      World.Sound { w with disk := d, blockers := strangers ++ w.blockers } (more + own) := by
  have hblocking : World.blocking { w with disk := d, blockers := strangers ++ w.blockers } =
      ((strangers.map (·.2) : List Nat) : Multiset Nat) + w.blocking := by
    rw [World.blocking, World.blocking, List.map_append]
    rfl
  have hlent : World.lent { w with disk := d, blockers := strangers ++ w.blockers } (more + own) =
      more + w.lent own := w.lent_add more own
  refine ⟨⟨hnext, fun k hk => .inl (hsame k hk)⟩, hnumbered, ?_, ?_, ?_⟩
  · intro x hx
    rw [hlent, Multiset.mem_add] at hx
    rcases hx with hnew | hold
    · exact htuned x hnew
    · obtain ⟨config, hconfig, htuning⟩ := h.tuned x hold
      exact ⟨config, hconfig, (hsame _ (h.lent_lt hold)).trans htuning⟩
  · rw [hlent, hblocking, Multiset.map_add, add_add_add_comm]
    refine Multiset.nodup_add.mpr ⟨hnodup, h.apart, ?_⟩
    rw [Multiset.disjoint_left]
    intro c hnew hold
    exact Nat.not_lt.mpr (hfresh c hnew).1 (h.number_lt hold)
  · intro c hc
    rw [hblocking, Multiset.mem_add] at hc
    rcases hc with hnew | hold
    · exact (hfresh c (Multiset.mem_add.mpr (.inr hnew))).2
    · exact Nat.lt_of_lt_of_le (h.blocking c hold) hnext

/-- A connection is closed that nobody has any more. -/
theorem Sound.close {less : Multiset Holding} {bs : List (String × Nat)} (h : w.Sound own)
    (hless : w.lent less ≤ w.lent own)
    (hapart : c ::ₘ ((w.lent less).map Prod.snd + (bs.map (·.2) : List Nat)) ≤
      (w.lent own).map Prod.snd + w.blocking) :
    w.disk.Since (w.disk.close c) ∧
      World.Sound { w with disk := w.disk.close c, blockers := bs } less := by
  have hnext := w.disk.close_next c
  have hnodup := Multiset.nodup_cons.mp (Multiset.nodup_of_le hapart h.apart)
  refine ⟨⟨Nat.le_of_eq hnext.symm, ?_⟩, ?_, ?_, hnodup.2, ?_⟩
  · intro k _
    rw [Disk.tuning?_close]
    by_cases hk : k = c
    · exact .inr (if_pos hk)
    · exact .inl (if_neg hk)
  · intro k hk
    rw [hnext] at hk
    rw [Disk.tuning?_close]
    dsimp only
    split
    · rfl
    · exact h.numbered k hk
  · intro x hx
    obtain ⟨config, hconfig, htuning⟩ := h.tuned x (Multiset.mem_of_le hless hx)
    have hne : x.2 ≠ c := by
      rintro rfl
      exact hnodup.1 (Multiset.mem_add.mpr (.inl (Multiset.mem_map_of_mem Prod.snd hx)))
    refine ⟨config, hconfig, ?_⟩
    rw [Disk.tuning?_close]
    exact (if_neg hne).trans htuning
  · intro k hk
    rw [hnext]
    exact h.number_lt (Multiset.mem_of_le hapart
      (Multiset.mem_cons_of_mem (Multiset.mem_add.mpr (.inr hk))))

end World

/-! ### Deals -/

/-- On the way from `before` to `after` someone has given up `gave` and got `got`.  Whatever else
there is in someone's hands stays there, and a sound world stays sound. -/
structure Deal (gave got : Multiset Holding) (before after : World) : Prop where
  configs : after.configs = before.configs
  nextTask : after.nextTask = before.nextTask
  roster : (before.tasks.map (·.id)).Nodup → after.roster = before.roster
  sound : ∀ own, before.Sound (gave + own) →
    before.disk.Since after.disk ∧ after.Sound (got + own)

namespace Deal

open World

variable {w w' w₁ w₂ : World} {gave got mid : Multiset Holding} {i c : Nat}
  {config : DatabaseConfig}

theorem of_le (h : got ≤ gave) (w : World) : Deal gave got w w := by
  refine ⟨rfl, rfl, fun _ => rfl, ?_⟩
  intro own hsound
  refine ⟨.refl _, hsound.mono rfl rfl ?_ (le_refl _)⟩
  exact add_le_add_left (add_le_add_left (add_le_add_left h own) _) _

theorem refl (held : Multiset Holding) (w : World) : Deal held held w w := of_le (le_refl _) w

theorem ids_eq (h : w'.roster = w.roster) : w'.tasks.map (·.id) = w.tasks.map (·.id) := by
  have hids := congrArg (List.map Prod.fst) h
  rwa [World.roster, World.roster, List.map_map, List.map_map] at hids

theorem trans (h : Deal gave mid w w₁) (h' : Deal mid got w₁ w') : Deal gave got w w' where
  configs := h'.configs.trans h.configs
  nextTask := h'.nextTask.trans h.nextTask
  roster := by
    intro hnodup
    have hfirst := h.roster hnodup
    rw [← ids_eq hfirst] at hnodup
    exact (h'.roster hnodup).trans hfirst
  sound := by
    intro own hsound
    obtain ⟨hsince, hmid⟩ := h.sound own hsound
    obtain ⟨hsince', hafter⟩ := h'.sound own hmid
    exact ⟨hsince.trans hsince', hafter⟩

theorem frame (h : Deal gave got w w') (held : Multiset Holding) :
    Deal (gave + held) (got + held) w w' := by
  refine ⟨h.configs, h.nextTask, h.roster, ?_⟩
  intro own hsound
  rw [add_assoc] at hsound ⊢
  exact h.sound _ hsound

/-- Nothing changes hands. -/
theorem aside (h : Deal 0 0 w w') (held : Multiset Holding) : Deal held held w w' := by
  have hframe := h.frame held
  rwa [zero_add] at hframe

theorem gain (h : Deal 0 got w w') (held : Multiset Holding) : Deal held (got + held) w w' := by
  have hframe := h.frame held
  rwa [zero_add] at hframe

theorem lose (h : Deal gave 0 w w') (held : Multiset Holding) : Deal (gave + held) held w w' := by
  have hframe := h.frame held
  rwa [zero_add] at hframe

/-- What is given up need not be used, and what is got need not be kept. -/
theorem weaken {more less : Multiset Holding} (h : Deal gave got w w') (hmore : gave ≤ more)
    (hless : less ≤ got) : Deal more less w w' :=
  ((of_le hmore w).trans h).trans (of_le hless w')

/-- A world that has the same connections in the same places. -/
theorem of_same (hdisk : w'.disk = w.disk) (htargets : w'.targets = w.targets)
    (hguards : w'.guards = w.guards) (hblockers : w'.blockers = w.blockers)
    (hnextTask : w'.nextTask = w.nextTask)
    (hroster : (w.tasks.map (·.id)).Nodup → w'.roster = w.roster) : Deal 0 0 w w' := by
  have hconfigs : w'.configs = w.configs := by rw [World.configs, World.configs, htargets]
  refine ⟨hconfigs, hnextTask, hroster, ?_⟩
  intro own hsound
  have hlent : w'.lent (0 + own) = w.lent (0 + own) := by
    have hidle : w'.idle = w.idle := by
      funext i
      rw [World.idle, World.idle, target?, target?, htargets]
    rw [World.lent, World.lent, World.resting, World.resting, World.guarded, World.guarded,
      htargets, hguards, hidle]
  have hblocking : w'.blocking = w.blocking := by
    rw [World.blocking, World.blocking, hblockers]
  exact ⟨hdisk ▸ .refl _, hsound.mono hdisk hconfigs (le_of_eq hlent) (le_of_eq hblocking)⟩

/-- A statement has run. -/
theorem of_tuning {d : Disk} (hnext : d.nextConnection = w.disk.nextConnection)
    (htuning : d.tuning? = w.disk.tuning?) : Deal 0 0 w { w with disk := d } := by
  refine ⟨rfl, rfl, fun _ => rfl, ?_⟩
  intro own hsound
  rw [zero_add] at hsound
  refine hsound.grow 0 [] (Nat.le_of_eq hnext.symm) ?_
    (fun k _ => congrFun htuning k) (by simp) (by simp) (by simp)
  intro k hk
  rw [hnext] at hk
  rw [htuning]
  exact hsound.numbered k hk

/-- Connections get a name, or lose it. -/
theorem guards {gs : List (String × Nat × Nat)}
    (h : got + ((gs.map (·.2) : List Holding) : Multiset Holding) ≤ gave + w.guarded) :
    Deal gave got w { w with guards := gs } := by
  refine ⟨rfl, rfl, fun _ => rfl, ?_⟩
  intro own hsound
  refine ⟨.refl _, hsound.mono rfl rfl ?_ (le_refl _)⟩
  show got + own + w.resting + _ ≤ gave + own + w.resting + w.guarded
  rw [add_assoc got, add_assoc gave, add_right_comm got, add_right_comm gave]
  exact add_le_add_left h _

/-! ### Targets and pools -/

section

variable {f : Target → Target}

/-- The pool of one target changes, against connections that are given up or got. -/
theorem modify (gave got : List Nat)
    (hconfig : ∀ t, w.target? i = some t → (f t).database.config = t.database.config)
    (hnone : w.target? i = none → got = [])
    (hidle : ∀ t, w.target? i = some t → (got ++ (f t).idle).Subperm (gave ++ t.idle)) :
    Deal (holdings i gave) (holdings i got) w (w.modifyTarget i f) := by
  have hconfigs := configs_modify hconfig
  have hi : (got ++ (w.modifyTarget i f).idle i).Subperm (gave ++ w.idle i) := by
    cases ht : w.target? i with
    | none =>
      rw [idle_of_none (by rw [target?_modify, ht]; rfl), hnone ht]
      exact List.nil_subperm
    | some t =>
      rw [idle_of_target (t := f t) (by rw [target?_modify, ht]; rfl), idle_of_target ht]
      exact hidle t ht
  have hresting : holdings i got + (w.modifyTarget i f).resting ≤ holdings i gave + w.resting := by
    refine resting_le (i := i) (List.length_modify ..) (fun j hj => idle_modify_ne w f hj) ?_
    rw [← holdings_append, ← holdings_append]
    exact holdings_le hi
  refine ⟨hconfigs, rfl, fun _ => rfl, ?_⟩
  intro own hsound
  refine ⟨.refl _, hsound.mono rfl hconfigs ?_ (le_refl _)⟩
  show holdings i got + own + (w.modifyTarget i f).resting + w.guarded ≤
    holdings i gave + own + w.resting + w.guarded
  rw [add_right_comm (holdings i got) own, add_right_comm (holdings i gave) own]
  exact add_le_add_left (add_le_add_left hresting own) _

/-- A target changes, but neither its configuration nor its pool. -/
theorem modify_same (w : World) (i : Nat) (f : Target → Target)
    (hconfig : ∀ t, (f t).database.config = t.database.config)
    (hpool : ∀ t, (f t).database.pool = t.database.pool) :
    Deal 0 0 w (w.modifyTarget i f) := by
  refine modify [] [] (fun t _ => hconfig t) (fun _ => rfl) ?_
  intro t _
  rw [Target.idle, hpool t]
  exact List.Subperm.refl _

end

/-- A pool gives out connections or takes them back. -/
theorem pool {f : Pool → Pool} (gave got : List Nat) (hnone : w.pool? i = none → got = [])
    (h : ∀ p, w.pool? i = some p → (got ++ (f p).idle).Subperm (gave ++ p.idle)) :
    Deal (holdings i gave) (holdings i got) w (w.modifyPool i f) := by
  refine modify gave got (fun _ _ => rfl) ?_ ?_
  · intro ht
    exact hnone (by rw [pool?, ht]; rfl)
  · intro t ht
    have hpool : w.pool? i = t.database.pool := by rw [pool?, ht]; rfl
    cases hp : t.database.pool with
    | none =>
      have hempty : Target.idle { t with database :=
          { t.database with pool := t.database.pool.map f } } = [] := by
        rw [Target.idle, hp]
        rfl
      rw [hnone (hpool.trans hp)]
      show ([] ++ Target.idle { t with database :=
        { t.database with pool := t.database.pool.map f } }).Subperm _
      rw [hempty]
      exact List.nil_subperm
    | some p =>
      rw [Target.idle_of_pool hp, Target.idle_of_pool (p := f p)
        (show t.database.pool.map f = some (f p) by rw [hp]; rfl)]
      exact h p (hpool.trans hp)

/-- The connections at rest stay as they are. -/
theorem pool_same (w : World) (i : Nat) (f : Pool → Pool) (h : ∀ p, (f p).idle = p.idle) :
    Deal 0 0 w (w.modifyPool i f) := by
  refine pool [] [] (fun _ => rfl) ?_
  intro p _
  rw [h p]

/-! ### Opening and closing -/

/-- A connection is opened for a target, or an attempt at one fails. -/
theorem opens {d : Disk} {o : Disk.Opened} (hi : w.configs[i]? = some config)
    (h : w.disk.openConfigured config = (o, d)) :
    Deal 0 (holdings i o.gives) w { w with disk := d } := by
  refine ⟨rfl, rfl, fun _ => rfl, ?_⟩
  intro own hsound
  rw [zero_add] at hsound
  have hopens := Disk.openConfigured_opens hsound.numbered config
  rw [h] at hopens
  have hgiven (c : Nat) (hc : c ∈ o.gives) :
      c = w.disk.nextConnection ∧ d.tuning? c = some config.tuning := by
    cases o with
    | connection n =>
      obtain rfl := List.mem_singleton.mp hc
      have hn := hopens.number c rfl
      exact ⟨hn, hn ▸ hopens.own⟩
    | refused e => cases hc
    | failed e => cases hc
  refine hsound.grow _ [] hopens.next hopens.numbered
    (fun k hk => hopens.others k (Nat.ne_of_lt hk)) ?_ ?_ ?_
  · intro x hx
    obtain ⟨hx1, hx2⟩ := mem_holdings.mp hx
    exact ⟨config, hx1 ▸ hi, (hgiven _ hx2).2⟩
  · rw [map_holdings]
    cases o <;> simp [Disk.Opened.gives]
  · intro c hc
    rw [map_holdings, List.map_nil, Multiset.coe_nil, add_zero] at hc
    obtain ⟨hnumber, htuning⟩ := hgiven c hc
    exact ⟨Nat.le_of_eq hnumber.symm, hopens.numbered.lt htuning⟩

/-- A connection is closed by the one who has it. -/
theorem closes (w : World) (i c : Nat) :
    Deal (holdings i [c]) 0 w { w with disk := w.disk.close c } := by
  refine ⟨rfl, rfl, fun _ => rfl, ?_⟩
  intro own hsound
  rw [zero_add]
  refine hsound.close ?_ ?_
  · rw [w.lent_add]
    exact Multiset.le_add_left _ _
  · rw [w.lent_add, Multiset.map_add, map_holdings, add_assoc]
    exact le_refl _

/-- Someone from outside opens a connection and keeps it under a name. -/
theorem visits {d : Disk} {n : Nat} (h : w.disk.openPlain = .ok (n, d)) (name : String) :
    Deal 0 0 w { w with disk := d, blockers := (name, n) :: w.blockers } := by
  refine ⟨rfl, rfl, fun _ => rfl, ?_⟩
  intro own hsound
  rw [zero_add] at hsound
  have hjoined : w.disk.Joined n d := by
    unfold Disk.openPlain at h
    split at h
    · exact Disk.connect_joined h
    · cases h
  have hnext := hjoined.next
  have hn := hjoined.number
  refine hsound.grow (d := d) 0 [(name, n)] (hnext ▸ Nat.le_succ _) ?_ ?_
    (by simp) (by simp) ?_
  · intro k hk
    rw [hjoined.others k (by omega)]
    exact hsound.numbered k (by omega)
  · intro k hk
    exact hjoined.others k (by omega)
  · intro c hc
    obtain rfl : c = n := by simpa using hc
    omega

/-- Someone from outside closes a connection. -/
theorem leaves {n : Nat} {bs : List (String × Nat)}
    (h : n ::ₘ (bs.map (·.2) : List Nat) ≤ w.blocking) :
    Deal 0 0 w { w with disk := w.disk.close n, blockers := bs } := by
  refine ⟨rfl, rfl, fun _ => rfl, ?_⟩
  intro own hsound
  refine hsound.close (le_refl _) ?_
  rw [← Multiset.add_cons]
  exact add_le_add (le_refl _) h

/-- A connection from outside has lost its name. -/
theorem forgets {bs : List (String × Nat)}
    (h : ((bs.map (·.2) : List Nat) : Multiset Nat) ≤ w.blocking) :
    Deal 0 0 w { w with blockers := bs } := by
  refine ⟨rfl, rfl, fun _ => rfl, ?_⟩
  intro own hsound
  exact ⟨.refl _, hsound.mono rfl rfl (le_refl _) h⟩

end Deal

end Session

end SingleWriter
