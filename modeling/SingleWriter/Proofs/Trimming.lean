import Mathlib.Data.List.DropRight
import SingleWriter.Proofs.Phrases

/-! What trimming leaves of a text.  Every text has one core: it stands between two runs of blanks
and has no blank at either end.  Blanks are no letters, so it makes no difference whether the blanks
are taken off before or after the case of the letters is changed. -/

namespace SingleWriter.Text

/-! ### The core of a text -/

/-- A text of nothing but blanks. -/
def Blank (cs : List Char) : Prop := ∀ c ∈ cs, isBlank c = true

instance (cs : List Char) : Decidable (Blank cs) := List.decidableBAll _ _

/-- `core` is what is left of a text without the blanks around it. -/
structure Core (cs core : List Char) : Prop where
  between : ∃ before after, Blank before ∧ Blank after ∧ cs = before ++ core ++ after
  first : ∀ c, core.head? = some c → isBlank c = false
  last : ∀ c, core.getLast? = some c → isBlank c = false

variable {cs ds core before after : List Char} {c : Char}

theorem Blank.append (hb : Blank before) (ha : Blank after) : Blank (before ++ after) :=
  List.forall_mem_append.mpr ⟨hb, ha⟩

theorem Blank.reverse (hb : Blank before) : Blank before.reverse := fun c hc =>
  hb c (List.mem_reverse.mp hc)

theorem dropWhile_blank (hb : Blank before) (hcs : ∀ c, cs.head? = some c → isBlank c = false) :
    (before ++ cs).dropWhile isBlank = cs := by
  rw [List.dropWhile_append_of_pos hb]
  cases cs with
  | nil => rfl
  | cons c cs => exact List.dropWhile_cons_of_neg (by simp [hcs c rfl])

theorem head?_dropWhile_blank (h : (cs.dropWhile isBlank).head? = some c) : isBlank c = false := by
  have hnot := List.head?_dropWhile_not isBlank cs
  rwa [h] at hnot

theorem trim_core (cs : List Char) : Core cs (trim cs) := by
  have hrest : trim cs ++ (cs.dropWhile isBlank).rtakeWhile isBlank = cs.dropWhile isBlank :=
    List.rdropWhile_append_rtakeWhile
  refine ⟨⟨cs.takeWhile isBlank, (cs.dropWhile isBlank).rtakeWhile isBlank,
    fun c => List.mem_takeWhile_imp, fun c => List.mem_rtakeWhile_imp, ?_⟩, fun c hc => ?_,
    fun c hc => ?_⟩
  · rw [List.append_assoc, hrest, List.takeWhile_append_dropWhile]
  · have hhead : (cs.dropWhile isBlank).head? = some c := by
      rw [← hrest, List.head?_append, hc, Option.some_or]
    exact head?_dropWhile_blank hhead
  · rw [trim, List.getLast?_reverse] at hc
    exact head?_dropWhile_blank hc

/-- A text has no other core than the one that trimming leaves. -/
theorem Core.trim_eq (h : Core cs core) : trim cs = core := by
  obtain ⟨⟨before, after, hb, ha, rfl⟩, hfirst, hlast⟩ := h
  cases core with
  | nil =>
    have hall := List.dropWhile_eq_nil_iff.mpr (hb.append ha)
    rw [List.append_nil, trim, hall]
    rfl
  | cons d core =>
    have hfront : (before ++ (d :: core) ++ after).dropWhile isBlank = d :: core ++ after := by
      rw [List.append_assoc]
      exact dropWhile_blank hb hfirst
    rw [trim, hfront, List.reverse_append, dropWhile_blank ha.reverse, List.reverse_reverse]
    intro c hc
    rw [List.head?_reverse] at hc
    exact hlast c hc

theorem core_iff : Core cs core ↔ trim cs = core := ⟨Core.trim_eq, fun h => h ▸ trim_core cs⟩

theorem Core.pad (h : Core cs core) (hb : Blank before) (ha : Blank after) :
    Core (before ++ cs ++ after) core := by
  obtain ⟨⟨b, a, hb', ha', rfl⟩, hfirst, hlast⟩ := h
  refine ⟨⟨before ++ b, a ++ after, hb.append hb', ha'.append ha, ?_⟩, hfirst, hlast⟩
  simp only [List.append_assoc]

/-! ### What stays in the core -/

theorem Core.mem (h : Core cs core) (hmem : c ∈ cs) (hc : isBlank c = false) : c ∈ core := by
  obtain ⟨⟨b, a, hb, ha, rfl⟩, -, -⟩ := h
  have hnot {ds : List Char} (hds : Blank ds) : c ∉ ds := fun hmem => by simp [hds c hmem] at hc
  rw [List.mem_append, List.mem_append] at hmem
  exact (hmem.resolve_right (hnot ha)).resolve_left (hnot hb)

/-- Whatever has a character that is no blank on either side of it is in the core, blanks too. -/
theorem Core.mem_inside (h : Core (before ++ c :: after) core)
    (hb : ∃ d ∈ before, isBlank d = false) (ha : ∃ d ∈ after, isBlank d = false) : c ∈ core := by
  obtain ⟨⟨b, a, hb', ha', heq⟩, -, -⟩ := h
  obtain ⟨d, hd, hdblank⟩ := hb
  obtain ⟨e, he, heblank⟩ := ha
  rw [List.append_assoc, List.append_eq_append_iff] at heq
  rcases heq with ⟨l, rfl, -⟩ | ⟨l, rfl, hrest⟩
  · simp [hb' d (List.mem_append_left l hd)] at hdblank
  · rcases List.append_eq_append_iff.mp hrest with ⟨r, -, rfl⟩ | ⟨r, rfl, hr⟩
    · simp [ha' e (by simp [he])] at heblank
    · cases r with
      | nil =>
        rw [List.nil_append] at hr
        simp [ha' e (hr ▸ List.mem_cons_of_mem c he)] at heblank
      | cons x r =>
        obtain ⟨rfl, -⟩ := List.cons.inj hr
        simp

/-! ### The case of letters -/

theorem toNat_toUpper (c : Char) :
    c.toUpper.toNat = if 97 ≤ c.toNat ∧ c.toNat ≤ 122 then c.toNat - 32 else c.toNat := by
  have hiff : (c.val ≥ 'a'.val ∧ c.val ≤ 'z'.val) ↔ 97 ≤ c.toNat ∧ c.toNat ≤ 122 := by
    rw [ge_iff_le, UInt32.le_iff_toNat_le, UInt32.le_iff_toNat_le]
    rfl
  unfold Char.toUpper
  by_cases h : 97 ≤ c.toNat ∧ c.toNat ≤ 122
  · rw [dif_pos (hiff.mpr h), if_pos h]
    show (c.val + ('A'.val - 'a'.val)).toNat = c.toNat - 32
    rw [UInt32.toNat_add]
    have hshift : ('A'.val - 'a'.val).toNat = 2 ^ 32 - 32 := by decide
    rw [hshift]
    show (c.toNat + (2 ^ 32 - 32)) % 2 ^ 32 = c.toNat - 32
    omega
  · rw [dif_neg (mt hiff.mp h), if_neg h]

theorem recased_toUpper (c : Char) : Recased c c.toUpper := by
  have hupper := toNat_toUpper c
  split at hupper
  · rename_i hc
    exact .raised (by omega) (by omega) (by omega)
  · rw [Char.toNat_inj.mp hupper]
    exact .same c

theorem Recased.toUpper_eq {d : Char} (h : Recased c d) : c.toUpper = d.toUpper := by
  rw [← Char.toNat_inj, toNat_toUpper, toNat_toUpper]
  cases h with
  | same => rfl
  | lowered hlow hhigh hd =>
    rw [if_neg (by omega), if_pos (by omega), hd]
    omega
  | raised hlow hhigh hc =>
    rw [if_pos (by omega), if_neg (by omega), hc]
    omega

theorem recased_iff_upper : List.Forall₂ Recased cs ds ↔ upper cs = upper ds := by
  refine forall₂_recased_iff fun c d => ⟨Recased.toUpper_eq, fun h => ?_⟩
  rw [recased_iff, recased_iff.mp (recased_toUpper c), h, recased_iff.mp (recased_toUpper d)]

/-- No blank lies between the first upper and the last lower case letter. -/
theorem isBlank_eq_false (hlow : 65 ≤ c.toNat) (hhigh : c.toNat ≤ 122) : isBlank c = false := by
  rw [Bool.eq_false_iff]
  intro h
  simp [isBlank] at h
  omega

theorem Recased.isBlank_eq {d : Char} (h : Recased c d) : isBlank c = isBlank d := by
  cases h with
  | same => rfl
  | lowered => rw [isBlank_eq_false (by omega) (by omega), isBlank_eq_false (by omega) (by omega)]
  | raised => rw [isBlank_eq_false (by omega) (by omega), isBlank_eq_false (by omega) (by omega)]

theorem trim_upper (cs : List Char) : trim (upper cs) = upper (trim cs) := by
  have hsame : isBlank ∘ Char.toUpper = isBlank :=
    funext fun c => (recased_toUpper c).isBlank_eq.symm
  simp only [trim, upper, List.dropWhile_map, ← List.map_reverse, hsame]

theorem trim_recased (h : List.Forall₂ Recased cs ds) :
    List.Forall₂ Recased (trim cs) (trim ds) := by
  rw [recased_iff_upper] at h ⊢
  rw [← trim_upper, h, trim_upper]

end SingleWriter.Text
