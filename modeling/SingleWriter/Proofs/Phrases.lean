import Mathlib.Data.List.Forall2
import SingleWriter.Proofs.Wrapping

/-! Which messages read busy.  Three of the phrases stand for all six, and what counts is whether
one of them stands in the message up to the case of ASCII letters.  Such a part is ASCII throughout,
so no character outside ASCII is ever a letter of it, however it may look. -/

namespace SingleWriter

/-! ### The case of letters -/

namespace Text

/-- Two characters that are the same up to the case of an ASCII letter. -/
inductive Recased : Char → Char → Prop where
  | same (c : Char) : Recased c c
  | lowered {c d : Char} : 65 ≤ c.toNat → c.toNat ≤ 90 → d.toNat = c.toNat + 32 → Recased c d
  | raised {c d : Char} : 65 ≤ d.toNat → d.toNat ≤ 90 → c.toNat = d.toNat + 32 → Recased c d

theorem toNat_toLower (c : Char) :
    c.toLower.toNat = if 65 ≤ c.toNat ∧ c.toNat ≤ 90 then c.toNat + 32 else c.toNat := by
  have hiff : (c.val ≥ 'A'.val ∧ c.val ≤ 'Z'.val) ↔ 65 ≤ c.toNat ∧ c.toNat ≤ 90 := by
    rw [ge_iff_le, UInt32.le_iff_toNat_le, UInt32.le_iff_toNat_le]
    rfl
  unfold Char.toLower
  by_cases h : 65 ≤ c.toNat ∧ c.toNat ≤ 90
  · rw [dif_pos (hiff.mpr h), if_pos h]
    show (c.val + ('a'.val - 'A'.val)).toNat = c.toNat + 32
    rw [UInt32.toNat_add]
    have hshift : ('a'.val - 'A'.val).toNat = 32 := by decide
    rw [hshift]
    exact Nat.mod_eq_of_lt (by have := h.2; show c.toNat + 32 < _; omega)
  · rw [dif_neg (mt hiff.mp h), if_neg h]

theorem recased_iff {c d : Char} : Recased c d ↔ c.toLower = d.toLower := by
  rw [← Char.toNat_inj, toNat_toLower, toNat_toLower]
  constructor
  · intro h
    cases h with
    | same => rfl
    | lowered hlow hhigh hd =>
      rw [if_pos ⟨hlow, hhigh⟩, if_neg (by omega), hd]
    | raised hlow hhigh hc =>
      rw [if_neg (by omega), if_pos ⟨hlow, hhigh⟩, hc]
  · intro h
    split at h
    · rename_i hc
      split at h
      · obtain rfl : c = d := Char.toNat_inj.mp (by omega)
        exact .same c
      · exact .lowered hc.1 hc.2 h.symm
    · split at h
      · rename_i hd
        exact .raised hd.1 hd.2 h
      · obtain rfl : c = d := Char.toNat_inj.mp h
        exact .same c

/-- Texts are the same up to case if a function does so that gives the characters that are the same
up to case, and no others, one image. -/
theorem forall₂_recased_iff {f : Char → Char} (hf : ∀ c d, Recased c d ↔ f c = f d)
    {cs ds : List Char} : List.Forall₂ Recased cs ds ↔ cs.map f = ds.map f := by
  have hrecased : Recased = fun c d => f c = f d := by
    funext c d
    exact propext (hf c d)
  rw [hrecased, ← List.forall₂_eq_eq_eq, List.forall₂_map_left_iff, List.forall₂_map_right_iff]

theorem recased_texts_iff {cs ds : List Char} :
    List.Forall₂ Recased cs ds ↔ lower cs = lower ds := forall₂_recased_iff fun _ _ => recased_iff

/-- Only an ASCII character is the same as an ASCII character up to case. -/
theorem Recased.ascii {c d : Char} (h : Recased c d) (hd : d.toNat < 128) : c.toNat < 128 := by
  cases h with
  | same => exact hd
  | lowered | raised => omega

end Text

namespace Busy

open Text

/-! ### Three phrases -/

/-- The phrases that no other one is part of. -/
def words : List String := ["locked", "busy", "sql statements in progress"]

/-- Part of a message says one of the words, whatever the case of its ASCII letters. -/
def Says (part : List Char) : Prop := ∃ w ∈ words, List.Forall₂ Recased part w.toList

theorem word_of_phrase : ∀ p ∈ phrases, ∃ w ∈ words, w.toList <:+: p.toList := by decide

theorem words_subset : words ⊆ phrases := by decide

theorem lower_word : ∀ w ∈ words, lower w.toList = w.toList := by decide

theorem word_ascii : ∀ w ∈ words, (w.toList.all fun c => c.toNat < 128) = true := by decide

theorem readsBusy_iff_word {m : String} :
    readsBusy m = true ↔ ∃ w ∈ words, w.toList <:+: lower m.toList := by
  rw [readsBusy_iff]
  constructor
  · rintro ⟨p, hp, hin⟩
    obtain ⟨w, hw, hpart⟩ := word_of_phrase p hp
    exact ⟨w, hw, hpart.trans hin⟩
  · rintro ⟨w, hw, hin⟩
    exact ⟨w, words_subset hw, hin⟩

theorem readsBusy_iff_spoken {m : String} :
    readsBusy m = true ↔ ∃ part, part <:+: m.toList ∧ Says part := by
  rw [readsBusy_iff_word]
  constructor
  · rintro ⟨w, hw, hin⟩
    obtain ⟨part, hpart, heq⟩ := List.infix_map_iff.mp hin
    refine ⟨part, hpart, w, hw, recased_texts_iff.mpr ?_⟩
    rw [lower_word w hw]
    exact heq.symm
  · rintro ⟨part, hpart, w, hw, hsame⟩
    refine ⟨w, hw, ?_⟩
    rw [← lower_word w hw, ← recased_texts_iff.mp hsame]
    exact hpart.map _

theorem readsBusy_recased {m m' : String} (h : List.Forall₂ Recased m.toList m'.toList) :
    readsBusy m = readsBusy m' := by
  rw [readsBusy, readsBusy, recased_texts_iff.mp h]

theorem readsBusy_within {m : String} (h : readsBusy m = true) (before after : String) :
    readsBusy (before ++ m ++ after) = true := by
  obtain ⟨part, hpart, hsays⟩ := readsBusy_iff_spoken.mp h
  refine readsBusy_iff_spoken.mpr ⟨part, hpart.trans ?_, hsays⟩
  rw [String.toList_append, String.toList_append]
  exact List.infix_append ..

/-! ### Characters outside ASCII -/

theorem Says.ascii {part : List Char} (h : Says part) : ∀ c ∈ part, c.toNat < 128 := by
  obtain ⟨w, hw, hsame⟩ := h
  have hascii : ∀ d ∈ w.toList, d.toNat < 128 := by simpa using word_ascii w hw
  generalize w.toList = cs at hsame hascii
  induction hsame with
  | nil => simp
  | cons hcd _ ih =>
    intro c hc
    rcases List.mem_cons.mp hc with rfl | hc
    · exact hcd.ascii (hascii _ List.mem_cons_self)
    · exact ih (fun d hd => hascii d (List.mem_cons_of_mem _ hd)) c hc

/-- A part that lies across a character lies before it, lies after it, or has the character. -/
theorem infix_across {part before after : List Char} {c : Char}
    (h : part <:+: before ++ c :: after) (hc : c ∉ part) :
    part <:+: before ∨ part <:+: after := by
  rcases List.infix_append_iff.mp h with hin | hin | ⟨s, t, rfl, hs, ht⟩
  · exact .inl hin
  · rcases List.infix_cons_iff.mp hin with hstart | hin
    · cases part with
      | nil => exact .inl List.nil_infix
      | cons d part =>
        obtain ⟨rfl, -⟩ := List.cons_prefix_cons.mp hstart
        exact absurd List.mem_cons_self hc
    · exact .inr hin
  · cases t with
    | nil =>
      rw [List.append_nil]
      exact .inl hs.isInfix
    | cons d t =>
      obtain ⟨rfl, -⟩ := List.cons_prefix_cons.mp ht
      exact absurd (List.mem_append_right _ List.mem_cons_self) hc

theorem readsBusy_across {c : Char} (hc : 128 ≤ c.toNat) (before after : String) :
    readsBusy (before ++ String.singleton c ++ after) = (readsBusy before || readsBusy after) := by
  rw [Bool.eq_iff_iff, Bool.or_eq_true, readsBusy_iff_spoken, readsBusy_iff_spoken,
    readsBusy_iff_spoken]
  have htext : (before ++ String.singleton c ++ after).toList =
      before.toList ++ c :: after.toList := by
    simp [String.toList_append]
  rw [htext]
  constructor
  · rintro ⟨part, hpart, hsays⟩
    have hnot : c ∉ part := fun hmem => by
      have := hsays.ascii c hmem
      omega
    rcases infix_across hpart hnot with hin | hin
    · exact .inl ⟨part, hin, hsays⟩
    · exact .inr ⟨part, hin, hsays⟩
  · rintro (⟨part, hin, hsays⟩ | ⟨part, hin, hsays⟩)
    · exact ⟨part, hin.trans (List.prefix_append _ _).isInfix, hsays⟩
    · refine ⟨part, hin.trans ?_, hsays⟩
      exact ((List.suffix_cons _ _).trans (List.suffix_append _ _)).isInfix

/-- A message reads busy exactly if a part of it is one of the three words up to the case of ASCII
letters.  So the case of its ASCII letters does not matter, and neither does what stands before and
after it; and a character outside ASCII parts a message in two, one of which has to read busy on its
own. -/
theorem readsBusy_decided (m : String) :
    (readsBusy m = true ↔ ∃ part, part <:+: m.toList ∧ Says part) ∧
      (∀ m' : String, List.Forall₂ Recased m.toList m'.toList → readsBusy m' = readsBusy m) ∧
      (readsBusy m = true → ∀ before after, readsBusy (before ++ m ++ after) = true) ∧
      ∀ (before after : String) (c : Char), m = before ++ String.singleton c ++ after →
        128 ≤ c.toNat → readsBusy m = (readsBusy before || readsBusy after) := by
  refine ⟨readsBusy_iff_spoken, fun m' h => (readsBusy_recased h).symm, readsBusy_within, ?_⟩
  rintro before after c rfl hc
  exact readsBusy_across hc before after

/-- The Kelvin sign is no letter of a word, although it has a letter of one for its lower case. -/
example : readsBusy "DataBase is LOCKED" = true ∧ readsBusy "database is loc\u212Aed" = false := by
  decide

end Busy

end SingleWriter
