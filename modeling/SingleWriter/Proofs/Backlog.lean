import Mathlib.Algebra.Group.Nat.Defs
import Mathlib.Order.Bounds.Basic
import SingleWriter.Stream

/-! What a reader of a channel has before it.  The history of a channel lists all events that were
ever published, and the backlog of a cursor is what comes from the cursor on.  A look at the channel
takes the next event off the backlog, or all that is too old to be kept (`receive_cons`,
`receive_lagged`).  `Walk` says what a reader is told while events come in, and `Walk.covers` that
its answers account for everything it has left behind. -/

namespace SingleWriter

namespace Channel

variable {α : Type} {c : Channel α} {history : List α}

/-! ### The size of a channel -/

theorem sizeFor_isLeast (capacity : Nat) :
    IsLeast {b | max 1 capacity ≤ b ∧ ∃ k, b = 2 ^ k} (sizeFor capacity) := by
  simp only [sizeFor, Nat.one_shiftLeft]
  split
  · rename_i h
    exact ⟨⟨by omega, 0, rfl⟩, fun b hb => by have := hb.1; omega⟩
  · rename_i h
    have hone : capacity - 1 ≠ 0 := by omega
    have hlt : capacity - 1 < 2 ^ ((capacity - 1).log2 + 1) := Nat.lt_log2_self
    refine ⟨⟨by omega, _, rfl⟩, ?_⟩
    rintro b ⟨hb, k, rfl⟩
    have hk : (capacity - 1).log2 < k := (Nat.log2_lt hone).mpr (by omega)
    exact Nat.pow_le_pow_right (by decide) hk

theorem le_sizeFor (capacity : Nat) : capacity ≤ sizeFor capacity :=
  (Nat.le_max_right 1 capacity).trans (sizeFor_isLeast capacity).1.1

/-! ### Histories -/

/-- `history` lists all events that were ever published on the channel, the oldest first. -/
structure Holds (c : Channel α) (history : List α) : Prop where
  published : c.published = history.length
  recent : c.recent = history.reverse.take c.size

theorem new_holds (capacity : Nat) : (new capacity : Channel α).Holds [] := ⟨rfl, by simp [new]⟩

theorem Holds.publish (h : c.Holds history) (e : α) : (c.publish e).Holds (history ++ [e]) := by
  refine ⟨by simp [Channel.publish, h.published], ?_⟩
  simp only [Channel.publish, h.recent, List.reverse_append, List.reverse_singleton,
    List.singleton_append]
  cases c.size with
  | zero => rfl
  | succ n => simp [List.take_take]

theorem Holds.unread (h : c.Holds history) (at_ : Cursor) :
    c.unread at_ = (history.drop at_.next).length := by
  rw [Channel.unread, h.published, List.length_drop]

/-! ### Looks -/

theorem Holds.receive_nil (h : c.Holds history) {at_ : Cursor} (hnil : history.drop at_.next = [])
    (alive : Bool) : c.receive alive at_ = (if alive then .empty else .closed, at_) := by
  simp [receive, h.unread, hnil]

/-- A reader that is not too far behind gets the next event. -/
theorem Holds.receive_cons (h : c.Holds history) {at_ : Cursor} {e : α} {rest : List α}
    (hcons : history.drop at_.next = e :: rest) (hle : rest.length < c.size) (alive : Bool) :
    c.receive alive at_ = (.event e, ⟨at_.next + 1⟩) := by
  have hlen : history.length - at_.next = rest.length + 1 := by
    rw [← List.length_drop, hcons, List.length_cons]
  have hbehind : c.unread at_ = rest.length + 1 := by rw [h.unread, hcons, List.length_cons]
  have hrecent : c.recent[rest.length]? = some e := by
    have hlast : history.length - 1 - rest.length = at_.next := by omega
    rw [h.recent, List.getElem?_take_of_lt hle, List.getElem?_reverse (by omega), hlast,
      ← List.head?_drop, hcons, List.head?_cons]
  simp only [receive, hbehind, Nat.add_one_sub_one, hrecent]
  rw [if_neg (by omega), if_neg (by omega)]

/-- A reader that is too far behind loses the oldest events, and is told how many. -/
theorem Holds.receive_lagged (h : c.Holds history) {at_ : Cursor} {lost kept : List α}
    (happend : history.drop at_.next = lost ++ kept) (hlost : lost ≠ [])
    (hkept : kept.length = c.size) (alive : Bool) :
    c.receive alive at_ = (.lagged lost.length, ⟨at_.next + lost.length⟩) := by
  have hpos : 0 < lost.length := List.length_pos_iff.mpr hlost
  have hbehind : c.unread at_ = lost.length + c.size := by
    rw [h.unread, happend, List.length_append, hkept]
  have hnext : c.published - c.size = at_.next + lost.length := by
    rw [Channel.unread] at hbehind
    omega
  simp only [receive, hbehind, Nat.add_sub_cancel, hnext]
  rw [if_neg (by omega), if_pos (by omega)]

/-- What a look can find before it: nothing, few enough events to be kept, or more than that. -/
theorem backlog_cases (size : Nat) (backlog : List α) :
    backlog = [] ∨ (∃ e rest, backlog = e :: rest ∧ rest.length < size) ∨
      ∃ lost kept, backlog = lost ++ kept ∧ lost ≠ [] ∧ kept.length = size := by
  by_cases hle : backlog.length ≤ size
  · cases backlog with
    | nil => exact .inl rfl
    | cons e rest => exact .inr (.inl ⟨e, rest, rfl, hle⟩)
  · refine .inr (.inr ⟨_, _, (List.take_append_drop (backlog.length - size) backlog).symm, ?_, ?_⟩)
    · intro hnil
      have := congrArg List.length hnil
      simp only [List.length_take, List.length_nil] at this
      omega
    · rw [List.length_drop]
      omega

end Channel

/-! ### Readers -/

namespace Reader

/-- What happens as far as a reader can tell: an event is published, or the reader looks, while more
events may come or not, and is told something. -/
inductive Note (α : Type) where
  | published (e : α)
  | told (alive : Bool) (r : Received α)

section

variable {α : Type} {size : Nat} {wanted : α → Bool}

/-- The notes of a reader that goes through what is published, one event after the other, and what
it has before it in the beginning and in the end.  The channel keeps `size` events.  A look passes
over events that are not wanted until there is something to tell. -/
inductive Walk (size : Nat) (wanted : α → Bool) : List α → List (Note α) → List α → Prop
  | stop (backlog : List α) : Walk size wanted backlog [] backlog
  | published {backlog left : List α} {e : α} {notes : List (Note α)} :
      Walk size wanted (backlog ++ [e]) notes left →
      Walk size wanted backlog (.published e :: notes) left
  | passed {rest left : List α} {e : α} {alive : Bool} {r : Received α} {notes : List (Note α)} :
      rest.length < size → wanted e = false →
      Walk size wanted rest (.told alive r :: notes) left →
      Walk size wanted (e :: rest) (.told alive r :: notes) left
  | event {rest left : List α} {e : α} {alive : Bool} {notes : List (Note α)} :
      rest.length < size → wanted e = true → Walk size wanted rest notes left →
      Walk size wanted (e :: rest) (.told alive (.event e) :: notes) left
  | lagged {lost kept left : List α} {alive : Bool} {notes : List (Note α)} :
      lost ≠ [] → kept.length = size → Walk size wanted kept notes left →
      Walk size wanted (lost ++ kept) (.told alive (.lagged lost.length) :: notes) left
  | empty {left : List α} {notes : List (Note α)} : Walk size wanted [] notes left →
      Walk size wanted [] (.told true .empty :: notes) left
  | closed {left : List α} {notes : List (Note α)} : Walk size wanted [] notes left →
      Walk size wanted [] (.told false .closed :: notes) left

theorem Walk.nothing {left : List α} {notes : List (Note α)} (alive : Bool)
    (h : Walk size wanted [] notes left) :
    Walk size wanted [] (.told alive (if alive then .empty else .closed) :: notes) left := by
  cases alive with
  | true => exact .empty h
  | false => exact .closed h

/-- The answers of a reader account for the events that it has left behind: each is told, or counted
as lost with those around it, or not wanted. -/
inductive Covers (wanted : α → Bool) : List (Received α) → List α → Prop
  | nil : Covers wanted [] []
  | passed {rs : List (Received α)} {e : α} {es : List α} : wanted e = false →
      Covers wanted rs es → Covers wanted rs (e :: es)
  | event {rs : List (Received α)} {e : α} {es : List α} : wanted e = true →
      Covers wanted rs es → Covers wanted (.event e :: rs) (e :: es)
  | lagged {rs : List (Received α)} {es : List α} (lost : List α) : Covers wanted rs es →
      Covers wanted (.lagged lost.length :: rs) (lost ++ es)
  | empty {rs : List (Received α)} {es : List α} : Covers wanted rs es →
      Covers wanted (.empty :: rs) es
  | closed {rs : List (Received α)} {es : List α} : Covers wanted rs es →
      Covers wanted (.closed :: rs) es

def Note.event? : Note α → Option α
  | .published e => some e
  | .told _ _ => none

def Note.answer? : Note α → Option (Received α)
  | .published _ => none
  | .told _ r => some r

/-- The events that were published meanwhile. -/
def publications (notes : List (Note α)) : List α := notes.filterMap Note.event?

def answers (notes : List (Note α)) : List (Received α) := notes.filterMap Note.answer?

/-- What was before a reader and what has come in is what it has left behind and what is left. -/
theorem Walk.covers {backlog left : List α} {notes : List (Note α)}
    (h : Walk size wanted backlog notes left) :
    ∃ seen, backlog ++ publications notes = seen ++ left ∧ Covers wanted (answers notes) seen := by
  induction h with
  | stop backlog => exact ⟨[], by simp [publications], .nil⟩
  | published _ ih =>
    obtain ⟨seen, happend, hcovers⟩ := ih
    exact ⟨seen, by simpa [publications, Note.event?] using happend, hcovers⟩
  | @passed _ _ e _ _ _ _ hunwanted _ ih =>
    obtain ⟨seen, happend, hcovers⟩ := ih
    refine ⟨e :: seen, ?_, .passed hunwanted hcovers⟩
    rw [List.cons_append, happend, List.cons_append]
  | @event _ _ e _ _ _ hwanted _ ih =>
    obtain ⟨seen, happend, hcovers⟩ := ih
    exact ⟨e :: seen, congrArg (e :: ·) happend, .event hwanted hcovers⟩
  | @lagged lost _ _ _ _ _ _ _ ih =>
    obtain ⟨seen, happend, hcovers⟩ := ih
    refine ⟨lost ++ seen, ?_, .lagged lost hcovers⟩
    rw [List.append_assoc, List.append_assoc]
    exact congrArg (lost ++ ·) happend
  | empty _ ih =>
    obtain ⟨seen, happend, hcovers⟩ := ih
    exact ⟨seen, happend, .empty hcovers⟩
  | closed _ ih =>
    obtain ⟨seen, happend, hcovers⟩ := ih
    exact ⟨seen, happend, .closed hcovers⟩

/-- The events that were told. -/
def delivered (rs : List (Received α)) : List α :=
  rs.filterMap fun
    | .event e => some e
    | _ => none

/-- How many events were counted as lost. -/
def lost : List (Received α) → Nat
  | [] => 0
  | .lagged n :: rs => n + lost rs
  | _ :: rs => lost rs

/-- Without unwanted events every event left behind is told or counted. -/
theorem Covers.count {rs : List (Received α)} {seen : List α}
    (h : Covers (fun _ => true) rs seen) : (delivered rs).length + lost rs = seen.length := by
  induction h with
  | nil => rfl
  | passed hunwanted => cases hunwanted
  | event _ _ ih =>
    simp only [delivered, lost, List.filterMap_cons, List.length_cons] at ih ⊢
    omega
  | lagged _ _ ih =>
    simp only [delivered, lost, List.filterMap_cons, List.length_append] at ih ⊢
    omega
  | empty _ ih | closed _ ih => simpa [delivered, lost] using ih

/-- A walk that goes on. -/
theorem Walk.append {backlog between left : List α} {notes notes' : List (Note α)}
    (h : Walk size wanted backlog notes between) (h' : Walk size wanted between notes' left) :
    Walk size wanted backlog (notes ++ notes') left := by
  induction h with
  | stop => exact h'
  | published _ ih => exact .published (ih h')
  | passed hlt hunwanted _ ih => exact .passed hlt hunwanted (ih h')
  | event hlt hwanted _ ih => exact .event hlt hwanted (ih h')
  | lagged hlost hkept _ ih => exact .lagged hlost hkept (ih h')
  | empty _ ih => exact .empty (ih h')
  | closed _ ih => exact .closed (ih h')

/-- A reader loses nothing on a channel that has room for all that there is to read. -/
theorem Walk.keeps {backlog left : List α} {notes : List (Note α)}
    (h : Walk size wanted backlog notes left)
    (hroom : backlog.length + (publications notes).length ≤ size) (n : Nat) :
    .lagged n ∉ answers notes := by
  induction h with
  | stop => simp [answers]
  | published _ ih =>
    refine ih ?_
    simp only [publications, List.filterMap_cons, Note.event?, List.length_cons,
      List.length_append, List.length_nil] at hroom ⊢
    omega
  | passed _ _ _ ih =>
    refine ih ?_
    simp only [List.length_cons] at hroom
    omega
  | event _ _ _ ih =>
    have hnot := ih (Nat.le_trans (Nat.add_le_add_right (Nat.le_succ _) _) hroom)
    simpa [answers, Note.answer?] using hnot
  | lagged hlost hkept =>
    have := List.length_pos_iff.mpr hlost
    simp only [List.length_append] at hroom
    omega
  | empty _ ih | closed _ ih =>
    have hnot := ih hroom
    simpa [answers, Note.answer?] using hnot

/-- A reader that loses nothing is told just what it wants of the events that it leaves behind. -/
theorem Covers.delivered {rs : List (Received α)} {seen : List α} (h : Covers wanted rs seen)
    (hkeeps : ∀ n, .lagged n ∉ rs) : Reader.delivered rs = seen.filter wanted := by
  induction h with
  | nil => rfl
  | passed hunwanted _ ih =>
    rw [List.filter_cons_of_neg (by simp [hunwanted])]
    exact ih hkeeps
  | event hwanted _ ih =>
    rw [List.filter_cons_of_pos hwanted, ← ih fun n hn => hkeeps n (List.mem_cons_of_mem _ hn)]
    rfl
  | lagged lost => exact absurd List.mem_cons_self (hkeeps lost.length)
  | empty _ ih | closed _ ih => exact ih fun n hn => hkeeps n (List.mem_cons_of_mem _ hn)

/-- What a look tells a reader, and what of its backlog is passed over. -/
structure Tells (size : Nat) (wanted : α → Bool) (alive : Bool) (backlog : List α)
    (r : Received α) : Prop where
  event : ∀ e, r = .event e ↔ backlog.length ≤ size ∧ backlog.find? wanted = some e
  lagged : ∀ n, r = .lagged n ↔ size < backlog.length ∧ n = backlog.length - size
  empty : r = .empty ↔ backlog.length ≤ size ∧ (∀ e ∈ backlog, wanted e = false) ∧ alive = true
  closed : r = .closed ↔
    backlog.length ≤ size ∧ (∀ e ∈ backlog, wanted e = false) ∧ alive = false

theorem Walk.tells {backlog left : List α} {alive : Bool} {r : Received α} {notes : List (Note α)}
    (h : Walk size wanted backlog (.told alive r :: notes) left) :
    Tells size wanted alive backlog r := by
  generalize hns : Note.told alive r :: notes = ns at h
  induction h with
  | stop | published => cases hns
  | passed hlt hunwanted _ ih =>
    have hrest := ih hns
    cases hns
    refine ⟨fun e => ?_, fun n => ?_, ?_, ?_⟩
    · rw [hrest.event, List.find?_cons_of_neg (by simp [hunwanted]), List.length_cons]
      exact and_congr_left fun _ => by omega
    · rw [hrest.lagged, List.length_cons]
      omega
    · rw [hrest.empty, List.length_cons, List.forall_mem_cons]
      simp only [hunwanted, true_and]
      exact and_congr_left fun _ => by omega
    · rw [hrest.closed, List.length_cons, List.forall_mem_cons]
      simp only [hunwanted, true_and]
      exact and_congr_left fun _ => by omega
  | @event rest _ e _ _ hlt hwanted =>
    cases hns
    have hle : (e :: rest).length ≤ size := hlt
    refine ⟨fun e' => ?_, fun n => ?_, ?_, ?_⟩
    · rw [List.find?_cons_of_pos hwanted, and_iff_right hle, Received.event.injEq,
        Option.some.injEq]
    · exact iff_of_false (by simp) fun h => absurd h.1 (Nat.not_lt.mpr hle)
    · simp [hwanted]
    · simp [hwanted]
  | @lagged lost kept _ _ _ hlost hkept =>
    cases hns
    have hlong : size < (lost ++ kept).length := by
      have := List.length_pos_iff.mpr hlost
      simp only [List.length_append]
      omega
    refine ⟨fun e => ?_, fun n => ?_, ?_, ?_⟩
    · exact iff_of_false (by simp) fun h => absurd h.1 (Nat.not_le.mpr hlong)
    · rw [and_iff_right hlong, List.length_append, hkept, Nat.add_sub_cancel,
        Received.lagged.injEq]
      exact eq_comm
    · exact iff_of_false (by simp) fun h => absurd h.1 (Nat.not_le.mpr hlong)
    · exact iff_of_false (by simp) fun h => absurd h.1 (Nat.not_le.mpr hlong)
  | empty | closed =>
    cases hns
    refine ⟨fun e => ?_, fun n => ?_, ?_, ?_⟩ <;> simp

end

end Reader

end SingleWriter
