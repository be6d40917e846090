import SingleWriter.Proofs.Broadcast

/-! Those who read on a channel what many writes tell.  A reader that the channel has room for is
told all of what it wants to know: one that has subscribed for a write is told the history of that
write, and those that have subscribed for all writes are told the same history. -/

namespace SingleWriter.Write

open Reader

namespace Broadcast

variable {K Q R α : Type} {b : Backend K Q R} {w : Workload Q R α} {o : Observer} {k : Nat}
  {capacity : Nat} {before : List Event} {filters : Nat → List String} {x₀ x : Broadcast b α}
  {as : List (Act α)}

/-- The channel holds what it has held before and what it has got. -/
theorem Run.channel (h : x₀.Initial w k capacity before filters) (hrun : x₀.Run w o k as x) :
    ∃ c : Channel Event, x.records.channels[k]? = some c ∧ c.size = Channel.sizeFor capacity ∧
      c.Holds (before ++ received (.channel k) as) := by
  obtain ⟨c₀, hc₀, hholds₀, hsize₀, -⟩ := h.channel
  obtain ⟨c, hc, hsize, hholds⟩ := hrun.records.channels k c₀ before hc₀ hholds₀
  exact ⟨c, hc, hsize.trans hsize₀, hholds⟩

/-- How far a reader is: it wants what it has subscribed for, and has walked over the history of a
channel up to its cursor. -/
structure Reads (s : Stream) (size : Nat) (history : List Event) (operations : List String)
    (told : List (Note Event)) : Prop where
  wants : s.operations = operations
  cursor : s.cursor.next ≤ history.length
  walk : Walk size (Stream.wants operations) [] told (history.drop s.cursor.next)

theorem Reads.publish {s : Stream} {size : Nat} {history : List Event} {operations : List String}
    {told : List (Note Event)} (h : Reads s size history operations told) (e : Event) :
    Reads s size (history ++ [e]) operations (told ++ [.published e]) := by
  refine ⟨h.wants, Nat.le_trans h.cursor (by simp), ?_⟩
  rw [List.drop_append_of_le_length h.cursor]
  exact h.walk.append (.published (.stop _))

theorem Reads.poll {s : Stream} {c : Channel Event} {history : List Event}
    {operations : List String} {told : List (Note Event)} (hholds : c.Holds history)
    (h : Reads s c.size history operations told) (alive : Bool) :
    Reads (s.poll c alive).2 c.size history operations
      (told ++ [.told alive (s.poll c alive).1]) := by
  have hwants := h.wants
  subst hwants
  obtain ⟨hcursor, hwalk⟩ :=
    Stream.seek_walk hholds alive s.operations (Nat.le_refl (c.unread s.cursor)) h.cursor
  exact ⟨rfl, hcursor, h.walk.append (hwalk (.stop _))⟩

theorem Run.reads (h : x₀.Initial w k capacity before filters) (hrun : x₀.Run w o k as x)
    (r : Nat) : Reads (x.readers r) (Channel.sizeFor capacity)
      (before ++ received (.channel k) as) (filters r) (notes k r as) := by
  induction hrun with
  | start =>
    obtain ⟨c₀, -, hholds₀, -, hreaders⟩ := h.channel
    have hcursor : (x₀.readers r).cursor.next = before.length := by
      rw [hreaders r]
      exact hholds₀.published
    refine ⟨by rw [hreaders r]; rfl, ?_, ?_⟩
    · rw [hcursor]
      simp [received]
    · rw [hcursor]
      simp only [received, List.filterMap_nil, List.append_nil, List.drop_length]
      exact .stop []
  | @act as a y z hrun hact ih =>
    rw [received_concat, notes_concat]
    cases hact with
    | step => simpa [Act.receiptOf?, Act.noteOf?] using ih
    | @deliver i e σ =>
      by_cases hσ : σ = .channel k
      · have hpublish := ih.publish e
        simpa [Act.receiptOf?, Act.noteOf?, hσ] using hpublish
      · simpa [Act.receiptOf?, Act.noteOf?, hσ] using ih
    | @poll r' c alive hc =>
      obtain ⟨c', hc', hsize, hholds⟩ := hrun.channel h
      obtain rfl : c' = c := Option.some.inj (hc'.symm.trans hc)
      by_cases hr : r' = r
      · subst hr
        rw [← hsize] at ih ⊢
        simpa [Act.receiptOf?, Act.noteOf?] using ih.poll hholds alive
      · simpa [Act.receiptOf?, Act.noteOf?, hr, Function.update_of_ne (Ne.symm hr)] using ih

/-- The answer of a look at a channel on which `rest` is still to be told. -/
def answer (alive : Bool) (rest : List Event) : Received Event :=
  match rest.head? with
  | some e => .event e
  | none => if alive then .empty else .closed

/-- A reader is told `es`, event by event and none lost, as far as it has looked; the next look
tells what comes next. -/
def Follows (s : Stream) (c : Channel Event) (told : List (Note Event)) (es : List Event) : Prop :=
  (∀ n, .lagged n ∉ answers told) ∧ ∃ rest, es = delivered (answers told) ++ rest ∧
    ∀ alive, (s.poll c alive).1 = answer alive rest

theorem Reads.follows {s : Stream} {c : Channel Event} {history : List Event}
    {operations : List String} {told : List (Note Event)} (hholds : c.Holds history)
    (h : Reads s c.size history operations told) (hroom : (publications told).length ≤ c.size) :
    Follows s c told ((publications told).filter (Stream.wants operations)) := by
  have hkeeps := h.walk.keeps (by simpa using hroom)
  obtain ⟨seen, hpublished, hcovers⟩ := h.walk.covers
  rw [List.nil_append] at hpublished
  refine ⟨hkeeps, (history.drop s.cursor.next).filter (Stream.wants operations), ?_,
    fun alive => ?_⟩
  · rw [hpublished, List.filter_append, hcovers.delivered hkeeps]
  · have hle : (history.drop s.cursor.next).length ≤ c.size := by
      have hlength := congrArg List.length hpublished
      rw [List.length_append] at hlength
      omega
    obtain ⟨-, hwalk⟩ :=
      Stream.seek_walk hholds alive s.operations (Nat.le_refl (c.unread s.cursor)) h.cursor
    have htells := (hwalk (.stop _)).tells
    unfold answer
    rw [List.head?_filter, ← h.wants]
    cases hfind : (history.drop s.cursor.next).find? (Stream.wants s.operations) with
    | some e => exact (htells.event e).mpr ⟨hle, hfind⟩
    | none =>
      have hunwanted : ∀ e ∈ history.drop s.cursor.next, Stream.wants s.operations e = false :=
        fun e he => eq_false_of_ne_true (List.find?_eq_none.mp hfind e he)
      cases alive with
      | true => exact htells.empty.mpr ⟨hle, hunwanted, rfl⟩
      | false => exact htells.closed.mpr ⟨hle, hunwanted, rfl⟩

/-! ### Histories -/

def named : Workload String Nat Nat :=
  { Scene.insertions with
    name := fun
      | 0 => "first"
      | 1 => "second"
      | _ => defaultName }

end Broadcast

end SingleWriter.Write
