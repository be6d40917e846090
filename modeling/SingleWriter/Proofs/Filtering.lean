import SingleWriter.Proofs.Audience

/-! Streams of some writes.  A poll of a stream is what a plain subscription in its place would be
told after looking again and again, until it is told something that the stream does not pass over.
So a stream misses no event of its writes but those that are counted as lost. -/

namespace SingleWriter

open Reader

namespace Stream

variable {c : Channel Event} {alive : Bool} {operations : List String}

theorem poll_all (c : Channel Event) (alive : Bool) (at_ : Cursor) :
    poll ⟨[], at_⟩ c alive = ((c.receive alive at_).1, ⟨[], (c.receive alive at_).2⟩) := by
  have hlook (fuel : Nat) : seek c alive [] fuel at_ = c.receive alive at_ := by
    cases fuel with
    | zero => rfl
    | succ fuel =>
      rw [seek]
      split
      · rename_i hreceive
        rw [hreceive]
        rfl
      · rfl
  simp only [poll, hlook]

/-- What a plain subscription is told that looks from a cursor on, again and again, until it is told
something else than an event that is not wanted, and where it stands then. -/
inductive Until (c : Channel Event) (alive : Bool) (operations : List String) :
    Cursor → Received Event → Cursor → Prop
  | told {at_ after : Cursor} {r : Received Event} : poll ⟨[], at_⟩ c alive = (r, ⟨[], after⟩) →
      (∀ e, r = .event e → wants operations e = true) → Until c alive operations at_ r after
  | passed {at_ next after : Cursor} {e : Event} {r : Received Event} :
      poll ⟨[], at_⟩ c alive = (.event e, ⟨[], next⟩) → wants operations e = false →
      Until c alive operations next r after → Until c alive operations at_ r after

theorem Until.unique {at_ after after' : Cursor} {r r' : Received Event}
    (h : Until c alive operations at_ r after) (h' : Until c alive operations at_ r' after') :
    r' = r ∧ after' = after := by
  induction h with
  | told hpoll hwanted =>
    cases h' with
    | told hpoll' =>
      rw [hpoll] at hpoll'
      cases hpoll'
      exact ⟨rfl, rfl⟩
    | passed hpoll' hunwanted =>
      rw [hpoll] at hpoll'
      cases hpoll'
      rw [hwanted _ rfl] at hunwanted
      cases hunwanted
  | passed hpoll hunwanted _ ih =>
    cases h' with
    | told hpoll' hwanted =>
      rw [hpoll] at hpoll'
      cases hpoll'
      rw [hwanted _ rfl] at hunwanted
      cases hunwanted
    | passed hpoll' _ hrest =>
      rw [hpoll] at hpoll'
      cases hpoll'
      exact ih hrest

/-- An event brings the reader one place further, and there was one to read. -/
theorem receive_event {at_ next : Cursor} {e : Event} (h : c.receive alive at_ = (.event e, next)) :
    next = ⟨at_.next + 1⟩ ∧ 0 < c.unread at_ := by
  simp only [Channel.receive] at h
  split at h
  · cases alive <;> cases h
  · rename_i hbehind
    split at h
    · cases h
    · split at h
      · cases h
        exact ⟨rfl, Nat.pos_of_ne_zero hbehind⟩
      · cases h

/-- The steps of a poll are enough: every look at an event leaves one less to read. -/
theorem until_seek {fuel : Nat} {at_ : Cursor} (h : c.unread at_ ≤ fuel) :
    Until c alive operations at_ (seek c alive operations fuel at_).1
      (seek c alive operations fuel at_).2 := by
  induction fuel generalizing at_ with
  | zero =>
    refine .told (poll_all c alive at_) fun e he => ?_
    have := (receive_event (Prod.ext he rfl)).2
    omega
  | succ fuel ih =>
    rw [seek]
    split
    · rename_i e next hreceive
      have hpoll := poll_all c alive at_
      rw [hreceive] at hpoll
      split
      · rename_i hwanted
        exact .told hpoll fun e' he => by cases he; exact hwanted
      · rename_i hunwanted
        obtain ⟨rfl, hpos⟩ := receive_event hreceive
        have hone : c.unread ⟨at_.next + 1⟩ = c.unread at_ - 1 := Nat.sub_add_eq ..
        have hless : c.unread ⟨at_.next + 1⟩ ≤ fuel := by omega
        exact .passed hpoll (by simpa using hunwanted) (ih hless)
    · rename_i hother
      exact .told (poll_all c alive at_) fun e he => (hother e _ (Prod.ext he rfl)).elim

theorem until_iff_poll (x : Stream) (c : Channel Event) (alive : Bool) (r : Received Event)
    (after : Cursor) : Until c alive x.operations x.cursor r after ↔
      x.poll c alive = (r, ⟨x.operations, after⟩) := by
  have hseek : Until c alive x.operations x.cursor _ _ := until_seek (Nat.le_refl _)
  constructor
  · intro h
    obtain ⟨rfl, rfl⟩ := hseek.unique h
    rfl
  · intro h
    simp only [poll, Prod.mk.injEq, Stream.mk.injEq, true_and] at h
    obtain ⟨rfl, rfl⟩ := h
    exact hseek

end Stream

namespace Subscribers

/-- A look of a subscriber is a poll of its stream. -/
theorem receive_poll {s t : Subscribers} {name : String} {x y : Stream} {r : Received Event}
    (hbefore : s.streams.lookup name = some x) (hreceive : s.receive name = some (r, t))
    (hafter : t.streams.lookup name = some y) : x.poll s.channel s.alive = (r, y) := by
  rw [receive, hbefore, Option.map_some, Option.some.injEq, Prod.mk.injEq] at hreceive
  obtain ⟨rfl, rfl⟩ := hreceive
  rw [List.lookup_cons_self, Option.some.injEq] at hafter
  exact Prod.ext rfl hafter

/-- It makes no difference how the wanted writes are given. -/
theorem subscribe_agree {s : Subscribers} {handle : String} (hlive : s.hasHandle handle = true)
    (name : String) {operations operations' : List String}
    (h : Stream.wants operations = Stream.wants operations') :
    (s.perform (.subscribe handle name operations)).Agree name
      (s.perform (.subscribe handle name operations')) := by
  simp only [perform, hlive, if_true]
  refine ⟨rfl, rfl, ?_⟩
  simp only [subscribe, List.lookup_cons_self]
  exact .some ⟨rfl, h⟩

/-- A stream of some writes is told every event of these writes that is published while it is
subscribed, in order and once, apart from those that are counted as lost; the count is the one of a
plain subscription.  It ends when no handle is left and nothing more is to be told.  Neither the
order of the names nor how often one is given makes a difference. -/
theorem stream_sifts (capacity : Nat) (first : String) (before after : List Deed)
    (handle name : String) (operations : List String)
    (hlive : ((new capacity first).run before).hasHandle handle = true)
    (hstays : ∀ d ∈ after, d.spares name = true) :
    let joined (names : List String) :=
      ((new capacity first).run before).perform (.subscribe handle name names)
    let s := joined operations
    let size := Channel.sizeFor capacity
    let wanted := Stream.wants operations
    let told := s.notes name after
    (∀ e, wanted e = true ↔ operations = [] ∨ e.operation ∈ operations) ∧
      (∀ names, (∀ x, x ∈ names ↔ x ∈ operations) → told = (joined names).notes name after) ∧
      ∃ seen left, publications told = seen ++ left ∧
        Walk size wanted [] told left ∧
        Covers wanted (answers told) seen ∧
        ∃ cursor r t, (s.run after).streams.lookup name = some ⟨operations, cursor⟩ ∧
          (s.run after).receive name = some (r, t) ∧
          (∀ r' cursor', Stream.Until (s.run after).channel (s.run after).alive operations cursor
              r' cursor' ↔ r' = r ∧ t.streams.lookup name = some ⟨operations, cursor'⟩) ∧
          Tells size wanted (s.run after).alive left r := by
  intro joined s size wanted told
  obtain ⟨history, cursor, hend, hkept, hwalk⟩ :=
    subscribed_walk capacity first before after hlive operations hstays
  obtain ⟨seen, hpublished, hcovers⟩ := hwalk.covers
  obtain ⟨r, cursor', t, hreceive, hafter, hnext⟩ := hend.receive
  have htells := (hnext (.stop _)).tells
  rw [hkept] at htells
  refine ⟨Stream.wants_iff operations, fun names hnames => ?_, seen, _, hpublished, hwalk, hcovers,
    cursor, r, t, hend.stream, hreceive, fun r' next => ?_, htells⟩
  · have hagree : s.Agree name (joined names) :=
      subscribe_agree hlive name (Stream.wants_congr fun x => (hnames x).symm)
    exact (hagree.notes_filter after).trans ((Agree.refl _).notes_filter after).symm
  · have hpoll := receive_poll hend.stream hreceive hafter.stream
    rw [Stream.until_iff_poll ⟨operations, cursor⟩, hpoll, hafter.stream]
    simp only [Prod.mk.injEq, Option.some.injEq]
    exact and_congr_left' eq_comm

/-- A stream of one write passes over another one's events, loses one event of its own, and ends
when the only handle is gone. -/
theorem stream_of_one_write_sifts :
    let s := (new 2 "main").perform (.subscribe "main" "s" ["keep", "keep"])
    let emit (operation : String) (n : Nat) : Deed := .emit "main" (.cancelled operation n)
    let after := [emit "pass" 1, emit "keep" 2, .receive "s", emit "keep" 3, emit "pass" 4,
      emit "pass" 5, .receive "s", .receive "s", .dropHandle "main"]
    let told := s.notes "s" after
    answers told = [.event (.cancelled "keep" 2), .lagged 1, .empty] ∧
      told = ((new 2 "main").perform (.subscribe "main" "s" ["keep"])).notes "s" after ∧
      (∃ seen left, publications told = seen ++ left ∧
        Covers (Stream.wants ["keep", "keep"]) (answers told) seen) ∧
      ((s.run after).receive "s").map (·.1) = some .closed := by
  intro s emit after told
  obtain ⟨-, hnames, seen, left, hpublished, -, hcovers, -⟩ :=
    stream_sifts 2 "main" [] after "main" "s" ["keep", "keep"] rfl (by decide)
  exact ⟨by decide, hnames ["keep"] (by simp), ⟨seen, left, hpublished, hcovers⟩, by decide⟩

end Subscribers

end SingleWriter
