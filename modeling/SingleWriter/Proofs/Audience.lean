import SingleWriter.Proofs.Backlog
import SingleWriter.Proofs.Lookup
import SingleWriter.Subscribers

/-! A channel in use.  Handles publish events, and come and go; subscribers come and go and look at
the channel, all in any order.  Whatever is done with it, a subscriber walks over what is published
from its subscription on, and nothing that other subscribers do makes a difference to it. -/

namespace SingleWriter

open Reader

namespace Stream

variable {c : Channel Event} {history : List Event}

/-- A poll is one look of a walk that passes over what is not wanted. -/
theorem seek_walk (h : c.Holds history) (alive : Bool) (operations : List String) {fuel : Nat}
    {at_ : Cursor} (hfuel : c.unread at_ ≤ fuel) (hat : at_.next ≤ history.length) :
    (seek c alive operations fuel at_).2.next ≤ history.length ∧
      ∀ {notes left}, Walk c.size (wants operations)
          (history.drop (seek c alive operations fuel at_).2.next) notes left →
        Walk c.size (wants operations) (history.drop at_.next)
          (.told alive (seek c alive operations fuel at_).1 :: notes) left := by
  induction fuel generalizing at_ with
  | zero =>
    have hnil : history.drop at_.next = [] := by
      rw [← List.length_eq_zero_iff, ← h.unread]
      omega
    simp only [seek, h.receive_nil hnil]
    exact ⟨hat, fun hwalk => hnil ▸ .nothing alive (hnil ▸ hwalk)⟩
  | succ fuel ih =>
    have hlength : (history.drop at_.next).length = history.length - at_.next := List.length_drop
    rcases Channel.backlog_cases c.size (history.drop at_.next) with
      hnil | ⟨e, rest, hcons, hlt⟩ | ⟨lost, kept, happend, hlost, hkept⟩
    · have hseek : seek c alive operations (fuel + 1) at_ =
          (if alive then .empty else .closed, at_) := by
        rw [seek, h.receive_nil hnil]
        cases alive <;> rfl
      rw [hseek]
      exact ⟨hat, fun hwalk => hnil ▸ .nothing alive (hnil ▸ hwalk)⟩
    · have hnext : at_.next + 1 ≤ history.length := by
        rw [hcons, List.length_cons] at hlength
        omega
      have hrest : history.drop (at_.next + 1) = rest := by
        rw [← List.tail_drop, hcons, List.tail_cons]
      simp only [seek, h.receive_cons hcons hlt]
      split
      · rename_i hwanted
        refine ⟨hnext, fun hwalk => ?_⟩
        rw [hcons]
        exact .event hlt hwanted (hrest ▸ hwalk)
      · rename_i hunwanted
        have hone : c.unread ⟨at_.next + 1⟩ = c.unread at_ - 1 := Nat.sub_add_eq ..
        have hless : c.unread ⟨at_.next + 1⟩ ≤ fuel := by omega
        obtain ⟨hle, hseek⟩ := ih hless hnext
        refine ⟨hle, fun hwalk => ?_⟩
        rw [hcons]
        exact .passed hlt (by simpa using hunwanted) (hrest ▸ hseek hwalk)
    · have hnext : at_.next + lost.length ≤ history.length := by
        rw [happend, List.length_append] at hlength
        omega
      have hrest : history.drop (at_.next + lost.length) = kept := by
        rw [← List.drop_drop, happend, List.drop_left]
      simp only [seek, h.receive_lagged happend hlost hkept]
      refine ⟨hnext, fun hwalk => ?_⟩
      rw [happend]
      exact .lagged hlost hkept (hrest ▸ hwalk)

/-! ### Streams of the same writes -/

/-- Two streams read for the same writes, from the same place on. -/
structure Alike (x y : Stream) : Prop where
  cursor : x.cursor = y.cursor
  wants : wants x.operations = wants y.operations

theorem Alike.refl (x : Stream) : x.Alike x := ⟨rfl, rfl⟩

theorem wants_iff (operations : List String) (e : Event) :
    wants operations e = true ↔ operations = [] ∨ e.operation ∈ operations := by
  simp [wants]

/-- Neither the order of the names nor how often one is given makes a difference. -/
theorem wants_congr {operations operations' : List String}
    (h : ∀ x, x ∈ operations ↔ x ∈ operations') : wants operations = wants operations' := by
  funext e
  have hnil : operations = [] ↔ operations' = [] := by
    simp only [List.eq_nil_iff_forall_not_mem, h]
  rw [Bool.eq_iff_iff, wants_iff, wants_iff, hnil, h]

theorem seek_congr {operations operations' : List String}
    (h : wants operations = wants operations') (c : Channel Event) (alive : Bool) (fuel : Nat)
    (at_ : Cursor) : seek c alive operations fuel at_ = seek c alive operations' fuel at_ := by
  induction fuel generalizing at_ with
  | zero => rfl
  | succ fuel ih => simp only [seek, h, ih]

theorem Alike.poll {x y : Stream} (h : x.Alike y) (c : Channel Event) (alive : Bool) :
    (x.poll c alive).1 = (y.poll c alive).1 ∧ (x.poll c alive).2.Alike (y.poll c alive).2 := by
  have hseek := seek_congr h.wants c alive (c.unread x.cursor) x.cursor
  rw [h.cursor] at hseek
  refine ⟨?_, ?_, h.wants⟩ <;> simp only [Stream.poll, h.cursor, hseek]

end Stream

namespace Subscribers

/-- What is done with a channel and its handles. -/
inductive Deed where
  | emit (handle : String) (e : Event)
  | subscribe (handle name : String) (operations : List String)
  | receive (name : String)
  | drop (name : String)
  | clone (handle name : String)
  | dropHandle (handle : String)

/-- Carries out a deed.  A handle that is gone does nothing. -/
def perform (s : Subscribers) : Deed → Subscribers
  | .emit handle e => if s.hasHandle handle then s.publish e 1 else s
  | .subscribe handle name operations =>
    if s.hasHandle handle then s.subscribe name operations else s
  | .receive name => (s.receive name).elim s (·.2)
  | .drop name => (s.dropStream name).2
  | .clone handle name => if s.hasHandle handle then s.addHandle name else s
  | .dropHandle handle => (s.dropHandle handle).2

def run (s : Subscribers) (ds : List Deed) : Subscribers := ds.foldl perform s

/-- What a deed is to the subscriber of that name. -/
def noted (s : Subscribers) (name : String) : Deed → List (Note Event)
  | .emit handle e => if s.hasHandle handle then [.published e] else []
  | .receive n =>
    if n = name then (s.receive name).toList.map fun told => .told s.alive told.1 else []
  | _ => []

/-- What the deeds are to the subscriber of that name, one after the other. -/
def notes (name : String) : Subscribers → List Deed → List (Note Event)
  | _, [] => []
  | s, d :: ds => s.noted name d ++ notes name (s.perform d) ds

/-- Whether the deed leaves the subscription of that name in its place. -/
def Deed.spares (name : String) : Deed → Bool
  | .subscribe _ n _ => n != name
  | .drop n => n != name
  | _ => true

/-- Whether the deed is one of that subscriber, or of a handle. -/
def Deed.concerns (name : String) : Deed → Bool
  | .subscribe _ n _ => n == name
  | .receive n => n == name
  | .drop n => n == name
  | _ => true

variable {s t : Subscribers} {name : String}

/-! ### What a deed does to a subscriber -/

/-- The subscriber of that name reads for some writes, and its cursor is within the history. -/
structure Stands (s : Subscribers) (name : String) (operations : List String)
    (history : List Event) (cursor : Cursor) : Prop where
  holds : s.channel.Holds history
  stream : s.streams.lookup name = some ⟨operations, cursor⟩
  le : cursor.next ≤ history.length

/-- A deed publishes one event, or it leaves the channel alone. -/
theorem perform_channel (s : Subscribers) (d : Deed) :
    (s.perform d).channel = s.channel ∨ ∃ e, (s.perform d).channel = s.channel.publish e := by
  cases d with
  | emit handle e =>
    simp only [perform]
    split
    · exact .inr ⟨e, rfl⟩
    · exact .inl rfl
  | subscribe | clone =>
    simp only [perform]
    split <;> exact .inl rfl
  | receive n =>
    simp only [perform, receive]
    cases s.streams.lookup n <;> exact .inl rfl
  | drop | dropHandle => exact .inl rfl

theorem perform_size (s : Subscribers) (d : Deed) :
    (s.perform d).channel.size = s.channel.size := by
  rcases s.perform_channel d with h | ⟨e, h⟩ <;> rw [h]
  rfl

variable {operations : List String} {history : List Event} {cursor : Cursor}

theorem Stands.aside (h : s.Stands name operations history cursor)
    (hchannel : t.channel = s.channel) (hstream : t.streams.lookup name = s.streams.lookup name) :
    t.Stands name operations history cursor :=
  ⟨hchannel ▸ h.holds, hstream.trans h.stream, h.le⟩

/-- The subscriber of that name has looked. -/
theorem Stands.receive (h : s.Stands name operations history cursor) :
    ∃ r cursor' t, s.receive name = some (r, t) ∧ t.Stands name operations history cursor' ∧
      ∀ {notes left}, Walk s.channel.size (Stream.wants operations) (history.drop cursor'.next)
          notes left →
        Walk s.channel.size (Stream.wants operations) (history.drop cursor.next)
          (.told s.alive r :: notes) left := by
  obtain ⟨hle, hwalk⟩ := Stream.seek_walk h.holds s.alive operations (Nat.le_refl _) h.le
  refine ⟨_, _, ?_, ?receives, ⟨?_, ?_, hle⟩, hwalk⟩
  case receives =>
    rw [Subscribers.receive, h.stream, Option.map_some]
    rfl
  · exact h.holds
  · exact List.lookup_cons_self

/-- A deed that spares a subscriber takes it further on its walk. -/
theorem Stands.perform (h : s.Stands name operations history cursor) {d : Deed}
    (hd : d.spares name = true) :
    ∃ history' cursor', (s.perform d).Stands name operations history' cursor' ∧
      ∀ {notes left}, Walk s.channel.size (Stream.wants operations) (history'.drop cursor'.next)
          notes left →
        Walk s.channel.size (Stream.wants operations) (history.drop cursor.next)
          (s.noted name d ++ notes) left := by
  cases d with
  | emit handle e =>
    simp only [Subscribers.perform, noted]
    split
    · refine ⟨history ++ [e], cursor, ⟨h.holds.publish e, h.stream, ?_⟩, fun hwalk => ?_⟩
      · have hle := h.le
        rw [List.length_append]
        omega
      · rw [List.drop_append_of_le_length h.le] at hwalk
        exact .published hwalk
    · exact ⟨history, cursor, h, id⟩
  | subscribe handle n wanted =>
    simp only [Subscribers.perform, noted]
    split
    · refine ⟨history, cursor, h.aside rfl ?_, id⟩
      rw [subscribe, lookup_assign, if_neg (by simpa [Deed.spares] using hd)]
    · exact ⟨history, cursor, h, id⟩
  | receive n =>
    by_cases hn : n = name
    · subst hn
      obtain ⟨r, cursor', t, hreceive, hstands, hwalk⟩ := h.receive
      simp only [Subscribers.perform, noted, hreceive]
      exact ⟨history, cursor', hstands, hwalk⟩
    · simp only [Subscribers.perform, noted, if_neg hn, Subscribers.receive]
      cases hlookup : s.streams.lookup n with
      | none => exact ⟨history, cursor, h, id⟩
      | some x => exact ⟨history, cursor, h.aside rfl (by simp [lookup_assign, hn]), id⟩
  | drop n =>
    have hn : n ≠ name := by simpa [Deed.spares] using hd
    exact ⟨history, cursor, h.aside rfl (lookup_filter_ne s.streams hn), id⟩
  | clone handle n =>
    simp only [Subscribers.perform, noted]
    split
    · exact ⟨history, cursor, h.aside rfl rfl, id⟩
    · exact ⟨history, cursor, h, id⟩
  | dropHandle handle => exact ⟨history, cursor, h.aside rfl rfl, id⟩

theorem Stands.run (h : s.Stands name operations history cursor) {ds : List Deed}
    (hds : ∀ d ∈ ds, d.spares name = true) :
    ∃ history' cursor', (s.run ds).Stands name operations history' cursor' ∧
      Walk s.channel.size (Stream.wants operations) (history.drop cursor.next) (s.notes name ds)
        (history'.drop cursor'.next) := by
  induction ds generalizing s history cursor with
  | nil => exact ⟨history, cursor, h, .stop _⟩
  | cons d ds ih =>
    rw [List.forall_mem_cons] at hds
    obtain ⟨_, _, hstands, hstep⟩ := h.perform hds.1
    obtain ⟨history', cursor', hend, hwalk⟩ := ih hstands hds.2
    rw [s.perform_size d] at hwalk
    exact ⟨history', cursor', hend, hstep hwalk⟩

/-- Whatever was done with a channel, it holds a history. -/
theorem run_holds (h : s.channel.Holds history) (ds : List Deed) :
    ∃ history', (s.run ds).channel.Holds history' ∧ (s.run ds).channel.size = s.channel.size := by
  induction ds generalizing s history with
  | nil => exact ⟨history, h, rfl⟩
  | cons d ds ih =>
    have hnext : ∃ history', (s.perform d).channel.Holds history' := by
      rcases s.perform_channel d with hsame | ⟨e, hsame⟩ <;> rw [hsame]
      · exact ⟨history, h⟩
      · exact ⟨history ++ [e], h.publish e⟩
    obtain ⟨_, hnext⟩ := hnext
    obtain ⟨history', hholds, hsize⟩ := ih hnext
    exact ⟨history', hholds, hsize.trans (s.perform_size d)⟩

/-- A subscriber begins with nothing before it. -/
theorem subscribe_stands (h : s.channel.Holds history) {handle : String}
    (hlive : s.hasHandle handle = true) (name : String) (operations : List String) :
    (s.perform (.subscribe handle name operations)).Stands name operations history
      ⟨history.length⟩ := by
  simp only [perform, hlive, if_true]
  refine ⟨h, ?_, Nat.le_refl _⟩
  rw [subscribe, lookup_assign, if_pos rfl, Stream.subscribe, Channel.subscribe, h.published]

/-- A subscriber to whom nothing is done walks over what is published from its subscription on. -/
theorem subscribed_walk (capacity : Nat) (first : String) (before after : List Deed)
    {handle : String} (hlive : ((new capacity first).run before).hasHandle handle = true)
    (operations : List String) (hstays : ∀ d ∈ after, d.spares name = true) :
    let s := ((new capacity first).run before).perform (.subscribe handle name operations)
    let wanted := Stream.wants operations
    ∃ history cursor, (s.run after).Stands name operations history cursor ∧
      (s.run after).channel.size = Channel.sizeFor capacity ∧
      Walk (Channel.sizeFor capacity) wanted [] (s.notes name after)
        (history.drop cursor.next) := by
  intro s wanted
  obtain ⟨_, hholds, hsize⟩ :=
    run_holds (s := new capacity first) (Channel.new_holds capacity) before
  have hsize : s.channel.size = Channel.sizeFor capacity := (perform_size _ _).trans hsize
  have hstands := subscribe_stands hholds hlive name operations
  obtain ⟨history, cursor, hend, hwalk⟩ := hstands.run hstays
  obtain ⟨_, -, hkept⟩ := run_holds hstands.holds after
  refine ⟨history, cursor, hend, hkept.trans hsize, ?_⟩
  rw [List.drop_length] at hwalk
  exact hsize ▸ hwalk

/-- What a subscriber is told next. -/
theorem Stands.tells (h : s.Stands name operations history cursor) :
    ∃ r t, s.receive name = some (r, t) ∧
      Tells s.channel.size (Stream.wants operations) s.alive (history.drop cursor.next) r := by
  obtain ⟨r, cursor', t, hreceive, -, hwalk⟩ := h.receive
  exact ⟨r, t, hreceive, (hwalk (.stop _)).tells⟩

/-! ### What makes no difference -/

/-- Two channels in use are the same to the subscriber of that name. -/
structure Agree (name : String) (s t : Subscribers) : Prop where
  channel : s.channel = t.channel
  handles : s.handles = t.handles
  stream : Option.Rel Stream.Alike (s.streams.lookup name) (t.streams.lookup name)

theorem Agree.refl (s : Subscribers) : s.Agree name s := by
  refine ⟨rfl, rfl, ?_⟩
  cases s.streams.lookup name with
  | none => exact .none
  | some x => exact .some (.refl x)

theorem Agree.hasHandle (h : s.Agree name t) (handle : String) :
    s.hasHandle handle = t.hasHandle handle := by
  rw [Subscribers.hasHandle, h.handles, Subscribers.hasHandle]

theorem Agree.alive (h : s.Agree name t) : s.alive = t.alive := by
  rw [Subscribers.alive, h.handles, Subscribers.alive]

/-- Both are told the same, and agree from then on. -/
theorem Agree.receive (h : s.Agree name t) :
    s.receive name = none ∧ t.receive name = none ∨
      ∃ r s' t', s.receive name = some (r, s') ∧ t.receive name = some (r, t') ∧
        s'.Agree name t' := by
  have hstream := h.stream
  simp only [Subscribers.receive, ← h.channel, ← h.alive]
  generalize s.streams.lookup name = found at hstream
  generalize t.streams.lookup name = found' at hstream
  cases hstream with
  | none => exact .inl ⟨rfl, rfl⟩
  | some halike =>
    obtain ⟨hanswer, hafter⟩ := halike.poll s.channel s.alive
    simp only [Option.map_some, hanswer]
    refine .inr ⟨_, _, _, rfl, rfl, rfl, h.handles, ?_⟩
    simp only [List.lookup_cons_self]
    exact .some hafter

theorem Agree.noted (h : s.Agree name t) (d : Deed) : s.noted name d = t.noted name d := by
  cases d with
  | emit handle e => simp only [Subscribers.noted, h.hasHandle]
  | receive n =>
    simp only [Subscribers.noted, h.alive]
    rcases h.receive with ⟨hs, ht⟩ | ⟨r, s', t', hs, ht, -⟩ <;> rw [hs, ht]
    rfl
  | subscribe | drop | clone | dropHandle => rfl

theorem Agree.perform (h : s.Agree name t) {d : Deed} (hd : d.concerns name = true) :
    (s.perform d).Agree name (t.perform d) := by
  cases d with
  | emit handle e =>
    simp only [Subscribers.perform, h.hasHandle]
    split
    · exact ⟨by simp only [publish, h.channel], h.handles, h.stream⟩
    · exact h
  | subscribe handle n operations =>
    obtain rfl : n = name := by simpa [Deed.concerns] using hd
    simp only [Subscribers.perform, h.hasHandle]
    split
    · refine ⟨h.channel, h.handles, ?_⟩
      simp only [subscribe, List.lookup_cons_self, h.channel]
      exact .some (.refl _)
    · exact h
  | receive n =>
    obtain rfl : n = name := by simpa [Deed.concerns] using hd
    simp only [Subscribers.perform]
    rcases h.receive with ⟨hs, ht⟩ | ⟨r, s', t', hs, ht, hafter⟩ <;> rw [hs, ht]
    · exact h
    · exact hafter
  | drop n =>
    obtain rfl : n = name := by simpa [Deed.concerns] using hd
    refine ⟨h.channel, h.handles, ?_⟩
    simp only [Subscribers.perform, dropStream, lookup_removed]
    exact .none
  | clone handle n =>
    simp only [Subscribers.perform, h.hasHandle]
    split
    · exact ⟨h.channel, by simp only [addHandle, h.handles], h.stream⟩
    · exact h
  | dropHandle handle =>
    exact ⟨h.channel, by simp only [Subscribers.perform, dropHandle, h.handles], h.stream⟩

/-- What another subscriber does changes nothing for this one. -/
theorem Agree.aside (h : s.Agree name t) {d : Deed} (hd : d.concerns name = false) :
    (s.perform d).Agree name t ∧ s.noted name d = [] := by
  have hsame {u : Subscribers} (hchannel : u.channel = s.channel) (hhandles : u.handles = s.handles)
      (hstream : u.streams.lookup name = s.streams.lookup name) : u.Agree name t :=
    ⟨hchannel.trans h.channel, hhandles.trans h.handles, hstream ▸ h.stream⟩
  cases d with
  | emit | clone | dropHandle => cases hd
  | subscribe handle n operations =>
    have hn : n ≠ name := by simpa [Deed.concerns] using hd
    refine ⟨?_, rfl⟩
    simp only [Subscribers.perform]
    split
    · exact hsame rfl rfl (by rw [subscribe, lookup_assign, if_neg hn])
    · exact h
  | receive n =>
    have hn : n ≠ name := by simpa [Deed.concerns] using hd
    refine ⟨?_, if_neg hn⟩
    simp only [Subscribers.perform, Subscribers.receive]
    cases s.streams.lookup n with
    | none => exact h
    | some x => exact hsame rfl rfl (by simp [lookup_assign, hn])
  | drop n =>
    have hn : n ≠ name := by simpa [Deed.concerns] using hd
    exact ⟨hsame rfl rfl (lookup_filter_ne s.streams hn), rfl⟩

theorem Agree.notes_filter (h : s.Agree name t) (ds : List Deed) :
    s.notes name ds = t.notes name (ds.filter (·.concerns name)) := by
  induction ds generalizing s t with
  | nil => rfl
  | cons d ds ih =>
    rw [List.filter_cons]
    split
    · rename_i hd
      rw [notes, notes, h.noted d, ih (h.perform hd)]
    · rename_i hd
      obtain ⟨haside, hquiet⟩ := h.aside (d := d) (by simpa using hd)
      rw [notes, hquiet, List.nil_append, ih haside]

/-! ### Plain subscriptions -/

theorem wants_all : Stream.wants [] = fun _ => true := rfl

/-- A subscriber of all writes walks over everything that is published while it is subscribed, event
by event.  It is told of every event in order, or how many of the oldest it has lost, which happens
exactly when more events are before it than the channel keeps. -/
theorem subscription_walks (capacity : Nat) (first : String) (before after : List Deed)
    (handle name : String) (hlive : ((new capacity first).run before).hasHandle handle = true)
    (hstays : ∀ d ∈ after, d.spares name = true) :
    let s := ((new capacity first).run before).perform (.subscribe handle name [])
    let size := Channel.sizeFor capacity
    let told := s.notes name after
    IsLeast {b | max 1 capacity ≤ b ∧ ∃ k, b = 2 ^ k} size ∧
      told = s.notes name (after.filter (·.concerns name)) ∧
      ∃ seen left, publications told = seen ++ left ∧
        Walk size (fun _ => true) [] told left ∧
        Covers (fun _ => true) (answers told) seen ∧
        (delivered (answers told)).length + lost (answers told) + left.length =
          (publications told).length ∧
        ∃ r t, (s.run after).receive name = some (r, t) ∧
          (∀ e, r = .event e ↔ left.length ≤ size ∧ left.head? = some e) ∧
          (∀ n, r = .lagged n ↔ size < left.length ∧ n = left.length - size) ∧
          (r = .empty ↔ left = [] ∧ (s.run after).alive = true) ∧
          (r = .closed ↔ left = [] ∧ (s.run after).alive = false) ∧
          (left.length ≤ capacity → ∀ n, r ≠ .lagged n) := by
  intro s size told
  obtain ⟨history, cursor, hend, hkept, hwalk⟩ :=
    subscribed_walk capacity first before after hlive [] hstays
  obtain ⟨seen, hpublished, hcovers⟩ := hwalk.covers
  obtain ⟨r, t, hreceive, htells⟩ := hend.tells
  rw [wants_all, hkept] at htells
  have hall : (∀ e ∈ history.drop cursor.next, true = false) ↔ history.drop cursor.next = [] := by
    rw [List.eq_nil_iff_forall_not_mem]
    exact forall₂_congr fun _ _ => by simp
  have hhead (backlog : List Event) : backlog.find? (fun _ => true) = backlog.head? := by
    cases backlog <;> rfl
  refine ⟨Channel.sizeFor_isLeast capacity, (Agree.refl s).notes_filter after, seen, _,
    hpublished, hwalk, hcovers, ?_, r, t, hreceive, fun e => ?_, htells.lagged, ?_, ?_, ?_⟩
  · have hlength := congrArg List.length hpublished
    simp only [List.nil_append, List.length_append] at hlength
    rw [hcovers.count, hlength]
  · rw [htells.event, hhead]
  · rw [htells.empty, hall]
    refine and_iff_right_of_imp fun h => ?_
    simp [h.1]
  · rw [htells.closed, hall]
    refine and_iff_right_of_imp fun h => ?_
    simp [h.1]
  · intro hle n hlagged
    have hlong := ((htells.lagged n).mp hlagged).1
    have := Channel.le_sizeFor capacity
    omega

/-- A subscriber of a channel of two looks after five events, and so does another one, which has
subscribed before it. -/
theorem slow_subscription_walks :
    let event (n : Nat) : Event := .cancelled "write" n
    let before := [.subscribe "main" "other" []]
    let s := ((new 2 "main").run before).perform (.subscribe "main" "slow" [])
    let after := [1, 2, 3, 4, 5].map (fun n => .emit "main" (event n)) ++
      [.receive "other", .receive "slow", .receive "slow"]
    answers (s.notes "slow" after) = [.lagged 3, .event (event 4)] ∧
      ∃ seen left, publications (s.notes "slow" after) = seen ++ left ∧
        Covers (fun _ => true) (answers (s.notes "slow" after)) seen ∧ left.length = 1 := by
  intro event before s after
  obtain ⟨-, -, seen, left, hpublished, -, hcovers, hcount, -⟩ :=
    subscription_walks 2 "main" before after "main" "slow" rfl (by decide)
  refine ⟨by decide, seen, left, hpublished, hcovers, ?_⟩
  have hcount : (delivered (answers (s.notes "slow" after))).length +
    lost (answers (s.notes "slow" after)) + left.length =
      (publications (s.notes "slow" after)).length := hcount
  have htold : (delivered (answers (s.notes "slow" after))).length +
    lost (answers (s.notes "slow" after)) = 4 := by decide
  have hfive : (publications (s.notes "slow" after)).length = 5 := by decide
  omega

end Subscribers

end SingleWriter
