import SingleWriter.Proofs.Audience
import SingleWriter.Proofs.Trials
import SingleWriter.Store

/-! Many writes and those who listen to them.  An event of a write is told to each sink of the
observer in turn, while other writes go on and tell of theirs; readers of a channel look at it at
any time.  Whatever the order, what a sink gets from one write is what that write has told. -/

namespace SingleWriter

/-- Records that have got more: what each sink got meanwhile comes after what was there. -/
structure Records.Gains (r r' : Records) (got : Sink → List Event) : Prop where
  calls : ∀ tag, r'.tagged tag = r.tagged tag ++ got (.record tag)
  logs : r'.logs = r.logs ++ (got .log).map Event.logEntry
  channels : ∀ (k : Nat) (c : Channel Event) (history : List Event), r.channels[k]? = some c →
    c.Holds history → ∃ c' : Channel Event, r'.channels[k]? = some c' ∧ c'.size = c.size ∧
      c'.Holds (history ++ got (.channel k))

theorem Records.Gains.refl (r : Records) : r.Gains r fun _ => [] :=
  ⟨by simp, by simp, fun k c history hc hholds => ⟨c, hc, rfl, by simpa using hholds⟩⟩

theorem Records.Gains.put {r r' : Records} {got : Sink → List Event} (h : r.Gains r' got)
    (e : Event) (σ : Sink) :
    r.Gains (r'.put e σ) fun τ => got τ ++ if σ = τ then [e] else [] := by
  cases σ with
  | log =>
    refine ⟨fun tag => by simpa [Records.put, Records.tagged] using h.calls tag, ?_, ?_⟩
    · simp [Records.put, h.logs]
    · simpa [Records.put] using h.channels
  | record t =>
    refine ⟨fun tag => ?_, by simpa [Records.put] using h.logs, ?_⟩
    · have hcalls := h.calls tag
      simp only [Records.tagged] at hcalls
      by_cases ht : t = tag <;> simp [Records.put, Records.tagged, hcalls, ht]
    · simpa [Records.put] using h.channels
  | channel i =>
    refine ⟨fun tag => by simpa [Records.put, Records.tagged] using h.calls tag,
      by simpa [Records.put] using h.logs, fun k c history hc hholds => ?_⟩
    obtain ⟨c', hc', hsize, hholds'⟩ := h.channels k c history hc hholds
    by_cases hi : i = k
    · subst hi
      refine ⟨c'.publish e, by simp [Records.put, hc'], hsize, ?_⟩
      simpa [List.append_assoc] using hholds'.publish e
    · exact ⟨c', by simp [Records.put, hi, hc'], hsize, by simpa [hi] using hholds'⟩

namespace Write

open Reader

/-! ### The events of one write -/

section

variable {α : Type}

/-- Retries 1 to `a` of one write. -/
structure Retries (name : String) (a : Nat) (es : List Event) : Prop where
  attempts : es.map Event.attempt = List.range' 1 a
  retrying : ∀ e ∈ es, e.kind = "retrying" ∧ e.operation = name

/-- What a write tells of its end after `a` retries, by what it returns. -/
inductive Ending (name : String) (a : Nat) : Except WriteError α → List Event → Prop
  | plain {v : α} : a = 0 → Ending name a (.ok v) []
  | recovered {v : α} {d : Duration} : 0 < a → Ending name a (.ok v) [.recovered name (a + 1) d]
  | failed {e : WriteError} : e.isTransient = false → Ending name a (.error e) []
  | exhausted {e : WriteError} :
      Ending name a (.error (.exhausted name (a + 1) e)) [.exhausted name (a + 1) e.message]
  | cancelled : Ending name a (.error (.cancelled name a)) [.cancelled name a]

/-- The events of a write, up to now or to its end. -/
def Story (name : String) (result? : Option (Except WriteError α)) (es : List Event) : Prop :=
  ∃ a retries last, es = retries ++ last ∧ Retries name a retries ∧
    match result? with
    | none => last = []
    | some r => Ending name a r last

variable {p : RetryPolicy} {name : String} {moment : Nat → Moment} {trial : Nat → Trial α}

theorem retried_retries (k : Nat) : Retries name k (retried p name moment trial k) := by
  refine ⟨?_, fun e he => ?_⟩
  · rw [retried, List.map_map]
    exact List.map_id _
  · obtain ⟨i, -, rfl⟩ := List.mem_map.mp he
    exact ⟨rfl, rfl⟩

theorem Ended.story {r : Except WriteError α} {made : List Nat} {told : List Event}
    (h : Ended p name moment trial r made told) : Story name (some r) told := by
  have hstory {k : Nat} {last : List Event} (hlast : Ending name k r last) :
      Story name (some r) (retried p name moment trial k ++ last) :=
    ⟨k, _, last, rfl, retried_retries k, hlast⟩
  cases h with
  | @value k v =>
    refine hstory ?_
    unfold recovery
    split
    · exact .recovered (by omega)
    · exact .plain (by omega)
  | @fatal k _ _ _ _ hfatal =>
    rw [← List.append_nil (retried p name moment trial k)]
    exact hstory (.failed hfatal)
  | exhausted => exact hstory .exhausted
  | cancelled => exact hstory .cancelled

theorem Course.story {c : Call α} {ts : List (Turn α)} (h : Course p name moment trial c ts) :
    Story name c.result? (events ts) := by
  obtain ⟨j, hj⟩ := h.standing
  have hs := hj.stands
  have htold {k : Nat} (hresult : c.result? = none)
      (hevents : events ts = retried p name moment trial k) : Story name c.result? (events ts) := by
    rw [hresult, hevents]
    exact ⟨k, _, [], (List.append_nil _).symm, retried_retries k, rfl⟩
  cases hp : c.phase with
  | checking | locking | acquiring =>
    rw [hp] at hs
    exact htold (by simp [Call.result?, hp]) hs.2
  | beginning | operating | committing | rollingBack | backingOff =>
    rw [hp] at hs
    exact htold (by simp [Call.result?, hp]) hs.1.2
  | finished r =>
    rw [hp] at hs
    have hresult : c.result? = some r := by simp [Call.result?, hp]
    rw [hresult]
    exact Ended.story hs

theorem Story.named {result? : Option (Except WriteError α)} {es : List Event}
    (h : Story name result? es) : ∀ e ∈ es, e.operation = name := by
  obtain ⟨a, retries, last, rfl, hretries, hlast⟩ := h
  intro e he
  rcases List.mem_append.mp he with he | he
  · exact (hretries.retrying e he).2
  · cases result? with
    | none =>
      cases hlast
      cases he
    | some r =>
      cases hlast with
      | plain | failed => cases he
      | recovered | exhausted | cancelled =>
        cases List.mem_singleton.mp he
        rfl

end

/-! ### Deliveries -/

/-- The deliveries of some events: each goes to one sink after the other. -/
def due (o : Observer) (es : List Event) : List (Event × Sink) :=
  es.flatMap fun e => o.sinks.map fun σ => (e, σ)

/-- What deliveries bring to a sink. -/
def bound (σ : Sink) (ds : List (Event × Sink)) : List Event :=
  ds.filterMap fun d => if d.2 = σ then some d.1 else none

theorem bound_map (e : Event) (σ : Sink) (sinks : List Sink) :
    bound σ (sinks.map fun τ => (e, τ)) = List.replicate (sinks.count σ) e := by
  induction sinks with
  | nil => rfl
  | cons τ sinks ih =>
    simp only [bound, List.map_cons, List.filterMap_cons] at ih ⊢
    by_cases hτ : τ = σ <;> simp [hτ, ih, List.replicate_succ]

/-- A sink that is named once gets each event once. -/
theorem bound_due {o : Observer} {σ : Sink} (h : o.sinks.count σ = 1) (es : List Event) :
    bound σ (due o es) = es := by
  induction es with
  | nil => rfl
  | cons e es ih =>
    have happend : due o (e :: es) = (o.sinks.map fun τ => (e, τ)) ++ due o es := rfl
    have hbound (ds ds' : List (Event × Sink)) : bound σ (ds ++ ds') = bound σ ds ++ bound σ ds' :=
      List.filterMap_append
    rw [happend, hbound, bound_map, h, ih]
    rfl

/-- The writes of a scene, the records of those whom they tell, and the readers of a channel. -/
structure Broadcast {K Q R : Type} (b : Backend K Q R) (α : Type) where
  scene : Scene b α
  records : Records
  /-- What each call has still to deliver. -/
  owed : Nat → List (Event × Sink) := fun _ => []
  readers : Nat → Stream

/-- What happens next. -/
inductive Act (α : Type) where
  | step (l : Label α)
  /-- A call delivers an event to a sink. -/
  | deliver (i : Nat) (e : Event) (σ : Sink)
  /-- A reader looks, while more events may come or not, and is told something. -/
  | poll (r : Nat) (alive : Bool) (item : Received Event)

namespace Broadcast

variable {K Q R α : Type} {b : Backend K Q R} (w : Workload Q R α) (o : Observer) (k : Nat)

/-- Before the first step: the channel with number `k` keeps as many events as were asked for, and
every reader has just subscribed. -/
structure Initial (capacity : Nat) (before : List Event) (filters : Nat → List String)
    (x : Broadcast b α) : Prop where
  scene : x.scene.Initial w
  owed : ∀ i, x.owed i = []
  channel : ∃ c : Channel Event, x.records.channels[k]? = some c ∧ c.Holds before ∧
    c.size = Channel.sizeFor capacity ∧ ∀ r, x.readers r = Stream.subscribe c (filters r)

/-- One act.  A call goes on when all is delivered that it has told. -/
inductive Step (x : Broadcast b α) : Act α → Broadcast b α → Prop
  | step {l : Label α} {s : Scene b α} : x.scene.Step w l s →
      (∀ i t, l = .turn i t → x.owed i = []) →
      Step x (.step l)
        { x with
          scene := s
          owed := fun i => x.owed i ++ due o (events (l.turnOf? i).toList) }
  | deliver {i : Nat} {e : Event} {σ : Sink} {rest : List (Event × Sink)} :
      x.owed i = (e, σ) :: rest →
      Step x (.deliver i e σ)
        { x with records := x.records.put e σ, owed := Function.update x.owed i rest }
  | poll {r : Nat} {c : Channel Event} (alive : Bool) : x.records.channels[k]? = some c →
      Step x (.poll r alive ((x.readers r).poll c alive).1)
        { x with
          readers := Function.update x.readers r ((x.readers r).poll c alive).2 }

inductive Run (x : Broadcast b α) : List (Act α) → Broadcast b α → Prop
  | start : Run x [] x
  | act {as : List (Act α)} {a : Act α} {y z : Broadcast b α} : Run x as y → y.Step w o k a z →
      Run x (as ++ [a]) z

end Broadcast

/-! ### What a run says -/

section

variable {α : Type}

def Act.label? : Act α → Option (Label α)
  | .step l => some l
  | _ => none

/-- The steps of the writes. -/
def labels (as : List (Act α)) : List (Label α) := as.filterMap Act.label?

def Act.deliveryOf? (i : Nat) : Act α → Option (Event × Sink)
  | .deliver j e σ => if j = i then some (e, σ) else none
  | _ => none

/-- What call `i` has delivered. -/
def deliveries (i : Nat) (as : List (Act α)) : List (Event × Sink) :=
  as.filterMap (Act.deliveryOf? i)

def Act.receiptOf? (σ : Sink) : Act α → Option Event
  | .deliver _ e τ => if τ = σ then some e else none
  | _ => none

/-- What a sink has got, from all calls. -/
def received (σ : Sink) (as : List (Act α)) : List Event := as.filterMap (Act.receiptOf? σ)

def Act.noteOf? (k r : Nat) : Act α → Option (Note Event)
  | .deliver _ e σ => if σ = .channel k then some (.published e) else none
  | .poll r' alive item => if r' = r then some (.told alive item) else none
  | .step _ => none

/-- What reader `r` can tell. -/
def notes (k r : Nat) (as : List (Act α)) : List (Note Event) := as.filterMap (Act.noteOf? k r)

theorem filterMap_concat {β γ : Type} (f : β → Option γ) (l : List β) (a : β) :
    (l ++ [a]).filterMap f = l.filterMap f ++ (f a).toList := by
  cases h : f a <;> simp [h]

theorem labels_concat (as : List (Act α)) (a : Act α) :
    labels (as ++ [a]) = labels as ++ a.label?.toList := filterMap_concat ..

theorem deliveries_concat (i : Nat) (as : List (Act α)) (a : Act α) :
    deliveries i (as ++ [a]) = deliveries i as ++ (a.deliveryOf? i).toList := filterMap_concat ..

theorem received_concat (σ : Sink) (as : List (Act α)) (a : Act α) :
    received σ (as ++ [a]) = received σ as ++ (a.receiptOf? σ).toList := filterMap_concat ..

theorem notes_concat (k r : Nat) (as : List (Act α)) (a : Act α) :
    notes k r (as ++ [a]) = notes k r as ++ (a.noteOf? k r).toList := filterMap_concat ..

/-- What a sink has got under one name is what the call of that name has delivered to it. -/
theorem received_of_one {as : List (Act α)} {name : Nat → String}
    (hnamed : ∀ j e σ, .deliver j e σ ∈ as → e.operation = name j) {i : Nat}
    (hi : ∀ j, name j = name i → j = i) (σ : Sink) :
    (received σ as).filter (·.operation == name i) = bound σ (deliveries i as) := by
  induction as with
  | nil => rfl
  | cons a as ih =>
    have ih := ih fun j e τ hmem => hnamed j e τ (List.mem_cons_of_mem _ hmem)
    simp only [received, deliveries, bound, List.filterMap_cons] at ih ⊢
    cases a with
    | step | poll => exact ih
    | deliver j e τ =>
      have hname := hnamed j e τ List.mem_cons_self
      by_cases hj : j = i
      · subst hj
        by_cases hτ : τ = σ <;> simp [Act.receiptOf?, Act.deliveryOf?, hname, hτ, ih]
      · have hother : (name j == name i) = false := beq_eq_false_iff_ne.mpr fun h => hj (hi j h)
        by_cases hτ : τ = σ <;> simp [Act.receiptOf?, Act.deliveryOf?, hname, hother, hj, hτ, ih]

end

namespace Broadcast

variable {K Q R α : Type} {b : Backend K Q R} {w : Workload Q R α} {o : Observer} {k : Nat}
  {capacity : Nat} {before : List Event} {filters : Nat → List String} {x₀ x : Broadcast b α}
  {as : List (Act α)}

theorem Run.scene (hrun : x₀.Run w o k as x) : x₀.scene.Run w (labels as) x.scene := by
  induction hrun with
  | start => exact .start
  | act _ hact ih =>
    rw [labels_concat]
    cases hact with
    | step hstep => exact .step ih hstep
    | deliver | poll => simpa [Act.label?] using ih

/-- A call has delivered what it has told, but for what it still owes. -/
theorem Run.deliveries (h : x₀.Initial w k capacity before filters) (hrun : x₀.Run w o k as x)
    (i : Nat) :
    deliveries i as ++ x.owed i = due o (events (turnsOf i (labels as))) := by
  induction hrun with
  | start =>
    rw [h.owed i]
    rfl
  | @act as _ y _ _ hact ih =>
    rw [deliveries_concat, labels_concat]
    cases hact with
    | @step l =>
      have hdue : due o (events (turnsOf i (labels as ++ [l]))) =
          due o (events (turnsOf i (labels as))) ++ due o (events (l.turnOf? i).toList) := by
        simp only [due, events, Scene.turnsOf_concat, List.flatMap_append]
      show Write.deliveries i as ++ [] ++ (y.owed i ++ _) =
        due o (events (turnsOf i (labels as ++ [l])))
      rw [hdue, ← ih, List.append_nil, List.append_assoc]
    | poll =>
      show Write.deliveries i as ++ [] ++ y.owed i = due o (events (turnsOf i (labels as ++ [])))
      rw [List.append_nil, List.append_nil]
      exact ih
    | @deliver j e σ rest howed =>
      show Write.deliveries i as ++ (if j = i then some (e, σ) else none).toList ++
        Function.update y.owed j rest i = due o (events (turnsOf i (labels as ++ [])))
      rw [List.append_nil, ← ih]
      by_cases hj : j = i
      · subst hj
        simp [howed]
      · rw [if_neg hj, Function.update_of_ne (Ne.symm hj), Option.toList_none, List.append_nil]

theorem Run.records (hrun : x₀.Run w o k as x) :
    x₀.records.Gains x.records fun σ => received σ as := by
  induction hrun with
  | start => exact .refl _
  | @act as a _ _ _ hact ih =>
    simp only [received_concat]
    cases hact with
    | step | poll => simpa [Act.receiptOf?] using ih
    | deliver =>
      simpa only [Act.receiptOf?, apply_ite Option.toList, Option.toList_some, Option.toList_none]
        using ih.put _ _

/-! ### The histories of the writes -/

theorem Run.course (h : x₀.Initial w k capacity before filters) (hrun : x₀.Run w o k as x)
    (i : Nat) : ∃ trial, Course w.policy (w.name i) (w.moment i) trial (x.scene.calls i)
      (turnsOf i (labels as)) := by
  obtain ⟨trial, htrial⟩ := hrun.scene.trials i
  exact ⟨trial, hrun.scene.course h.scene htrial⟩

theorem Run.story (h : x₀.Initial w k capacity before filters) (hrun : x₀.Run w o k as x)
    (i : Nat) :
    Story (w.name i) (x.scene.calls i).result? (events (turnsOf i (labels as))) := by
  obtain ⟨trial, hcourse⟩ := hrun.course h i
  exact hcourse.story

theorem Run.named (h : x₀.Initial w k capacity before filters) (hrun : x₀.Run w o k as x) {i : Nat}
    {e : Event} {σ : Sink} (hmem : .deliver i e σ ∈ as) : e.operation = w.name i := by
  have hdelivered : (e, σ) ∈ Write.deliveries i as := by
    refine List.mem_filterMap.mpr ⟨_, hmem, ?_⟩
    simp [Act.deliveryOf?]
  have hdue := List.mem_append_left (x.owed i) hdelivered
  rw [hrun.deliveries h i] at hdue
  obtain ⟨e', he', hsink⟩ := List.mem_flatMap.mp hdue
  obtain ⟨τ, -, heq⟩ := List.mem_map.mp hsink
  cases heq
  exact (hrun.story h i).named e he'

/-- What a sink has got from a write, with what the write still owes it, is what the write has
told. -/
theorem Run.told (h : x₀.Initial w k capacity before filters) (hrun : x₀.Run w o k as x) {i : Nat}
    (hi : ∀ j, w.name j = w.name i → j = i) {σ : Sink} (hσ : o.sinks.count σ = 1) :
    (received σ as).filter (·.operation == w.name i) ++ bound σ (x.owed i) =
      events (turnsOf i (labels as)) := by
  rw [received_of_one (fun j e τ hmem => hrun.named h hmem) hi, ← bound_due hσ (events _),
    ← hrun.deliveries h i]
  exact List.filterMap_append.symm

end Broadcast

end Write

end SingleWriter
