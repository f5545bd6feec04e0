import CallWatch.Proofs.Engine.Slot

/-! # Subscribers to the decisions

Decisions are published in a slot one after the other, and every start clears it without a sign to
anybody. A subscriber may come at any time, care for any actions, and look whenever it likes. A look
is a loop: what the subscriber does not care for is passed over, and between two passes the slot may
turn.

Whatever happens, a subscriber yields some of the publications, each while it stands in the slot and
none twice. When it finds nothing to yield it has yielded what stands in the slot, unless that is
nothing or too old for it. So it may miss a decision that was replaced, and never the current one. -/

namespace CallWatch

open Chronicle

/-! ### Turns of the slot -/

/-- A turn of the slot: a decision is published, or the last one is forgotten. -/
inductive SlotTurn where
  | publish (ticket : Ticket) (result : DecisionResult)
  | clear

/-- The slot, and how many decisions were published in it. -/
structure Announcer where
  slot : Slot
  seq : Nat

namespace Announcer

/-- Nothing was published yet. -/
def new : Announcer := ⟨.empty, 0⟩

/-- What a turn publishes: publications are numbered one after the other. -/
def published (a : Announcer) : SlotTurn → List Published
  | .publish ticket result => [⟨a.seq + 1, ticket, result⟩]
  | .clear => []

/-- The slot after a turn. -/
def turn (a : Announcer) : SlotTurn → Announcer
  | .publish ticket result => ⟨a.slot.publish ⟨a.seq + 1, ticket, result⟩, a.seq + 1⟩
  | .clear => ⟨a.slot.clear, a.seq⟩

/-- The slot after several turns. -/
def run (a : Announcer) (turns : List SlotTurn) : Announcer := turns.foldl turn a

/-- The slot shows these publications, and they bear the numbers up to the last one. -/
structure Accounts (a : Announcer) (ps : List Published) : Prop where
  shows : a.slot.Shows ps
  seqs : ps.map (·.seq) = List.range' 1 a.seq

variable {a : Announcer} {ps : List Published}

theorem turns (a : Announcer) (t : SlotTurn) : a.slot.Turns (a.turn t).slot (a.published t) := by
  cases t with
  | publish ticket result => exact .publish _
  | clear => exact .clear

theorem Accounts.new : new.Accounts [] where
  shows := ⟨rfl, by simp [Announcer.new, Slot.empty, Live.start]⟩
  seqs := rfl

theorem Accounts.turn (h : a.Accounts ps) (t : SlotTurn) :
    (a.turn t).Accounts (ps ++ a.published t) where
  shows := h.shows.turns (a.turns t)
  seqs := by
    cases t with
    | publish ticket result =>
      rw [List.map_append, h.seqs, Announcer.turn, List.range'_1_concat]
      simp [Announcer.published, Nat.add_comm]
    | clear => simpa [Announcer.published, Announcer.turn] using h.seqs

theorem Accounts.run (h : a.Accounts ps) (turns : List SlotTurn) :
    ∃ ps', (a.run turns).Accounts ps' := by
  induction turns generalizing a ps with
  | nil => exact ⟨ps, h⟩
  | cons t rest ih => exact ih (h.turn t)

/-- The numbers of the publications ascend. -/
theorem Accounts.ascends (h : a.Accounts ps) : ps.Pairwise fun p q => p.seq < q.seq := by
  rw [← List.pairwise_map (f := fun p : Published => p.seq) (R := (· < ·)), h.seqs]
  exact List.pairwise_lt_range'

end Announcer

/-! ### Passes of a look -/

namespace DecisionStream

variable {d : DecisionStream} {slot : Slot} {given : Bool} {p : Published}

/-- One pass of a look: what is in the slot, if the slot was not seen as it is. -/
def pass (d : DecisionStream) (slot : Slot) (given : Bool) :
    Look (Option Published) × DecisionStream :=
  if d.isStale slot then (.item slot.value, { d with seen := some slot.version })
  else (if given then .pending else .ended, d)

/-- What a pass yields: what it found, if the subscriber cares for it. -/
def yields (d : DecisionStream) (slot : Slot) (given : Bool) : Option Published :=
  (d.pass slot given).1.item?.join.filter fun p => d.since ≤ p.ticket

/-- **A look is a pass, and another look if the pass found what the subscriber does not care for.** -/
theorem poll_eq (d : DecisionStream) (slot : Slot) (given : Bool) :
    d.poll slot given =
      match d.pass slot given with
      | (.item _, after) =>
        match d.yields slot given with
        | some p => (.item p, after)
        | none => after.poll slot given
      | (.ended, after) => (.ended, after)
      | (.pending, after) => (.pending, after) := by
  by_cases hstale : d.isStale slot = true
  · have hseen : ({ d with seen := some slot.version } : DecisionStream).isStale slot = false := by
      simp [isStale]
    rcases hwanted : d.wanted slot with _ | p <;> rw [wanted] at hwanted
    · simp [poll, pass, yields, wanted, hstale, hseen, hwanted, Look.item?]
    · simp [poll, pass, yields, wanted, hstale, hwanted, Look.item?]
  · cases given <;> simp [poll, pass, hstale]

/-- Seen from outside, a pass does what a look does. -/
theorem pass_eq (d : DecisionStream) (slot : Slot) (given : Bool) :
    (d.pass slot given).2 = (d.poll slot given).2 ∧
      d.yields slot given = (d.poll slot given).1.item? := by
  by_cases hstale : d.isStale slot = true
  · rcases hwanted : d.wanted slot with _ | p <;> rw [wanted] at hwanted
    · cases given <;> simp [poll, pass, yields, wanted, hstale, hwanted, Look.item?]
    · simp [poll, pass, yields, wanted, hstale, hwanted, Look.item?]
  · cases given <;> simp [poll, pass, yields, hstale, Look.item?]

/-- Behind a look there is nothing more to be seen. -/
theorem isStale_poll (d : DecisionStream) (slot : Slot) (given : Bool) :
    (d.poll slot given).2.isStale slot = false := by
  rw [← (d.pass_eq slot given).1, pass]
  split
  · simp [isStale]
  · next hstale => exact eq_false_of_ne_true hstale

/-- A pass yields what is in the slot. -/
theorem value_of_yields (h : d.yields slot given = some p) : slot.value = some p := by
  obtain ⟨hfound, -⟩ := Option.filter_eq_some_iff.mp h
  unfold pass at hfound
  split at hfound
  · simpa [Look.item?] using hfound
  · cases given <;> simp [Look.item?] at hfound

end DecisionStream

/-! ### A subscriber and what it yields -/

/-- What happens while there is a subscriber: the slot turns, or a look of the subscriber goes on by
one pass, the slot being given up by then or not. -/
inductive SubscriberEvent where
  | turn (t : SlotTurn)
  | pass (given : Bool)

/-- A subscriber, the slot that it follows, and what it has yielded. -/
structure Subscriber where
  announcer : Announcer
  stream : DecisionStream
  yielded : List Published

namespace Subscriber

/-- Someone who cares for an action and later ones comes after some turns. -/
def joining (turns : List SlotTurn) (since : Ticket) : Subscriber :=
  ⟨Announcer.new.run turns, .startingAt since, []⟩

/-- The slot that the subscriber follows. -/
def slot (s : Subscriber) : Slot := s.announcer.slot

/-- What an event makes of the subscriber and its slot. -/
def after (s : Subscriber) : SubscriberEvent → Subscriber
  | .turn t => { s with announcer := s.announcer.turn t }
  | .pass given =>
    { s with
      stream := (s.stream.pass s.slot given).2
      yielded := s.yielded ++ (s.stream.yields s.slot given).toList }

/-- The subscriber after several events. -/
def run (s : Subscriber) (events : List SubscriberEvent) : Subscriber := events.foldl after s

/-- What is so of a subscriber all the time: it cares for the same actions as when it came, and it
follows the slot. -/
structure Sound (s : Subscriber) (since : Ticket) : Prop where
  since : s.stream.since = since
  follows : ∃ ps, s.announcer.Accounts ps ∧ s.stream.Follows s.slot ps s.yielded

variable {s : Subscriber} {since : Ticket}

theorem Sound.joining (turns : List SlotTurn) (since : Ticket) :
    (joining turns since).Sound since := by
  obtain ⟨ps, hps⟩ := Announcer.Accounts.new.run turns
  exact ⟨rfl, ps, hps, .start since _ ps⟩

/-- Every event keeps a subscriber sound. -/
theorem Sound.after (h : s.Sound since) (e : SubscriberEvent) : (s.after e).Sound since := by
  obtain ⟨ps, hps, hfollows⟩ := h.follows
  cases e with
  | turn t => exact ⟨h.since, _, hps.turn t, hfollows.turns hps.shows (s.announcer.turns t)⟩
  | pass given =>
    obtain ⟨hstream, hyields⟩ := s.stream.pass_eq s.slot given
    have hpoll := hfollows.poll hps.shows given
    rw [← hstream, ← hyields] at hpoll
    refine ⟨?_, ps, hps, hpoll⟩
    rw [Subscriber.after, hstream, DecisionStream.since_poll]
    exact h.since

theorem Sound.run (h : s.Sound since) (events : List SubscriberEvent) :
    (s.run events).Sound since := by
  induction events generalizing s with
  | nil => exact h
  | cons e rest ih => exact ih (h.after e)

/-- What was yielded is for the actions that the subscriber cares for, the numbers ascending. -/
theorem Sound.yielded (h : s.Sound since) :
    (s.yielded.Pairwise fun p q => p.seq < q.seq) ∧ ∀ p ∈ s.yielded, since ≤ p.ticket := by
  obtain ⟨ps, hps, hfollows⟩ := h.follows
  refine ⟨(hps.ascends.sublist List.filter_sublist).sublist hfollows.sublist, fun p hp => ?_⟩
  rw [← h.since]
  exact of_decide_eq_true (List.mem_filter.mp (hfollows.sublist.subset hp)).2

/-- What a pass yields stands in the slot and is newer than all that was yielded. -/
theorem Sound.yields (h : s.Sound since) {given : Bool} {p : Published}
    (hp : s.stream.yields s.slot given = some p) :
    s.slot.value = some p ∧ ∀ q ∈ s.yielded, q.seq < p.seq := by
  have hascends := (h.after (.pass given)).yielded.1
  rw [Subscriber.after, hp, Option.toList_some] at hascends
  refine ⟨DecisionStream.value_of_yields hp, fun q hq => ?_⟩
  exact (List.pairwise_append.mp hascends).2.2 q hq p List.mem_cons_self

/-- Where a look yields nothing, nothing that the subscriber cares for is left to be yielded. -/
theorem Sound.poll_none (h : s.Sound since) {given : Bool}
    (hnone : (s.stream.poll s.slot given).1.item? = none) :
    s.slot.value = none ∨ ∃ p, s.slot.value = some p ∧
      (p.ticket < since ∨ s.yielded.getLast? = some p) := by
  obtain ⟨ps, hps, hfollows⟩ := h.follows
  have hafter := hfollows.poll hps.shows given
  rw [hnone, Option.toList_none, List.append_nil] at hafter
  have hsettled := hafter.settled (s.stream.isStale_poll s.slot given)
  rw [DecisionStream.since_poll, h.since] at hsettled
  rcases hsettled with hempty | ⟨p, hp, hold⟩ | ⟨p, hp, hlast⟩
  · exact .inl hempty
  · exact .inr ⟨p, hp, .inl hold⟩
  · exact .inr ⟨p, hp, .inr hlast⟩

end Subscriber

/-! ### The slot of an engine -/

/-- The slot of an engine, and how many decisions were published in it. -/
def Engine.announcer (e : Engine) : Announcer := ⟨e.slot, e.seq⟩

/-- The turns of the slot that a chronicle tells of: each publication is one, and each pipeline that
is begun for a start clears the slot. -/
def Chronicle.slotTurns (c : Chronicle) : List SlotTurn :=
  c.filterMap fun entry => match entry.2 with
    | .published p _ => some (.publish p.ticket p.result)
    | .began _ _ => some .clear
    | _ => none

@[simp] theorem Chronicle.slotTurns_append (c c' : Chronicle) :
    slotTurns (c ++ c') = slotTurns c ++ slotTurns c' := List.filterMap_append

theorem Engine.Outside.announcer {e e' : Engine} {m : Move} {happened : List Occurrence}
    (h : e.Outside m e' happened) (now : Nat) :
    e'.announcer = e.announcer ∧ slotTurns (happened.map (now, ·)) = [] := by
  cases h <;> exact ⟨rfl, rfl⟩

theorem Engine.announcer_begin (e : Engine) (t : Ticket) (how : StartAction) :
    (e.begin t how).announcer = e.announcer.turn .clear := by
  cases how <;> rfl

theorem Engine.Controls.announcer {e e' : Engine} {happened : List Occurrence}
    (h : e.Controls e' happened) (now : Nat) :
    e'.announcer = e.announcer.run (slotTurns (happened.map (now, ·))) := by
  cases h with
  | takeStart t how => exact Engine.announcer_begin _ t how
  | handleStart _ t how => exact Engine.announcer_begin _ t how
  | _ => rfl

theorem Pipeline.Steps.slotTurns_eq_nil {s : Surroundings} {held : AccountRef → Bool}
    {p p' : Pipeline} {happened : List Occurrence} {output : Option PipelineOutput}
    (h : p.Steps s held p' happened output) (now : Nat) :
    slotTurns (happened.map (now, ·)) = [] := by
  have decided (d : Option Decision) :
      slotTurns ((d.toList.map fun d => Occurrence.decided p.generation d).map (now, ·)) = [] := by
    cases d <;> rfl
  cases h with
  | consume item => exact decided (p.decided? s held)
  | look => exact decided _
  | resolve => exact decided _
  | _ => rfl

namespace World

theorem Moves.announcer {w w' : World} {m : Move} {happened : List Occurrence}
    (h : w.Moves m w' happened) :
    w'.engine.announcer = w.engine.announcer.run (slotTurns (happened.map (w.now, ·))) := by
  cases h with
  | outside _ _ _ hout =>
    obtain ⟨hsame, hnone⟩ := hout.announcer w.now
    rw [hnone, hsame]
    rfl
  | control _ _ _ hcon => exact hcon.announcer w.now
  | pipeline _ _ _ _ _ _ _ hsteps =>
    rw [hsteps.slotTurns_eq_nil]
    rfl
  | _ => rfl

/-- The slot of an engine is what its chronicle makes of it. -/
theorem Reached.announcer {config : EngineConfig} {w : World} (h : Reached config w) :
    w.engine.announcer = Announcer.new.run w.chronicle.slotTurns := by
  refine Leads.keeps
    (I := fun w => w.engine.announcer = Announcer.new.run w.chronicle.slotTurns) ?_ h rfl
  intro w m w' happened hw _ hstep
  rw [hstep.chronicle_noting, slotTurns_append, Announcer.run, List.foldl_append]
  exact hstep.announcer.trans (congrArg (Announcer.run · _) hw)

end World

/-- **Subscribers get the latest decision, and get it once.** Someone who cares for an action and
later ones subscribes after any turns of the slot. Whatever turns and passes come then, in any order:

* what was yielded has ascending numbers and is for actions that the subscriber cares for;
* what a pass yields stands in the slot at that time, and is newer than all that was yielded;
* where a look yields nothing, the slot is empty, or what stands there is for an older action, or it
  is what was yielded last;
* a look is a pass, and another look if the pass found something and did not yield it.

The slot of an engine turns once for each publication and once for each start. -/
theorem Subscriber.yields_latest_once (turns : List SlotTurn) (since : Ticket)
    (events : List SubscriberEvent) :
    let s := (joining turns since).run events
    ((s.yielded.Pairwise fun p q => p.seq < q.seq) ∧ ∀ p ∈ s.yielded, since ≤ p.ticket) ∧
    (∀ given p, s.stream.yields s.slot given = some p →
      s.slot.value = some p ∧ ∀ q ∈ s.yielded, q.seq < p.seq) ∧
    (∀ given, (s.stream.poll s.slot given).1.item? = none →
      s.slot.value = none ∨ ∃ p, s.slot.value = some p ∧
        (p.ticket < since ∨ s.yielded.getLast? = some p)) ∧
    (∀ given, s.stream.poll s.slot given =
      match s.stream.pass s.slot given with
      | (.item _, after) =>
        match s.stream.yields s.slot given with
        | some p => (.item p, after)
        | none => after.poll s.slot given
      | (.ended, after) => (.ended, after)
      | (.pending, after) => (.pending, after)) ∧
    ∀ config w, World.Reached config w →
      w.engine.announcer = Announcer.new.run w.chronicle.slotTurns := by
  intro s
  have hsound : s.Sound since := (Sound.joining turns since).run events
  exact ⟨hsound.yielded, fun _ _ => hsound.yields, fun _ => hsound.poll_none,
    s.stream.poll_eq s.slot, fun _ _ => World.Reached.announcer⟩

/-- Someone who cares for the second action finds an older decision, two decisions between two
passes, one that a start clears, and one more. -/
example :
    let stop (n : Nat) : SubscriberEvent := .turn (.publish ⟨n⟩ (.ok (.stop .noCalls)))
    let s := (Subscriber.joining [.publish ⟨1⟩ (.ok (.stop .actionStopCalled))] ⟨2⟩).run
      [.pass true, stop 2, stop 2, .pass true, .pass true, stop 3, .turn .clear, .pass true, stop 4,
        .pass true]
    s.yielded.map (·.seq) = [3, 5] := by
  decide

end CallWatch
