import CallWatch.Proofs.Engine.Publishing

/-! # The slot and those who follow it

The slot counts the publications, and the decision in it, if any, is the last one. A start empties it
without a sign to anybody.

A subscriber sees what stands in the slot when it looks, so what it finds over time is some of the
publications that it cares for, in order. It need not be all of them, but when nothing is left to be
seen it found the one that stands there. -/

namespace CallWatch

/-- The publications, in order. -/
def Chronicle.publications (c : Chronicle) : List Published := c.published.map (·.1)

namespace Chronicle

@[simp] theorem publications_append (c c' : Chronicle) :
    publications (c ++ c') = publications c ++ publications c' := by
  simp [publications]

theorem publications_of_published_eq_nil {c : Chronicle} (h : published c = []) :
    publications c = [] := by
  simp [publications, h]

end Chronicle

open Chronicle

namespace Slot

/-- What a move can do to the slot, and what is published by it. -/
inductive Turns (s : Slot) : Slot → List Published → Prop
  | keep : Turns s s []
  | clear : Turns s s.clear []
  | publish (p) : Turns s (s.publish p) [p]

/-- The slot counts these publications, and no other than the last of them stands in it. -/
structure Shows (s : Slot) (ps : List Published) : Prop where
  version : s.version = ps.length
  value : ∀ p, s.value = some p → ps.getLast? = some p

theorem Shows.turns {s s' : Slot} {ps new : List Published} (h : s.Shows ps)
    (hturn : s.Turns s' new) : s'.Shows (ps ++ new) := by
  cases hturn with
  | keep => simpa using h
  | clear => exact ⟨by simpa using h.version, by simp⟩
  | publish p =>
    refine ⟨by simp [publish, Live.set, h.version], ?_⟩
    rintro q hq
    cases hq
    exact List.getLast?_concat

end Slot

/-! ### A subscriber -/

/-- The item that a look found, if any. -/
def Look.item? {α : Type} : Look α → Option α
  | .item a => some a
  | _ => none

namespace DecisionStream

/-- A subscriber found these decisions among those published so far: what it found is taken from the
publications up to the version that it saw last, and once it saw the slot as it stands, the decision
there, if it cares for it, is the one that it found last. -/
structure Follows (d : DecisionStream) (slot : Slot) (ps found : List Published) : Prop where
  seen : d.seen.getD 0 ≤ slot.version
  taken : found.Sublist ((ps.take (d.seen.getD 0)).filter fun p => d.since ≤ p.ticket)
  latest : d.seen = some slot.version → ∀ p, d.wanted slot = some p → found.getLast? = some p

variable {d : DecisionStream} {slot slot' : Slot} {ps new found : List Published}

/-- A subscriber that has not looked yet has found nothing. -/
theorem Follows.start (since : Ticket) (slot : Slot) (ps : List Published) :
    (startingAt since).Follows slot ps [] :=
  ⟨Nat.zero_le _, List.nil_sublist _, by simp [startingAt]⟩

/-- The slot turns and the subscriber does not look. -/
theorem Follows.turns (h : d.Follows slot ps found) (hslot : slot.Shows ps)
    (hturn : slot.Turns slot' new) : d.Follows slot' (ps ++ new) found := by
  have hseen : d.seen.getD 0 ≤ ps.length := hslot.version ▸ h.seen
  have hfound : found.Sublist
      (((ps ++ new).take (d.seen.getD 0)).filter fun p => d.since ≤ p.ticket) := by
    rw [List.take_append_of_le_length hseen]
    exact h.taken
  cases hturn with
  | keep => exact ⟨h.seen, hfound, h.latest⟩
  | clear => exact ⟨h.seen, hfound, by simp [wanted]⟩
  | publish p =>
    refine ⟨Nat.le_succ_of_le h.seen, hfound, fun hs => ?_⟩
    -- the subscriber cannot have seen the version that the publication makes
    have hseen := h.seen
    rw [hs] at hseen
    exact absurd hseen (Nat.not_succ_le_self _)

/-- The subscriber looks: what it finds is the last publication and was not found before. -/
theorem Follows.poll (h : d.Follows slot ps found) (hslot : slot.Shows ps) (given : Bool) :
    (d.poll slot given).2.Follows slot ps (found ++ (d.poll slot given).1.item?.toList) := by
  by_cases hstale : d.isStale slot = true
  · rcases hwanted : d.wanted slot with _ | p
    · have hpoll : d.poll slot given = (if given then .pending else .ended,
          { d with seen := some slot.version }) := by simp [DecisionStream.poll, hstale, hwanted]
      have hnone : (d.poll slot given).1.item? = none := by rw [hpoll]; cases given <;> rfl
      rw [hnone, hpoll, Option.toList_none, List.append_nil]
      refine ⟨Nat.le_refl _, h.taken.trans ((List.take_sublist_take_left h.seen).filter _), ?_⟩
      intro _ p hp
      cases hwanted.symm.trans hp
    · have hpoll : d.poll slot given = (.item p, { d with seen := some slot.version }) := by
        simp [DecisionStream.poll, hstale, hwanted]
      obtain ⟨hvalue, hsince⟩ := Option.filter_eq_some_iff.mp hwanted
      obtain ⟨earlier, rfl⟩ := List.getLast?_eq_some_iff.mp (hslot.value p hvalue)
      have hversion := hslot.version
      rw [List.length_append, List.length_singleton] at hversion
      have hseen : d.seen.getD 0 ≤ earlier.length := by
        have hle := h.seen
        rcases hs : d.seen with _ | n
        · exact Nat.zero_le _
        · have hne : n ≠ slot.version := by simpa [isStale, hs] using hstale
          rw [hs, Option.getD_some] at hle
          exact Nat.le_of_lt_succ (Nat.lt_of_lt_of_eq (Nat.lt_of_le_of_ne hle hne) hversion)
      have hfound := h.taken
      rw [List.take_append_of_le_length hseen] at hfound
      rw [hpoll]
      refine ⟨Nat.le_refl _, ?_, fun _ q hq => ?_⟩
      · rw [Option.getD_some, hversion, List.take_of_length_le (by simp), List.filter_append]
        refine (hfound.trans ((List.take_sublist _ _).filter _)).append ?_
        simp [Look.item?, of_decide_eq_true hsince]
      · obtain rfl : p = q := Option.some.inj (hwanted.symm.trans hq)
        exact List.getLast?_concat
  · have hpoll : d.poll slot given = (if given then .pending else .ended, d) := by
      simp [DecisionStream.poll, hstale]
    have hnone : (d.poll slot given).1.item? = none := by rw [hpoll]; cases given <;> rfl
    rw [hnone, hpoll, Option.toList_none, List.append_nil]
    exact h

theorem since_poll (d : DecisionStream) (slot : Slot) (given : Bool) :
    (d.poll slot given).2.since = d.since := by
  unfold DecisionStream.poll
  split
  · split <;> rfl
  · rfl

/-- A subscriber that has nothing to see found what stands in the slot, unless that is nothing or
too old for it. -/
theorem Follows.settled (h : d.Follows slot ps found) (hstale : d.isStale slot = false) :
    slot.value = none ∨ (∃ p, slot.value = some p ∧ p.ticket < d.since) ∨
      ∃ p, slot.value = some p ∧ found.getLast? = some p := by
  have hseen : d.seen = some slot.version := by simpa [isStale] using hstale
  rcases hvalue : slot.value with _ | p
  · exact .inl rfl
  · by_cases hsince : d.since ≤ p.ticket
    · exact .inr (.inr ⟨p, rfl, h.latest hseen p (by simp [wanted, hvalue, hsince])⟩)
    · exact .inr (.inl ⟨p, rfl, Nat.lt_of_not_le hsince⟩)

/-- What a subscriber found is some of the publications that it cares for. -/
theorem Follows.sublist (h : d.Follows slot ps found) :
    found.Sublist (ps.filter fun p => d.since ≤ p.ticket) :=
  h.taken.trans ((List.take_sublist _ _).filter _)

end DecisionStream

/-! ### The slot of an engine -/

theorem Engine.Controls.slot {e e' : Engine} {happened : List Occurrence}
    (h : e.Controls e' happened) (now : Nat) :
    e.slot.Turns e'.slot (publications (happened.map (now, ·))) := by
  cases h with
  | pass => exact .publish _
  | fail => exact .publish _
  | takeStop => exact .publish _
  | handleStop => exact .publish _
  | takeStart t how => rw [slot_begin]; exact .clear
  | handleStart _ t how => rw [slot_begin]; exact .clear
  | _ => exact .keep

namespace World

theorem Moves.slot {w w' : World} {m : Move} {happened : List Occurrence}
    (h : w.Moves m w' happened) :
    w.engine.slot.Turns w'.engine.slot (publications (happened.map (w.now, ·))) := by
  have quiet {e' : Engine} {happened : List Occurrence} (hslot : e'.slot = w.engine.slot)
      (hpub : published (happened.map (w.now, ·)) = []) :
      w.engine.slot.Turns e'.slot (publications (happened.map (w.now, ·))) := by
    rw [publications_of_published_eq_nil hpub, hslot]
    exact .keep
  cases h with
  | outside _ e' _ hout => exact quiet (by cases hout <;> rfl) (hout.readings w.now).2
  | control e' _ _ hcon => exact hcon.slot w.now
  | pipeline _ _ _ _ _ _ _ hsteps => exact quiet rfl (hsteps.readings w.now).2.1
  | _ => exact quiet rfl rfl

theorem Reached.shows {config : EngineConfig} {w : World} (h : Reached config w) :
    w.engine.slot.Shows w.chronicle.publications := by
  refine Leads.keeps (I := fun w => w.engine.slot.Shows w.chronicle.publications) ?_ h
    ⟨rfl, by simp [new, Engine.new, Slot.empty, Live.start]⟩
  intro w m w' happened hw _ hstep
  rw [hstep.chronicle_noting, publications_append]
  exact hw.turns hstep.slot

/-- Publications are numbered one after the other. -/
theorem Reached.publications_ascend {config : EngineConfig} {w : World} (h : Reached config w) :
    w.chronicle.publications.Pairwise fun p q => p.seq < q.seq := by
  have hseqs : w.chronicle.publications.map (·.seq) = List.range' 1 w.engine.seq := by
    rw [publications, List.map_map]
    exact h.accounts.seqs
  rw [← List.pairwise_map (f := fun p : Published => p.seq) (R := (· < ·)), hseqs]
  exact List.pairwise_lt_range'

/-- Everything published is for an action that has its ticket already. -/
theorem Reached.publication_lt {config : EngineConfig} {w : World} (h : Reached config w)
    {p : Published} (hp : p ∈ w.chronicle.publications) :
    p.ticket.number < w.engine.queue.nextTicket := by
  obtain ⟨x, hx, rfl⟩ := List.mem_map.mp hp
  obtain ⟨l, hl, hle⟩ := h.accounts.bounded x hx
  exact Nat.lt_of_le_of_lt hle
    (h.accounts.issued l (List.mem_append_left _ (List.mem_of_getLast? hl)))

end World

/-! ### Who holds the slot -/

theorem Engine.Controls.released {e e' : Engine} {happened : List Occurrence}
    (h : e.Controls e' happened) : e'.released = e.released := by
  cases h with
  | takeStart t how => cases how <;> rfl
  | handleStart g t how => cases how <;> rfl
  | _ => rfl

/-- Only a release gives the engine up. -/
theorem World.released_move {w : World} {m : Move} (ha : w.allows m = true) (hm : m ≠ .release) :
    (w.move m).engine.released = w.engine.released := by
  rcases m with a | a | _ | _ | _ | _ | _ | _ | task
  · rfl
  · simp only [move, Engine.trySubmit]
    rcases w.engine.queue.tryEnqueue a with _ | _ <;> rfl
  · simp only [move, Engine.start]
    by_cases hc : w.engine.controller = .unstarted
    · rw [if_pos hc]
    · rw [if_neg hc]
  · rfl
  · exact absurd rfl hm
  · rfl
  · rfl
  · rfl
  · have hmoves := moves_go ha
    generalize w.move (.go task) = w' at hmoves
    cases hmoves with
    | outside _ _ _ h => cases h.isRequest
    | control e' _ _ h => exact h.released
    | _ => rfl

end CallWatch
