import CallWatch.Proofs.Queue.Line

/-! # A mailbox that many use at once

What is done with a mailbox takes several steps, and others may do something in between:

* whoever submits an action puts it into the buffer, and makes a wake-up for one afterwards;
* whoever closes the queue closes it, makes a wake-up for all afterwards, and then one for one;
* a receiver takes a saved wake-up or lines up, looks at the buffer, and if it finds nothing asks
  whether it was woken meanwhile, to begin again if it was. If it was not, it is kept, or given up.
  Whichever way it goes, it hands on a wake-up that was for it alone.

`Traffic.step` is one such step of one of them, and `Traffic.steps` says all that can come of it. Any
sequence of steps is an interleaving. What is done in one go is one of them (`leads_perform`). -/

namespace CallWatch

/-- How far a receiver at work is. -/
inductive ReceiverStage where
  /-- It takes a saved wake-up, or lines up. -/
  | comes
  /-- It looks at the buffer. -/
  | looks
  /-- It found nothing, and asks whether it was woken. -/
  | asks
  /-- It goes. -/
  | goes
  deriving DecidableEq, Repr

/-- A receiver at work. It is kept in the end if it stays; it owes a look if it took a wake-up that
was for it alone and has not looked at the buffer since. -/
structure Receiver where
  name : ℕ
  stays : Bool
  owes : Bool
  stage : ReceiverStage
  deriving DecidableEq, Repr

/-- A mailbox with the receivers at work and the wake-ups that are still to be made. -/
structure Traffic where
  box : Mailbox
  receivers : List Receiver
  callsForOne : ℕ
  callsForAll : ℕ
  deriving DecidableEq, Repr

/-- One step of somebody. -/
inductive TrafficStep where
  /-- An action is put into the buffer, or discarded. -/
  | submit (action : Action)
  /-- The queue is closed. -/
  | shut
  | callOne
  | callAll
  /-- A receiver comes, to be kept while it finds nothing or not. -/
  | come (stays : Bool)
  /-- The receiver of this name takes its next step. -/
  | work (name : ℕ)
  /-- The kept receiver is to look again. -/
  | poll
  /-- The kept receiver is given up. -/
  | forget
  deriving DecidableEq, Repr

namespace Traffic

/-- A mailbox with nobody at work. -/
def still (m : Mailbox) : Traffic := ⟨m, [], 0, 0⟩

/-- Nobody is at work, and every wake-up was made. -/
def AtRest (t : Traffic) : Prop := t.receivers = [] ∧ t.callsForOne = 0 ∧ t.callsForAll = 0

/-- A receiver of this name is at work. -/
def IsAtWork (t : Traffic) (name : ℕ) : Prop := name ∈ t.receivers.map (·.name)

instance (t : Traffic) (name : ℕ) : Decidable (t.IsAtWork name) :=
  inferInstanceAs (Decidable (name ∈ _))

/-- Another receiver is at work. -/
def add (t : Traffic) (r : Receiver) : Traffic := { t with receivers := t.receivers ++ [r] }

/-- The mailbox has changed, and so has the receiver of this name. -/
def put (t : Traffic) (box : Mailbox) (r : Receiver) : Traffic :=
  { t with box, receivers := t.receivers.map fun x => if x.name = r.name then r else x }

/-- The mailbox has changed, and the receiver of this name is at work no longer. -/
def dismiss (t : Traffic) (box : Mailbox) (name : ℕ) : Traffic :=
  { t with box, receivers := t.receivers.filter (·.name ≠ name) }

/-- The kept receiver is kept no longer. It goes, unless it is at work and finds out by itself. -/
def release (t : Traffic) : Traffic :=
  let released := { t with box := { t.box with kept := none } }
  match t.box.kept with
  | some name =>
    if t.IsAtWork name then released else released.add ⟨name, false, false, .goes⟩
  | none => t

/-- A receiver that waits is kept, in place of the one that was kept before. -/
def keep (t : Traffic) (name : ℕ) : Traffic :=
  t.release.dismiss { t.release.box with kept := some name } name

/-- The next step of a receiver. -/
def work (t : Traffic) (r : Receiver) : Traffic :=
  match r.stage with
  | .comes => t.put (t.box.lineUp r.name) { r with stage := .looks }
  | .looks =>
    match t.box.queue.pop with
    | some (_, queue) =>
      t.put ({ t.box with queue }.letGo r.name) { r with owes := false, stage := .goes }
    | none =>
      if t.box.queue.closed then
        t.put (t.box.letGo r.name) { r with owes := false, stage := .goes }
      else t.put t.box { r with owes := false, stage := .asks }
  | .asks =>
    match t.box.signal? r.name with
    | some .none => if r.stays then t.keep r.name else t.put t.box { r with stage := .goes }
    | signal =>
      t.put (t.box.remove r.name) { r with owes := decide (signal = some .one), stage := .comes }
  | .goes => t.dismiss (t.box.giveUp r.name) r.name

/-- A step. One that nobody can take changes nothing. -/
def step (t : Traffic) : TrafficStep → Traffic
  | .submit a =>
    match t.box.queue.tryEnqueue a with
    | .ok (_, queue) => { t with box := { t.box with queue }, callsForOne := t.callsForOne + 1 }
    | .error _ => { t with box := { t.box with queue := t.box.queue.issue } }
  | .shut =>
    { t with
      box := { t.box with queue := t.box.queue.close }
      callsForAll := t.callsForAll + 1 }
  | .callOne =>
    if t.callsForOne = 0 then t
    else { t with box := t.box.wakeOne, callsForOne := t.callsForOne - 1 }
  | .callAll =>
    if t.callsForAll = 0 then t
    else
      { t with
        box := t.box.wakeAll
        callsForOne := t.callsForOne + 1
        callsForAll := t.callsForAll - 1 }
  | .come stays =>
    { t with box := { t.box with nextName := t.box.nextName + 1 } }.add
      ⟨t.box.nextName, stays, false, .comes⟩
  | .work name =>
    match t.receivers.find? (·.name == name) with
    | some r => t.work r
    | none => t
  | .poll =>
    match t.box.kept with
    | some name => if t.IsAtWork name then t else t.add ⟨name, true, false, .asks⟩
    | none => t
  | .forget =>
    match t.box.kept with
    | some name => if t.IsAtWork name then t else t.release
    | none => t

/-- Steps, one after the other. -/
def run (t : Traffic) (steps : List TrafficStep) : Traffic := steps.foldl step t

theorem release_cases (t : Traffic) :
    ((∀ name, t.box.kept = some name → t.IsAtWork name) ∧
      t.release = { t with box := { t.box with kept := none } }) ∨
    ∃ name, t.box.kept = some name ∧ ¬ t.IsAtWork name ∧ t.release =
      { t with box := { t.box with kept := none } }.add ⟨name, false, false, .goes⟩ := by
  rcases hk : t.box.kept with _ | name
  · have hsame : { t with box := { t.box with kept := none } } = t := by rw [← hk]
    exact .inl ⟨by simp, by rw [hsame]; simp [release, hk]⟩
  · by_cases hn : t.IsAtWork name
    · exact .inl ⟨by simpa using hn, by simp [release, hk, hn]⟩
    · exact .inr ⟨name, rfl, hn, by simp [release, hk, hn]⟩

/-- Everything that can come of a receiver's next step. -/
inductive Works (t : Traffic) (r : Receiver) : Traffic → Prop
  | comes (hs : r.stage = .comes) :
      Works t r (t.put (t.box.lineUp r.name) { r with stage := .looks })
  /-- There is something in the buffer. -/
  | finds (hs : r.stage = .looks) (first queue) (hq : t.box.queue.pop = some (first, queue)) :
      Works t r
        (t.put ({ t.box with queue }.letGo r.name) { r with owes := false, stage := .goes })
  /-- There is nothing in the buffer, and nothing will be. -/
  | ends (hs : r.stage = .looks) (hq : t.box.queue.pop = none)
      (hc : t.box.queue.closed = true) :
      Works t r (t.put (t.box.letGo r.name) { r with owes := false, stage := .goes })
  /-- There is nothing in the buffer yet. -/
  | waits (hs : r.stage = .looks) (hq : t.box.queue.pop = none)
      (ho : t.box.queue.closed = false) :
      Works t r (t.put t.box { r with owes := false, stage := .asks })
  /-- It was not woken, and is kept. -/
  | stays (hs : r.stage = .asks) (hsleeps : t.box.signal? r.name = some .none) :
      Works t r (t.keep r.name)
  /-- It was not woken, and does not stay. -/
  | leaves (hs : r.stage = .asks) (hsleeps : t.box.signal? r.name = some .none) :
      Works t r (t.put t.box { r with stage := .goes })
  /-- It was woken, and begins again. -/
  | again (hs : r.stage = .asks) (hwoken : t.box.signal? r.name ≠ some .none) :
      Works t r (t.put (t.box.remove r.name)
        { r with owes := decide (t.box.signal? r.name = some .one), stage := .comes })
  | goes (hs : r.stage = .goes) : Works t r (t.dismiss (t.box.giveUp r.name) r.name)

/-- **A receiver's next step is one of the cases.** -/
theorem works (t : Traffic) (r : Receiver) : t.Works r (t.work r) := by
  rcases hs : r.stage with _ | _ | _ | _
  · have hwork : t.work r = t.put (t.box.lineUp r.name) { r with stage := .looks } := by
      simp [work, hs]
    exact hwork ▸ .comes hs
  · rcases hq : t.box.queue.pop with _ | ⟨first, queue⟩
    · rcases hc : t.box.queue.closed with _ | _
      · have hwork : t.work r = t.put t.box { r with owes := false, stage := .asks } := by
          simp [work, hs, hq, hc]
        exact hwork ▸ .waits hs hq hc
      · have hwork : t.work r =
            t.put (t.box.letGo r.name) { r with owes := false, stage := .goes } := by
          simp [work, hs, hq, hc]
        exact hwork ▸ .ends hs hq hc
    · have hwork : t.work r =
          t.put ({ t.box with queue }.letGo r.name) { r with owes := false, stage := .goes } := by
        simp [work, hs, hq]
      exact hwork ▸ .finds hs first queue hq
  · by_cases hsleeps : t.box.signal? r.name = some .none
    · by_cases hstays : r.stays = true
      · have hwork : t.work r = t.keep r.name := by simp [work, hs, hsleeps, hstays]
        exact hwork ▸ .stays hs hsleeps
      · have hwork : t.work r = t.put t.box { r with stage := .goes } := by
          simp [work, hs, hsleeps, hstays]
        exact hwork ▸ .leaves hs hsleeps
    · have hwork : t.work r = t.put (t.box.remove r.name)
          { r with owes := decide (t.box.signal? r.name = some .one), stage := .comes } := by
        simp [work, hs]
      exact hwork ▸ .again hs hsleeps
  · have hwork : t.work r = t.dismiss (t.box.giveUp r.name) r.name := by simp [work, hs]
    exact hwork ▸ .goes hs

/-- Everything that can come of a step. -/
inductive Steps (t : Traffic) : Traffic → Prop
  /-- Nobody can take it. -/
  | idle : Steps t t
  | accept (a) (ho : t.box.queue.closed = false) :
      Steps t { t with
        box := { t.box with queue := (t.box.queue.buffer (t.box.queue.ticket, a)).issue }
        callsForOne := t.callsForOne + 1 }
  | discard : Steps t { t with box := { t.box with queue := t.box.queue.issue } }
  | shut :
      Steps t { t with
        box := { t.box with queue := t.box.queue.close }
        callsForAll := t.callsForAll + 1 }
  | callOne (calls) (hcalls : t.callsForOne = calls + 1) :
      Steps t { t with box := t.box.wakeOne, callsForOne := calls }
  | callAll (calls) (hcalls : t.callsForAll = calls + 1) :
      Steps t { t with
        box := t.box.wakeAll
        callsForOne := t.callsForOne + 1
        callsForAll := calls }
  | come (stays) :
      Steps t ({ t with box := { t.box with nextName := t.box.nextName + 1 } }.add
        ⟨t.box.nextName, stays, false, .comes⟩)
  | work (r) (hr : r ∈ t.receivers) (t') (hw : t.Works r t') : Steps t t'
  | poll (name) (hk : t.box.kept = some name) (hn : ¬ t.IsAtWork name) :
      Steps t (t.add ⟨name, true, false, .asks⟩)
  | forget (name) (hk : t.box.kept = some name) (hn : ¬ t.IsAtWork name) : Steps t t.release

/-- **A step is one of the cases.** -/
theorem steps (t : Traffic) (s : TrafficStep) : t.Steps (t.step s) := by
  cases s with
  | submit a =>
    rcases hc : t.box.queue.closed with _ | _
    · simpa [step, ActionQueue.tryEnqueue_of_open hc] using Steps.accept a hc
    · simpa [step, ActionQueue.tryEnqueue_of_closed hc] using Steps.discard
  | shut => exact .shut
  | callOne =>
    rcases hcalls : t.callsForOne with _ | calls
    · simpa [step, hcalls] using Steps.idle
    · simpa [step, hcalls] using Steps.callOne calls hcalls
  | callAll =>
    rcases hcalls : t.callsForAll with _ | calls
    · simpa [step, hcalls] using Steps.idle
    · simpa [step, hcalls] using Steps.callAll calls hcalls
  | come stays => exact .come stays
  | work name =>
    rcases hr : t.receivers.find? (·.name == name) with _ | r
    · simpa [step, hr] using Steps.idle
    · simpa [step, hr] using Steps.work r (List.mem_of_find?_eq_some hr) _ (t.works r)
  | poll =>
    rcases hk : t.box.kept with _ | name
    · simpa [step, hk] using Steps.idle
    · by_cases hn : t.IsAtWork name
      · simpa [step, hk, hn] using Steps.idle
      · simpa [step, hk, hn] using Steps.poll name hk hn
  | forget =>
    rcases hk : t.box.kept with _ | name
    · simpa [step, hk] using Steps.idle
    · by_cases hn : t.IsAtWork name
      · simpa [step, hk, hn] using Steps.idle
      · simpa [step, hk, hn] using Steps.forget name hk hn

/-- Some steps lead from one state to another. -/
def Leads (t t' : Traffic) : Prop := ∃ steps, t.run steps = t'

theorem Leads.refl (t : Traffic) : t.Leads t := ⟨[], rfl⟩

theorem Leads.trans {t t' t'' : Traffic} (h : t.Leads t') (h' : t'.Leads t'') : t.Leads t'' := by
  obtain ⟨steps, rfl⟩ := h
  obtain ⟨steps', rfl⟩ := h'
  exact ⟨steps ++ steps', List.foldl_append⟩

theorem leads_step (t : Traffic) (s : TrafficStep) : t.Leads (t.step s) := ⟨[s], rfl⟩

end Traffic

/-! ### In one go -/

/-- What is done with a mailbox in one go. -/
inductive MailboxRequest where
  | enqueue (action : Action)
  | tryEnqueue (action : Action)
  | close
  | receiveOnce
  | wait
  | poll
  | forget
  deriving DecidableEq, Repr

namespace Mailbox

/-- The mailbox after a request. -/
def perform (m : Mailbox) : MailboxRequest → Mailbox
  | .enqueue a => (m.enqueue a).2
  | .tryEnqueue a =>
    match m.tryEnqueue a with
    | .ok (_, m') => m'
    | .error _ => m
  | .close => m.close
  | .receiveOnce => m.receiveOnce.2
  | .wait => m.wait.2
  | .poll => m.poll.2
  | .forget => m.forget

/-- The mailbox after requests, one after the other. -/
def performAll (m : Mailbox) (requests : List MailboxRequest) : Mailbox := requests.foldl perform m

end Mailbox

namespace Traffic

open Mailbox

/-- A mailbox with one receiver at work. -/
def alone (m : Mailbox) (r : Receiver) : Traffic := ⟨m, [r], 0, 0⟩

@[simp] theorem box_alone (m : Mailbox) (r : Receiver) : (alone m r).box = m := rfl

variable {m : Mailbox} {n : ℕ} {stays owes : Bool}

theorem leads_work (m : Mailbox) (r : Receiver) : (alone m r).Leads ((alone m r).work r) := by
  have h := (alone m r).leads_step (.work r.name)
  simpa [step, alone] using h

theorem leads_comes :
    (alone m ⟨n, stays, owes, .comes⟩).Leads (alone (m.lineUp n) ⟨n, stays, owes, .looks⟩) := by
  have h := leads_work m ⟨n, stays, owes, .comes⟩
  simpa [work, put, alone] using h

theorem leads_found {first : Ticket × Action} {q : ActionQueue} (hq : m.queue.pop = some (first, q)) :
    (alone m ⟨n, stays, owes, .looks⟩).Leads
      (alone ({ m with queue := q }.letGo n) ⟨n, stays, false, .goes⟩) := by
  have h := leads_work m ⟨n, stays, owes, .looks⟩
  simpa [work, put, alone, hq] using h

theorem leads_closed (hq : m.queue.pop = none) (hc : m.queue.closed = true) :
    (alone m ⟨n, stays, owes, .looks⟩).Leads (alone (m.letGo n) ⟨n, stays, false, .goes⟩) := by
  have h := leads_work m ⟨n, stays, owes, .looks⟩
  simpa [work, put, alone, hq, hc] using h

theorem leads_nothing (hq : m.queue.pop = none) (hc : m.queue.closed = false) :
    (alone m ⟨n, stays, owes, .looks⟩).Leads (alone m ⟨n, stays, false, .asks⟩) := by
  have h := leads_work m ⟨n, stays, owes, .looks⟩
  simpa [work, put, alone, hq, hc] using h

theorem leads_again (hs : m.signal? n ≠ some .none) :
    (alone m ⟨n, stays, owes, .asks⟩).Leads
      (alone (m.remove n) ⟨n, stays, decide (m.signal? n = some .one), .comes⟩) := by
  have h := leads_work m ⟨n, stays, owes, .asks⟩
  rcases hsig : m.signal? n with _ | _ | _ | _ <;> simp_all [work, put, alone]

theorem leads_goes : (alone m ⟨n, stays, owes, .goes⟩).Leads (still (m.giveUp n)) := by
  have h := leads_work m ⟨n, stays, owes, .goes⟩
  simpa [work, dismiss, alone, still] using h

/-- A receiver that comes and finds something is gone in the end. -/
theorem leads_receive_found (hn : ¬ m.Awaits n) (hf : (m.receive n).1 ≠ .pending)
    (stays owes : Bool) :
    (alone m ⟨n, stays, owes, .comes⟩).Leads (still ((m.receive n).2.letGo n)) := by
  have hgone (queue : ActionQueue) :
      ({ m.lineUp n with queue }.letGo n).giveUp n =
        { m with queue, saved := false }.letGo n := by
    rw [letGo, giveUp_with (m.lineUp n), giveUp_lineUp hn, letGo]
    simp
  refine leads_comes.trans ?_
  rcases hq : m.queue.pop with _ | ⟨first, q⟩
  · rcases hc : m.queue.closed with _ | _
    · simp [receive, look, hq, hc] at hf
    · have hr : (m.receive n).2 = { m with queue := (m.lineUp n).queue, saved := false } := by
        simp [receive, look, hq, hc]
      rw [hr, ← hgone]
      exact (leads_closed (by simpa using hq) (by simpa using hc)).trans leads_goes
  · have hr : (m.receive n).2 = { m with queue := q, saved := false } := by
      simp [receive, look, hq]
    rw [hr, ← hgone]
    exact (leads_found (by simpa using hq)).trans leads_goes

/-- A receiver that comes and finds nothing waits. -/
theorem leads_receive_pending (hn : ¬ m.Awaits n) (hp : (m.receive n).1 = .pending)
    (stays owes : Bool) :
    (alone m ⟨n, stays, owes, .comes⟩).Leads (alone (m.receive n).2 ⟨n, stays, false, .asks⟩) ∧
      (m.receive n).2.signal? n = some .none := by
  obtain ⟨hq, hc⟩ : m.queue.pop = none ∧ m.queue.closed = false := by
    rcases hq : m.queue.pop with _ | ⟨first, q⟩ <;> rcases hc : m.queue.closed with _ | _ <;>
      simp [receive, look, hq, hc] at hp ⊢
  have hr : (m.receive n).2 = { m with saved := false }.lineUp n := by
    simp [receive, look, hq, hc, lineUp]
  have hwaits (owes : Bool) :
      (alone { m with saved := false } ⟨n, stays, owes, .comes⟩).Leads
        (alone (m.receive n).2 ⟨n, stays, false, .asks⟩) := by
    rw [hr]
    exact leads_comes.trans (leads_nothing (by simpa using hq) (by simpa using hc))
  refine ⟨?_, hr ▸ (lineUp_of_not_awaits (m := { m with saved := false }) hn rfl).1⟩
  rcases hs : m.saved with _ | _
  · have hsame : { m with saved := false } = m := by rw [← hs]
    have h := hwaits owes
    rwa [hsame] at h
  · -- The wake-up was an old one. The receiver asks, and lines up after that.
    have htaken : m.lineUp n = { m with saved := false } := if_pos hs
    have hsig : { m with saved := false }.signal? n = none := signal?_of_not_awaits hn
    have hrem : { m with saved := false }.remove n = { m with saved := false } :=
      remove_of_not_awaits hn
    have hasks : (alone m ⟨n, stays, owes, .comes⟩).Leads
        (alone { m with saved := false } ⟨n, stays, false, .asks⟩) :=
      (htaken ▸ leads_comes).trans (leads_nothing hq hc)
    have hagain : (alone { m with saved := false } ⟨n, stays, false, .asks⟩).Leads
        (alone { m with saved := false } ⟨n, stays, _, .comes⟩) :=
      hrem ▸ leads_again (by simp [hsig])
    exact (hasks.trans hagain).trans (hwaits _)

/-- A receiver that waits and does not stay is given up. -/
theorem leads_leaves (hs : m.signal? n = some .none) :
    (alone m ⟨n, false, owes, .asks⟩).Leads (still (m.giveUp n)) := by
  have h := leads_work m ⟨n, false, owes, .asks⟩
  have hgoes : (alone m ⟨n, false, owes, .asks⟩).work ⟨n, false, owes, .asks⟩ =
      alone m ⟨n, false, owes, .goes⟩ := by
    simp [work, put, alone, hs]
  exact (hgoes ▸ h).trans leads_goes

/-- A receiver that waits and stays is kept, and the one that was kept before is given up. -/
theorem leads_kept (hs : m.signal? n = some .none) (hk : m.kept ≠ some n) :
    (alone m ⟨n, true, owes, .asks⟩).Leads (still { m.forget with kept := some n }) := by
  have h := leads_work m ⟨n, true, owes, .asks⟩
  have hwork : (alone m ⟨n, true, owes, .asks⟩).work ⟨n, true, owes, .asks⟩ =
      (alone m ⟨n, true, owes, .asks⟩).keep n := by
    simp [work, hs]
  rw [hwork] at h
  rcases hkept : m.kept with _ | old
  · simpa [keep, release, dismiss, alone, still, forget, hkept] using h
  · have hne : old ≠ n := fun he => hk (he ▸ hkept)
    have hkeep : (alone m ⟨n, true, owes, .asks⟩).keep n =
        alone { m with kept := some n } ⟨old, false, false, .goes⟩ := by
      simp [keep, release, dismiss, alone, add, IsAtWork, hkept, hne]
    have hold : (alone { m with kept := some n } ⟨old, false, false, .goes⟩).Leads
        (still ({ m with kept := some n }.giveUp old)) := leads_goes
    have hgone : { m with kept := some n }.giveUp old = { m.forget with kept := some n } := by
      rw [giveUp_with m old m.queue (some n) m.nextName]
      simp [forget, hkept]
    exact (hkeep ▸ h).trans (hgone ▸ hold)

/-- The kept receiver asks in vain. -/
theorem leads_kept_self (hs : m.signal? n = some .none) (hk : m.kept = some n) :
    (alone m ⟨n, true, owes, .asks⟩).Leads (still m) := by
  have h := leads_work m ⟨n, true, owes, .asks⟩
  have hwork : (alone m ⟨n, true, owes, .asks⟩).work ⟨n, true, owes, .asks⟩ =
      still { m with kept := some n } := by
    simp [work, hs, keep, release, dismiss, alone, still, IsAtWork, hk]
  rw [hwork, ← hk] at h
  exact h

section Fresh

variable (hm : m.Fresh)
include hm

/-- A new receiver that finds something is gone in the end. -/
theorem leads_come_found (hf : (m.receive m.nextName).1 ≠ .pending) (stays : Bool) :
    (still m).Leads (still { (m.receive m.nextName).2 with nextName := m.nextName + 1 }) := by
  have hcomes := leads_step (still m) (.come stays)
  have hreceives := leads_receive_found (m := { m with nextName := m.nextName + 1 })
    hm.not_awaits (by rwa [receive_with]) stays false
  rw [receive_with, letGo_of_ne (by simpa using hm.not_kept)] at hreceives
  exact hcomes.trans hreceives

/-- A new receiver that finds nothing waits. -/
theorem leads_come_pending (hp : (m.receive m.nextName).1 = .pending) (stays : Bool) :
    let m' := { (m.receive m.nextName).2 with nextName := m.nextName + 1 }
    (still m).Leads (alone m' ⟨m.nextName, stays, false, .asks⟩) ∧
      m'.signal? m.nextName = some .none := by
  have hcomes := leads_step (still m) (.come stays)
  have hreceives := leads_receive_pending (m := { m with nextName := m.nextName + 1 })
    hm.not_awaits (by rwa [receive_with]) stays false
  rw [receive_with] at hreceives
  exact ⟨hcomes.trans hreceives.1, hreceives.2⟩

theorem leads_receiveOnce : (still m).Leads (still m.receiveOnce.2) := by
  by_cases hp : (m.receive m.nextName).1 = .pending
  · obtain ⟨hwaits, hsig⟩ := leads_come_pending hm hp false
    have h := hwaits.trans (leads_leaves hsig)
    rw [giveUp_with _ _ (m.receive m.nextName).2.queue (m.receive m.nextName).2.kept] at h
    simpa [receiveOnce] using h
  · have hgone : ¬ (m.receive m.nextName).2.Awaits m.nextName := by
      rw [Awaits, line, waiters_receive hp]
      exact hm.not_awaits
    simpa [receiveOnce, giveUp_of_not_awaits hgone] using leads_come_found hm hp false

theorem leads_wait : (still m).Leads (still m.wait.2) := by
  by_cases hp : (m.receive m.nextName).1 = .pending
  · obtain ⟨hwaits, hsig⟩ := leads_come_pending hm hp true
    have h := hwaits.trans (leads_kept hsig (by simpa using hm.not_kept))
    rw [forget_with] at h
    simpa [wait, hp] using h
  · simpa [wait, hp] using leads_come_found hm hp true

end Fresh

theorem leads_submit (hc : m.queue.closed = false) (a : Action) :
    (still m).Leads
      (still { m with queue := (m.queue.buffer (m.queue.ticket, a)).issue }.wakeOne) := by
  refine ⟨[.submit a, .callOne], ?_⟩
  simp [run, step, still, ActionQueue.tryEnqueue_of_open hc]

theorem leads_poll : (still m).Leads (still m.poll.2) := by
  rcases hk : m.kept with _ | name
  · simpa [poll, hk] using Leads.refl (still m)
  · have hpoll : (still m).Leads (alone m ⟨name, true, false, .asks⟩) := by
      refine ⟨[.poll], ?_⟩
      simp [run, step, still, hk, IsAtWork, add, alone]
    refine hpoll.trans ?_
    by_cases hs : m.signal? name = some .none
    · simpa [poll, hk, hs] using leads_kept_self hs hk
    · -- It was woken, and comes again.
      have hn : ¬ (m.remove name).Awaits name := fun h => (awaits_remove.mp h).2 rfl
      have hkept : ((m.remove name).receive name).2.kept = some name := by
        rw [kept_receive]
        exact hk
      have hpoll : m.poll.2 = if ((m.remove name).receive name).1 = .pending
          then ((m.remove name).receive name).2
          else { ((m.remove name).receive name).2 with kept := none } := by
        simp [poll, hk]
      refine (leads_again hs).trans ?_
      rw [hpoll]
      by_cases hp : ((m.remove name).receive name).1 = .pending
      · obtain ⟨hwaits, hsig⟩ := leads_receive_pending hn hp true _
        rw [if_pos hp]
        exact hwaits.trans (leads_kept_self hsig hkept)
      · rw [if_neg hp, ← letGo_of_eq hkept]
        exact leads_receive_found hn hp _ _

theorem leads_forget : (still m).Leads (still m.forget) := by
  rcases hk : m.kept with _ | name
  · simpa [forget, hk] using Leads.refl (still m)
  · have hforget : (still m).Leads (alone { m with kept := none } ⟨name, false, false, .goes⟩) := by
      refine ⟨[.forget], ?_⟩
      simp [run, step, release, still, hk, IsAtWork, add, alone]
    have h := hforget.trans leads_goes
    rw [giveUp_with m name m.queue none m.nextName] at h
    simpa [forget, hk] using h

/-- **What is done in one go can be done in steps.** -/
theorem leads_perform (hm : m.Fresh) (r : MailboxRequest) :
    (still m).Leads (still (m.perform r)) := by
  cases r with
  | enqueue a =>
    rcases hc : m.queue.closed with _ | _
    · simpa [perform, enqueue, ActionQueue.tryEnqueue_of_open hc] using leads_submit hc a
    · have h := leads_step (still m) (.submit a)
      simpa [step, still, perform, enqueue, ActionQueue.tryEnqueue_of_closed hc] using h
  | tryEnqueue a =>
    rcases hc : m.queue.closed with _ | _
    · simpa [perform, tryEnqueue, ActionQueue.tryEnqueue_of_open hc] using leads_submit hc a
    · simpa [perform, tryEnqueue, ActionQueue.tryEnqueue_of_closed hc] using Leads.refl (still m)
  | close => exact ⟨[.shut, .callAll, .callOne], rfl⟩
  | receiveOnce => exact leads_receiveOnce hm
  | wait => exact leads_wait hm
  | poll => exact leads_poll
  | forget => exact leads_forget

end Traffic

end CallWatch
