import CallWatch.Queue.Waiting
import Mathlib.Data.List.Nodup
import Mathlib.Data.List.Infix

/-! # The queue is a sliding window

Whoever submits, receives or closes, and in whatever order, the queue is asked for one thing after
the other. What came of it all, in order, is its ledger. The buffer is the last part of what was
accepted; in front of it stands what was delivered, and what the capacity left no room for.

* `Mailbox.queue_moves`: receivers that wait and are woken ask the queue for nothing else.
* `Keeps`: how a queue agrees with its ledger. Every answer keeps it.
* `Overrun`: what was accepted and then dropped, told by the ledger alone. -/

namespace CallWatch

/-- What is asked of a queue. -/
inductive QueueRequest where
  | enqueue (action : Action)
  | tryEnqueue (action : Action)
  | receive
  | close
  deriving DecidableEq, Repr

/-- What comes of it. -/
inductive QueueAnswer where
  | accepted (ticket : Ticket) (action : Action)
  | discarded (ticket : Ticket) (action : Action)
  | refused (action : Action)
  | delivered (ticket : Ticket) (action : Action)
  | ended
  | closed
  deriving DecidableEq, Repr

namespace ActionQueue

/-! ### Requests -/

/-- What a receiver finds, and the queue without it. -/
def receive (q : ActionQueue) : Received × ActionQueue :=
  match q.pop with
  | some ((ticket, action), q') => (.action ticket action, q')
  | none => (if q.closed then .closed else .pending, q)

/-- A request is answered at once, apart from a receiver that finds nothing and waits. -/
def serve (q : ActionQueue) : QueueRequest → Option QueueAnswer × ActionQueue
  | .enqueue a =>
    let (ticket, q') := q.enqueue a
    (some (if q.closed then .discarded ticket a else .accepted ticket a), q')
  | .tryEnqueue a =>
    match q.tryEnqueue a with
    | .ok (ticket, q') => (some (.accepted ticket a), q')
    | .error _ => (some (.refused a), q)
  | .receive =>
    match q.receive with
    | (.action ticket action, q') => (some (.delivered ticket action), q')
    | (.closed, q') => (some .ended, q')
    | (.pending, q') => (none, q')
  | .close => (some .closed, q.close)

/-- Requests are answered one after the other. -/
def serveAll (q : ActionQueue) : List QueueRequest → List QueueAnswer × ActionQueue
  | [] => ([], q)
  | r :: rest =>
    let (answers, q') := (q.serve r).2.serveAll rest
    ((q.serve r).1.toList ++ answers, q')

/-- Everything that can come of a request. -/
inductive Serves (q : ActionQueue) : QueueRequest → Option QueueAnswer → ActionQueue → Prop
  /-- An action is accepted. -/
  | accept (r a) (hr : r = .enqueue a ∨ r = .tryEnqueue a) (ho : q.closed = false) :
      Serves q r (some (.accepted q.ticket a)) (q.buffer (q.ticket, a)).issue
  /-- An action uses a ticket up and is discarded. -/
  | discard (a) (hc : q.closed = true) :
      Serves q (.enqueue a) (some (.discarded q.ticket a)) q.issue
  /-- An action is refused. -/
  | refuse (a) (hc : q.closed = true) : Serves q (.tryEnqueue a) (some (.refused a)) q
  /-- The oldest action is delivered. -/
  | deliver (t a rest) (hq : q.items = (t, a) :: rest) :
      Serves q .receive (some (.delivered t a)) { q with items := rest }
  /-- There is nothing more to be delivered. -/
  | finish (hq : q.items = []) (hc : q.closed = true) : Serves q .receive (some .ended) q
  /-- There is nothing to be delivered yet. -/
  | wait (hq : q.items = []) (ho : q.closed = false) : Serves q .receive none q
  /-- The queue is closed. -/
  | close : Serves q .close (some .closed) q.close

/-- **Every answer is one of the cases.** -/
theorem serves (q : ActionQueue) (r : QueueRequest) : q.Serves r (q.serve r).1 (q.serve r).2 := by
  rcases r with a | a | _ | _
  · rcases hc : q.closed with _ | _
    · have h : q.serve (.enqueue a) =
          (some (.accepted q.ticket a), (q.buffer (q.ticket, a)).issue) := by
        simp [serve, enqueue, tryEnqueue_of_open hc, hc]
      rw [h]
      exact .accept _ a (.inl rfl) hc
    · have h : q.serve (.enqueue a) = (some (.discarded q.ticket a), q.issue) := by
        simp [serve, enqueue, tryEnqueue_of_closed hc, hc]
      rw [h]
      exact .discard a hc
  · rcases hc : q.closed with _ | _
    · have h : q.serve (.tryEnqueue a) =
          (some (.accepted q.ticket a), (q.buffer (q.ticket, a)).issue) := by
        simp [serve, tryEnqueue_of_open hc]
      rw [h]
      exact .accept _ a (.inr rfl) hc
    · have h : q.serve (.tryEnqueue a) = (some (.refused a), q) := by
        simp [serve, tryEnqueue_of_closed hc]
      rw [h]
      exact .refuse a hc
  · rcases hq : q.items with _ | ⟨⟨t, a⟩, rest⟩
    · rcases hc : q.closed with _ | _
      · have h : q.serve .receive = (none, q) := by simp [serve, receive, pop, hq, hc]
        rw [h]
        exact .wait hq hc
      · have h : q.serve .receive = (some .ended, q) := by simp [serve, receive, pop, hq, hc]
        rw [h]
        exact .finish hq hc
    · have h : q.serve .receive = (some (.delivered t a), { q with items := rest }) := by
        simp [serve, receive, pop, hq]
      rw [h]
      exact .deliver t a rest hq
  · exact .close

end ActionQueue

/-! ### Mailboxes -/

namespace Mailbox

variable (m : Mailbox)

@[simp] theorem queue_wakeOne : m.wakeOne.queue = m.queue := by
  unfold wakeOne
  split <;> rfl

@[simp] theorem queue_wakeAll : m.wakeAll.queue = m.queue := rfl

@[simp] theorem queue_remove (name : Nat) : (m.remove name).queue = m.queue := rfl

@[simp] theorem queue_giveUp (name : Nat) : (m.giveUp name).queue = m.queue := by
  unfold giveUp
  split <;> simp

@[simp] theorem queue_forget : m.forget.queue = m.queue := by
  unfold forget
  split <;> simp

/-- A receiver that looks finds what the queue has for it. -/
theorem receive_eq (name : Nat) :
    (m.receive name).1 = m.queue.receive.1 ∧ (m.receive name).2.queue = m.queue.receive.2 := by
  unfold receive look ActionQueue.receive
  rcases m.queue.pop with _ | ⟨⟨ticket, action⟩, q'⟩
  · rcases m.queue.closed with _ | _ <;> exact ⟨rfl, rfl⟩
  · exact ⟨rfl, rfl⟩

theorem queue_receive (name : Nat) : (m.receive name).2.queue = (m.queue.serve .receive).2 := by
  rw [(m.receive_eq name).2]
  unfold ActionQueue.serve
  rcases m.queue.receive with ⟨_ | _ | _, q'⟩ <;> rfl

theorem queue_enqueue (a : Action) :
    (m.enqueue a).2.queue = (m.queue.serve (.enqueue a)).2 := by
  rcases hc : m.queue.closed with _ | _
  · simp [enqueue, ActionQueue.serve, ActionQueue.enqueue, ActionQueue.tryEnqueue_of_open hc]
  · simp [enqueue, ActionQueue.serve, ActionQueue.enqueue, ActionQueue.tryEnqueue_of_closed hc]

theorem queue_tryEnqueue {a : Action} {ticket : Ticket} {m' : Mailbox}
    (h : m.tryEnqueue a = .ok (ticket, m')) :
    m'.queue = (m.queue.serve (.tryEnqueue a)).2 := by
  rcases hc : m.queue.closed with _ | _
  · simp only [tryEnqueue, ActionQueue.tryEnqueue_of_open hc, Except.ok.injEq, Prod.mk.injEq] at h
    simp [← h.2, ActionQueue.serve, ActionQueue.tryEnqueue_of_open hc]
  · simp [tryEnqueue, ActionQueue.tryEnqueue_of_closed hc] at h

theorem queue_poll :
    m.poll.2.queue = m.queue ∨ m.poll.2.queue = (m.queue.serve .receive).2 := by
  unfold poll
  split
  · exact .inl rfl
  · next name _ =>
    split
    · exact .inl rfl
    · -- It was woken, and looks again.
      refine .inr ?_
      rw [← queue_remove m name, ← queue_receive _ name]
      dsimp only
      split <;> rfl

theorem queue_wait : m.wait.2.queue = (m.queue.serve .receive).2 := by
  rw [← queue_receive m m.nextName, wait]
  dsimp only
  split <;> simp

/-- What is done with a mailbox asks its queue for the same. Receivers that wait, are woken or are
given up ask it for nothing. -/
theorem queue_moves :
    (∀ a, (m.enqueue a).2.queue = (m.queue.serve (.enqueue a)).2) ∧
    (∀ a ticket m', m.tryEnqueue a = .ok (ticket, m') →
      m'.queue = (m.queue.serve (.tryEnqueue a)).2) ∧
    m.close.queue = (m.queue.serve .close).2 ∧
    m.receiveOnce.2.queue = (m.queue.serve .receive).2 ∧
    m.wait.2.queue = (m.queue.serve .receive).2 ∧
    (m.poll.2.queue = m.queue ∨ m.poll.2.queue = (m.queue.serve .receive).2) ∧
    m.forget.queue = m.queue :=
  ⟨m.queue_enqueue, fun _ _ _ => m.queue_tryEnqueue, by simp [close, ActionQueue.serve],
    by simp [receiveOnce, queue_receive], m.queue_wait, m.queue_poll, m.queue_forget⟩

end Mailbox

/-! ### The ledger -/

/-- What came of everything that was asked, the latest last. -/
abbrev QueueLedger := List QueueAnswer

namespace QueueLedger

/-- The tickets that were issued. -/
def issued (l : QueueLedger) : List Ticket :=
  l.filterMap fun
    | .accepted t _ | .discarded t _ => some t
    | _ => none

/-- The actions that were accepted. -/
def accepted (l : QueueLedger) : List (Ticket × Action) :=
  l.filterMap fun
    | .accepted t a => some (t, a)
    | _ => none

/-- The actions that were delivered. -/
def delivered (l : QueueLedger) : List (Ticket × Action) :=
  l.filterMap fun
    | .delivered t a => some (t, a)
    | _ => none

/-- What receivers were given: an action, or the end. -/
def receipts (l : QueueLedger) : List (Option (Ticket × Action)) :=
  l.filterMap fun
    | .delivered t a => some (some (t, a))
    | .ended => some none
    | _ => none

/-- While this action was waiting, at least so many others were accepted. -/
def Overrun (capacity : Nat) (l : QueueLedger) (x : Ticket × Action) : Prop :=
  ∃ before since later, l = before ++ .accepted x.1 x.2 :: since ++ later ∧
    x ∉ delivered (before ++ since) ∧ capacity ≤ (accepted since).length

@[simp] theorem issued_append (l l' : QueueLedger) : issued (l ++ l') = issued l ++ issued l' :=
  List.filterMap_append

@[simp] theorem accepted_append (l l' : QueueLedger) :
    accepted (l ++ l') = accepted l ++ accepted l' := List.filterMap_append

@[simp] theorem delivered_append (l l' : QueueLedger) :
    delivered (l ++ l') = delivered l ++ delivered l' := List.filterMap_append

/-- What is accepted has a ticket that was issued. -/
theorem accepted_sublist_issued (l : QueueLedger) :
    ((accepted l).map (·.1)).Sublist (issued l) := by
  induction l with
  | nil => exact .slnil
  | cons a l ih =>
    cases a with
    | accepted t x => exact ih.cons_cons t
    | discarded t x => exact ih.cons t
    | _ => exact ih

/-- Where an action was accepted before certain others. -/
theorem exists_split {l : QueueLedger} {front rest : List (Ticket × Action)} {x : Ticket × Action}
    (h : accepted l = front ++ x :: rest) :
    ∃ before since, l = before ++ .accepted x.1 x.2 :: since ∧ accepted since = rest := by
  obtain ⟨l₁, l₂, rfl, -, h₂⟩ := List.filterMap_eq_append_iff.mp h
  obtain ⟨m₁, answer, m₂, rfl, -, hanswer, hrest⟩ := List.filterMap_eq_cons_iff.mp h₂
  refine ⟨l₁ ++ m₁, m₂, ?_, hrest⟩
  cases answer with
  | accepted t a =>
    cases hanswer
    simp
  | _ => cases hanswer

namespace Overrun

variable {capacity : Nat} {l : QueueLedger} {x : Ticket × Action}

theorem append (h : Overrun capacity l x) (l' : QueueLedger) : Overrun capacity (l ++ l') x := by
  obtain ⟨before, since, later, rfl, hx, hlen⟩ := h
  exact ⟨before, since, later ++ l', by simp, hx, hlen⟩

/-- An action is overrun from an answer on, or it was so before. -/
theorem of_concat {answer : QueueAnswer} (h : Overrun capacity (l ++ [answer]) x) :
    Overrun capacity l x ∨ ∃ before since, l ++ [answer] = before ++ .accepted x.1 x.2 :: since ∧
      x ∉ delivered (before ++ since) ∧ capacity ≤ (accepted since).length := by
  obtain ⟨before, since, later, hl, hx, hlen⟩ := h
  rcases List.eq_nil_or_concat' later with rfl | ⟨later, last, rfl⟩
  · exact .inr ⟨before, since, by simpa using hl, hx, hlen⟩
  · rw [← List.append_assoc] at hl
    exact .inl ⟨before, since, later, (List.append_inj' hl rfl).1, hx, hlen⟩

/-- Only another action that is accepted makes an action overrun. -/
theorem of_concat_of_not_accepted {answer : QueueAnswer} (hanswer : accepted [answer] = [])
    (h : Overrun capacity (l ++ [answer]) x) : Overrun capacity l x := by
  rcases h.of_concat with h | ⟨before, since, hl, hx, hlen⟩
  · exact h
  · rcases List.eq_nil_or_concat' since with rfl | ⟨since, last, rfl⟩
    · obtain ⟨-, hlast⟩ := List.append_inj' hl rfl
      cases hlast
      cases hanswer
    · rw [← List.cons_append, ← List.append_assoc] at hl
      obtain ⟨rfl, hlast⟩ := List.append_inj' hl rfl
      cases hlast
      rw [← List.append_assoc, delivered_append] at hx
      rw [accepted_append, hanswer, List.append_nil] at hlen
      exact ⟨before, since, [], by simp, fun hmem => hx (List.mem_append_left _ hmem), hlen⟩

end Overrun

end QueueLedger

/-- What has as many behind it in a line as there is room for is not among the last of the line. -/
theorem not_mem_of_length_le {α : Type} {front rest gone items : List α} {x : α}
    (hline : front ++ x :: rest = gone ++ items) (hnodup : (front ++ x :: rest).Nodup)
    (hlen : items.length ≤ rest.length) : x ∉ items := by
  have hrest : rest <:+ front ++ x :: rest := ⟨front ++ [x], by simp⟩
  have hitems : items <:+ front ++ x :: rest := ⟨gone, hline.symm⟩
  have hsuffix : items <:+ rest := List.suffix_of_suffix_length_le hitems hrest hlen
  intro hx
  have hnotin := (List.nodup_cons.mp (List.nodup_append.mp hnodup).2.1).1
  exact hnotin (hsuffix.subset hx)

namespace ActionQueue

open QueueLedger

/-- Either there is room for one more, or the first makes room for it. -/
theorem buffer_cases {q : ActionQueue} (item : Ticket × Action) (hone : 1 ≤ q.capacity) :
    (q.buffer item).items = q.items ++ [item] ∨ ∃ first rest, q.items = first :: rest ∧
      q.capacity ≤ q.items.length ∧ (q.buffer item).items = rest ++ [item] := by
  unfold buffer
  split
  · next hfull =>
    rcases hq : q.items with _ | ⟨first, rest⟩
    · simp only [hq, List.length_nil] at hfull
      omega
    · exact .inr ⟨first, rest, rfl, hq ▸ hfull, rfl⟩
  · exact .inl rfl

theorem mem_of_mem_buffer {q : ActionQueue} {item x : Ticket × Action}
    (h : x ∈ (q.buffer item).items) : x ∈ q.items ∨ x = item := by
  simp only [buffer, List.mem_append, List.mem_singleton] at h
  refine h.imp_left fun h => ?_
  split at h
  · exact List.mem_of_mem_drop h
  · exact h

/-- How a queue agrees with its ledger. -/
structure Keeps (capacity : Nat) (l : QueueLedger) (q : ActionQueue) : Prop where
  capacity : q.capacity = max capacity 1
  numbered : (issued l).map (·.number) = List.range' 1 (issued l).length
  next : q.nextTicket = (issued l).length + 1
  room : q.items.length ≤ q.capacity
  window : ∃ gone, accepted l = gone ++ q.items ∧ (delivered l).Sublist gone
  accounted : ∀ x ∈ accepted l, x ∈ delivered l ∨ x ∈ q.items ∨ Overrun q.capacity l x
  overrun : ∀ x, Overrun q.capacity l x → x ∉ delivered l ∧ x ∉ q.items

/-- In a ledger whose tickets are numbered one after the other, what was accepted ascends. -/
theorem accepted_ascends_of_numbered {l : QueueLedger} {n : Nat}
    (h : (issued l).map (·.number) = List.range' 1 n) : (accepted l).Pairwise (·.1 < ·.1) := by
  have hlt : ((issued l).map (·.number)).Pairwise (· < ·) := h ▸ List.pairwise_lt_range'
  rw [List.pairwise_map] at hlt
  exact List.pairwise_map.mp (List.Pairwise.sublist (accepted_sublist_issued l) hlt)

theorem nodup_of_ascends {line : List (Ticket × Action)} (h : line.Pairwise (·.1 < ·.1)) :
    line.Nodup := by
  refine h.imp fun {x y} hlt heq => ?_
  rw [heq] at hlt
  exact Nat.lt_irrefl _ hlt

namespace Keeps

variable {capacity : Nat} {l : QueueLedger} {q : ActionQueue}

theorem empty (capacity : Nat) : (ActionQueue.empty capacity).Keeps capacity [] where
  capacity := rfl
  numbered := rfl
  next := rfl
  room := Nat.zero_le _
  window := ⟨[], rfl, .slnil⟩
  accounted := by simp [accepted]
  overrun := by
    rintro x ⟨before, since, later, hl, -⟩
    simp at hl

theorem accepted_ascends (h : q.Keeps capacity l) : (accepted l).Pairwise (·.1 < ·.1) :=
  accepted_ascends_of_numbered h.numbered

/-- The ticket that is issued next was not accepted so far. -/
theorem next_not_mem (h : q.Keeps capacity l) (a : Action) : (q.ticket, a) ∉ accepted l := by
  intro hmem
  have hissued : q.ticket ∈ issued l :=
    (accepted_sublist_issued l).subset (List.mem_map_of_mem (f := (·.1)) hmem)
  have hnumber : q.nextTicket ∈ (issued l).map (·.number) :=
    List.mem_map_of_mem (f := (·.number)) hissued
  rw [h.numbered, List.mem_range'_1, h.next] at hnumber
  omega

/-- One more ticket is numbered like those before. -/
theorem numbered_concat (h : q.Keeps capacity l) :
    (issued l ++ [q.ticket]).map (·.number) = List.range' 1 (issued l ++ [q.ticket]).length := by
  rw [List.map_append, h.numbered, List.length_append, List.length_singleton,
    List.range'_1_concat, List.map_singleton, ticket, h.next, Nat.add_comm 1]

theorem delivered_sublist (h : q.Keeps capacity l) : (delivered l).Sublist (accepted l) := by
  obtain ⟨gone, hgone, hsub⟩ := h.window
  rw [hgone]
  exact hsub.trans (List.sublist_append_left _ _)

/-- What is in the buffer was not delivered. -/
theorem not_delivered (h : q.Keeps capacity l) {x : Ticket × Action} (hx : x ∈ q.items) :
    x ∉ delivered l := by
  obtain ⟨gone, hgone, hsub⟩ := h.window
  have hnodup := nodup_of_ascends h.accepted_ascends
  rw [hgone, List.nodup_append] at hnodup
  exact fun hd => hnodup.2.2 x (hsub.subset hd) x hx rfl

/-- What was accepted last is not overrun. -/
theorem not_overrun_of_newest (h : q.Keeps capacity l) {x : Ticket × Action}
    (hx : (accepted l).getLast? = some x) : ¬ Overrun q.capacity l x := by
  rintro ⟨before, since, later, hl, -, hlen⟩
  have hone : 1 ≤ q.capacity := h.capacity ▸ Nat.le_max_right _ _
  have hnodup := nodup_of_ascends h.accepted_ascends
  have hline : accepted l = accepted before ++ x :: accepted (since ++ later) := by
    rw [hl, List.append_assoc, accepted_append]
    rfl
  have hne : accepted (since ++ later) ≠ [] := by
    rw [accepted_append]
    exact List.append_ne_nil_of_left_ne_nil
      (List.ne_nil_of_length_pos (Nat.lt_of_lt_of_le hone hlen)) _
  rw [hline] at hx hnodup
  rw [List.getLast?_append_of_ne_nil _ (List.cons_ne_nil _ _), List.getLast?_cons_of_ne_nil hne] at hx
  exact (List.nodup_cons.mp (List.nodup_append.mp hnodup).2.1).1 (List.mem_of_getLast? hx)

/-! ### Every answer keeps the agreement -/

/-- An answer that accepts nothing and delivers nothing leaves the buffer as it is. -/
theorem of_quiet (h : q.Keeps capacity l) {q' : ActionQueue} {answer : QueueAnswer}
    (hcap : q'.capacity = q.capacity) (hitems : q'.items = q.items)
    (hnumbered : (issued (l ++ [answer])).map (·.number) =
      List.range' 1 (issued (l ++ [answer])).length)
    (hnext : q'.nextTicket = (issued (l ++ [answer])).length + 1)
    (hacc : accepted [answer] = []) (hdel : delivered [answer] = []) :
    q'.Keeps capacity (l ++ [answer]) := by
  have haccepted : accepted (l ++ [answer]) = accepted l := by
    rw [accepted_append, hacc, List.append_nil]
  have hdelivered : delivered (l ++ [answer]) = delivered l := by
    rw [delivered_append, hdel, List.append_nil]
  constructor
  case capacity =>
    rw [hcap, h.capacity]
  case numbered =>
    exact hnumbered
  case next =>
    exact hnext
  case room =>
    rw [hcap, hitems]
    exact h.room
  case window =>
    rw [haccepted, hdelivered, hitems]
    exact h.window
  case accounted =>
    rw [haccepted, hdelivered, hitems, hcap]
    exact fun x hx => (h.accounted x hx).imp_right (.imp_right (·.append _))
  case overrun =>
    rw [hdelivered, hitems, hcap]
    exact fun x hx => h.overrun x (hx.of_concat_of_not_accepted hacc)

/-- The oldest action is delivered. -/
theorem deliver (h : q.Keeps capacity l) {x : Ticket × Action} {rest : List (Ticket × Action)}
    (hq : q.items = x :: rest) :
    ({ q with items := rest } : ActionQueue).Keeps capacity (l ++ [.delivered x.1 x.2]) := by
  have hissued : issued (l ++ [.delivered x.1 x.2]) = issued l :=
    (issued_append _ _).trans (List.append_nil _)
  have haccepted : accepted (l ++ [.delivered x.1 x.2]) = accepted l :=
    (accepted_append _ _).trans (List.append_nil _)
  have hdelivered : delivered (l ++ [.delivered x.1 x.2]) = delivered l ++ [x] :=
    delivered_append _ _
  obtain ⟨gone, hgone, hsub⟩ := h.window
  rw [hq] at hgone
  constructor
  case capacity =>
    exact h.capacity
  case numbered =>
    rw [hissued]
    exact h.numbered
  case next =>
    rw [hissued]
    exact h.next
  case room =>
    have hroom := h.room
    rw [hq] at hroom
    exact Nat.le_of_succ_le hroom
  case window =>
    refine ⟨gone ++ [x], by rw [haccepted, hgone]; simp, ?_⟩
    rw [hdelivered]
    exact hsub.append (.refl _)
  case accounted =>
    intro y hy
    rw [haccepted] at hy
    rw [hdelivered]
    rcases h.accounted y hy with hy | hy | hy
    · exact .inl (List.mem_append_left _ hy)
    · rw [hq] at hy
      rcases List.mem_cons.mp hy with rfl | hy
      · exact .inl (List.mem_append_right _ List.mem_cons_self)
      · exact .inr (.inl hy)
    · exact .inr (.inr (hy.append _))
  case overrun =>
    intro y hy
    obtain ⟨hnot, hout⟩ := h.overrun y (hy.of_concat_of_not_accepted rfl)
    rw [hq, List.mem_cons, not_or] at hout
    rw [hdelivered, List.mem_append, List.mem_singleton, not_or]
    exact ⟨⟨hnot, hout.1⟩, hout.2⟩

/-- An action is accepted, and the oldest one dropped if there is no room for it. -/
theorem accept (h : q.Keeps capacity l) (a : Action) :
    (q.buffer (q.ticket, a)).issue.Keeps capacity (l ++ [.accepted q.ticket a]) := by
  have hissued : issued (l ++ [.accepted q.ticket a]) = issued l ++ [q.ticket] := issued_append _ _
  have haccepted : accepted (l ++ [.accepted q.ticket a]) = accepted l ++ [(q.ticket, a)] :=
    accepted_append _ _
  have hdelivered : delivered (l ++ [.accepted q.ticket a]) = delivered l :=
    (delivered_append _ _).trans (List.append_nil _)
  have hone : 1 ≤ q.capacity := h.capacity ▸ Nat.le_max_right _ _
  have hnumbered : (issued (l ++ [.accepted q.ticket a])).map (·.number) =
      List.range' 1 (issued (l ++ [.accepted q.ticket a])).length := hissued ▸ h.numbered_concat
  have hroom := length_buffer_le (q.ticket, a) hone h.room
  -- What makes room was in front of the buffer, with as many behind it as the capacity asks for.
  obtain ⟨dropped, hdropped, hover⟩ : ∃ dropped,
      accepted (l ++ [.accepted q.ticket a]) = dropped ++ (q.buffer (q.ticket, a)).items ∧
      (delivered l).Sublist dropped ∧ ∀ y ∈ q.items, y ∈ (q.buffer (q.ticket, a)).items ∨
        Overrun q.capacity (l ++ [.accepted q.ticket a]) y := by
    obtain ⟨gone, hgone, hsub⟩ := h.window
    rcases buffer_cases (q.ticket, a) hone with hitems | ⟨first, rest, hq, hfull, hitems⟩
    · refine ⟨gone, by rw [haccepted, hgone, hitems, List.append_assoc], hsub, fun y hy => ?_⟩
      exact .inl (hitems ▸ List.mem_append_left _ hy)
    · rw [hq] at hgone
      refine ⟨gone ++ [first], by rw [haccepted, hgone, hitems]; simp,
        hsub.trans (List.sublist_append_left _ _), fun y hy => ?_⟩
      rw [hq] at hy
      rcases List.mem_cons.mp hy with rfl | hy
      · obtain ⟨before, since, hl, hsince⟩ := exists_split hgone
        have hnot := h.not_delivered (hq ▸ List.mem_cons_self)
        refine .inr ⟨before, since ++ [.accepted q.ticket a], [], by simp [hl], ?_, ?_⟩
        · rw [hl, delivered_append] at hnot
          simpa [delivered] using hnot
        · rw [accepted_append, hsince, List.length_append]
          rw [hq] at hfull
          exact hfull
      · exact .inl (hitems ▸ List.mem_append_left _ hy)
  obtain ⟨hsub, hover⟩ := hover
  constructor
  case capacity =>
    exact h.capacity
  case numbered =>
    exact hnumbered
  case next =>
    rw [hissued, List.length_append, issue, buffer, h.next]
    rfl
  case room =>
    exact hroom
  case window =>
    exact ⟨dropped, hdropped, hdelivered ▸ hsub⟩
  case accounted =>
    intro y hy
    rw [haccepted] at hy
    rw [hdelivered]
    rcases List.mem_append.mp hy with hy | hy
    · rcases h.accounted y hy with hy | hy | hy
      · exact .inl hy
      · exact .inr (hover y hy)
      · exact .inr (.inr (hy.append _))
    · exact .inr (.inl (List.mem_append_right _ hy))
  case overrun =>
    intro y hy
    rw [hdelivered]
    rcases hy.of_concat with hy | ⟨before, since, hl, hy, hlen⟩
    · obtain ⟨hnot, hout⟩ := h.overrun y hy
      refine ⟨hnot, fun hmem => ?_⟩
      rcases mem_of_mem_buffer hmem with hmem | rfl
      · exact hout hmem
      · obtain ⟨before, since, later, rfl, -⟩ := hy
        exact h.next_not_mem a (by simp [accepted])
    · have hline : accepted (l ++ [.accepted q.ticket a]) =
          accepted before ++ y :: accepted since := by
        rw [hl, accepted_append]
        rfl
      refine ⟨fun hmem => hy ?_, ?_⟩
      · rw [← hdelivered, hl, delivered_append] at hmem
        rw [delivered_append]
        exact hmem
      · refine not_mem_of_length_le (hline.symm.trans hdropped) ?_ (Nat.le_trans hroom hlen)
        rw [← hline]
        exact nodup_of_ascends (accepted_ascends_of_numbered hnumbered)

/-- **Every answer keeps the agreement.** -/
theorem serves (h : q.Keeps capacity l) {r : QueueRequest} {answer : Option QueueAnswer}
    {q' : ActionQueue} (hs : q.Serves r answer q') : q'.Keeps capacity (l ++ answer.toList) := by
  cases hs with
  | accept r a => exact h.accept a
  | discard a hc =>
    have hissued : issued (l ++ [.discarded q.ticket a]) = issued l ++ [q.ticket] :=
      issued_append _ _
    refine h.of_quiet rfl rfl ?_ ?_ rfl rfl
    · rw [hissued]
      exact h.numbered_concat
    · rw [hissued, List.length_append, issue, h.next]
      rfl
  | deliver t a rest hq => exact h.deliver (x := (t, a)) hq
  | wait =>
    rw [Option.toList_none, List.append_nil]
    exact h
  | _ =>
    have hissued (answer : QueueAnswer) (hnone : issued [answer] = []) :
        issued (l ++ [answer]) = issued l := by
      rw [issued_append, hnone, List.append_nil]
    refine h.of_quiet rfl rfl ?_ ?_ rfl rfl
    · rw [hissued _ rfl]
      exact h.numbered
    · rw [hissued _ rfl]
      exact h.next

theorem serveAll (h : q.Keeps capacity l) (requests : List QueueRequest) :
    (q.serveAll requests).2.Keeps capacity (l ++ (q.serveAll requests).1) := by
  induction requests generalizing l q with
  | nil => simpa [ActionQueue.serveAll] using h
  | cons r rest ih =>
    have hrest := ih (h.serves (q.serves r))
    rw [List.append_assoc] at hrest
    exact hrest

end Keeps

/-! ### After the end -/

/-- A queue that is closed accepts nothing, and its receivers are given what is left, one after the
other, and then the end. -/
theorem serveAll_of_closed {q : ActionQueue} (hc : q.closed = true) (more : List QueueRequest) :
    (q.serveAll more).2.closed = true ∧ accepted (q.serveAll more).1 = [] ∧
      receipts (q.serveAll more).1 = (List.range (more.count .receive)).map (q.items[·]?) := by
  induction more generalizing q with
  | nil => exact ⟨hc, rfl, rfl⟩
  | cons r rest ih =>
    have hs := q.serves r
    simp only [serveAll]
    generalize (q.serve r).1 = answer, (q.serve r).2 = q' at hs
    cases hs with
    | accept r a hr ho => simp [hc] at ho
    | wait hq ho => simp [hc] at ho
    | deliver t a items hq =>
      obtain ⟨hclosed, hacc, hreceipts⟩ := ih (q := { q with items }) hc
      refine ⟨hclosed, hacc, ?_⟩
      rw [List.count_cons_self, List.range_succ_eq_map, List.map_cons, List.map_map, hq]
      exact congrArg (some (t, a) :: ·) hreceipts
    | finish hq =>
      obtain ⟨hclosed, hacc, hreceipts⟩ := ih (q := q) hc
      refine ⟨hclosed, hacc, ?_⟩
      rw [List.count_cons_self, List.range_succ_eq_map, List.map_cons, List.map_map]
      rw [hq] at hreceipts ⊢
      exact congrArg (none :: ·) hreceipts
    | discard a =>
      have hrest := ih (q := q.issue) hc
      rw [List.count_cons_of_ne (by simp)]
      exact hrest
    | refuse a =>
      have hrest := ih (q := q) hc
      rw [List.count_cons_of_ne (by simp)]
      exact hrest
    | close =>
      have hrest := ih (q := q.close) rfl
      rw [List.count_cons_of_ne (by simp)]
      exact hrest

/-- **The queue is a sliding window.** Whatever is asked of it, in any order:

* tickets are numbered one after the other, so no two are the same;
* the buffer has room for what is in it, and is the last part of what was accepted, whose tickets
  ascend; what was delivered was accepted in the same order;
* what was accepted is delivered, is in the buffer, or was overrun while it waited, by as many others
  as there is room for, and never two of these; what was accepted last is not overrun;
* an action that is refused changes nothing;
* after the end every action is refused or discarded, and receivers are given what is left in the
  buffer, one after the other, and then the end. -/
theorem sliding_window (capacity : Nat) (requests : List QueueRequest) :
    let l := ((empty capacity).serveAll requests).1
    let q := ((empty capacity).serveAll requests).2
    ((issued l).map (·.number) = List.range' 1 (issued l).length) ∧
    (q.items.length ≤ max capacity 1 ∧ q.items <:+ accepted l ∧
      (accepted l).Pairwise (·.1 < ·.1)) ∧
    ((delivered l).Sublist (accepted l) ∧ (delivered l).Pairwise (·.1 < ·.1)) ∧
    (∀ x ∈ accepted l,
      (x ∈ delivered l ∧ x ∉ q.items ∧ ¬ Overrun (max capacity 1) l x) ∨
      (x ∉ delivered l ∧ x ∈ q.items ∧ ¬ Overrun (max capacity 1) l x) ∨
      (x ∉ delivered l ∧ x ∉ q.items ∧ Overrun (max capacity 1) l x)) ∧
    (∀ x, (accepted l).getLast? = some x → x ∈ delivered l ∨ x ∈ q.items) ∧
    (∀ a, (q.serve (.tryEnqueue a)).1 = some (.refused a) → (q.serve (.tryEnqueue a)).2 = q) ∧
    ∀ more, let after := q.close.serveAll more
      accepted after.1 = [] ∧
      (∀ a, after.2.serve (.tryEnqueue a) = (some (.refused a), after.2)) ∧
      receipts after.1 = (List.range (more.count .receive)).map (q.items[·]?) := by
  intro l q
  have h : q.Keeps capacity l := (Keeps.empty capacity).serveAll requests
  have hexactly (x) (hx : x ∈ accepted l) :
      (x ∈ delivered l ∧ x ∉ q.items ∧ ¬ Overrun (max capacity 1) l x) ∨
      (x ∉ delivered l ∧ x ∈ q.items ∧ ¬ Overrun (max capacity 1) l x) ∨
      (x ∉ delivered l ∧ x ∉ q.items ∧ Overrun (max capacity 1) l x) := by
    rw [← h.capacity]
    rcases h.accounted x hx with hd | hb | ho
    · exact .inl ⟨hd, fun hb => h.not_delivered hb hd, fun ho => (h.overrun x ho).1 hd⟩
    · exact .inr (.inl ⟨h.not_delivered hb, hb, fun ho => (h.overrun x ho).2 hb⟩)
    · exact .inr (.inr ⟨(h.overrun x ho).1, (h.overrun x ho).2, ho⟩)
  refine ⟨h.numbered, ⟨h.capacity ▸ h.room, ?_, h.accepted_ascends⟩,
    ⟨h.delivered_sublist, h.accepted_ascends.sublist h.delivered_sublist⟩, hexactly,
    fun x hx => ?_, fun a ha => ?_, fun more => ?_⟩
  · obtain ⟨gone, hgone, -⟩ := h.window
    exact ⟨gone, hgone.symm⟩
  · have hnot := h.not_overrun_of_newest hx
    rw [h.capacity] at hnot
    rcases hexactly x (List.mem_of_getLast? hx) with ⟨hd, -⟩ | ⟨-, hb, -⟩ | ⟨-, -, ho⟩
    · exact .inl hd
    · exact .inr hb
    · exact absurd ho hnot
  · have hs := q.serves (.tryEnqueue a)
    rw [ha] at hs
    generalize (q.serve (.tryEnqueue a)).2 = q' at hs
    cases hs with
    | refuse => rfl
  · obtain ⟨hclosed, hacc, hreceipts⟩ := serveAll_of_closed (q := q.close) rfl more
    exact ⟨hacc, fun a => by simp [serve, tryEnqueue_of_closed hclosed], hreceipts⟩

/-- Three actions for a queue that has room for one, of which the second is delivered before the
third comes. -/
def threeForOne : List QueueRequest :=
  [.enqueue (.start .default), .enqueue .stop, .receive, .enqueue (.start .default)]

theorem sliding_window_threeForOne :
    let l := ((empty 0).serveAll threeForOne).1
    let q := ((empty 0).serveAll threeForOne).2
    Overrun 1 l (⟨1⟩, .start .default) ∧ (⟨2⟩, .stop) ∈ delivered l ∧
      q.items = [(⟨3⟩, .start .default)] ∧
      receipts (q.close.serveAll [.receive, .enqueue .stop, .receive, .receive]).1 =
        [some (⟨3⟩, .start .default), none, none] := by
  intro l q
  obtain ⟨-, -, -, hexactly, -, -, hafter⟩ := sliding_window 0 threeForOne
  refine ⟨?_, by decide, rfl, (hafter [.receive, .enqueue .stop, .receive, .receive]).2.2⟩
  rcases hexactly (⟨1⟩, .start .default) (by decide) with ⟨hd, -⟩ | ⟨-, hb, -⟩ | ⟨-, -, ho⟩
  · exact absurd hd (by decide)
  · exact absurd hb (by decide)
  · exact ho

end ActionQueue

end CallWatch
