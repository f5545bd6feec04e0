import CallWatch.Proofs.Numbered
import CallWatch.Proofs.Queue.Window
import Mathlib.Data.List.Basic

/-! # The line in front of the queue

Receivers that found nothing stand in line until they are woken, and leave it when they come back or
are given up.

* A receiver *awaits* something while it is in line, and *dozes* while it was not woken. `called`
  counts those that were woken alone and do not know yet.
* A wake-up for one is worth one call wherever somebody dozes (`called_wakeOne`), and whoever leaves
  the line takes its call along (`called_remove`) or hands it on (`called_giveUp`).
* `Turn`: what one receiver does with the mailbox leaves everybody else in place. -/

namespace CallWatch

namespace ActionQueue

variable {q q' : ActionQueue} {first : Ticket × Action}

theorem of_pop (h : q.pop = some (first, q')) : q.items = first :: q'.items ∧ q'.closed = q.closed := by
  rcases hq : q.items with _ | ⟨item, rest⟩ <;> simp only [pop, hq] at h
  · cases h
  · cases h
    exact ⟨rfl, rfl⟩

theorem items_of_pop_eq_none (h : q.pop = none) : q.items = [] := by
  rcases hq : q.items with _ | ⟨item, rest⟩
  · rfl
  · simp [pop, hq] at h

theorem length_buffer (q : ActionQueue) (item : Ticket × Action) :
    (q.buffer item).items.length ≤ q.items.length + 1 := by
  simp only [buffer, List.length_append, List.length_singleton]
  split
  · rw [List.length_drop]
    omega
  · exact Nat.le_refl _

end ActionQueue

namespace Mailbox

variable {m m' : Mailbox} {n name : ℕ}

/-! ### Places -/

/-- The names of those that wait, in the order in which they came. -/
def line (m : Mailbox) : List ℕ := m.waiters.map (·.name)

/-- A receiver of this name waits. -/
def Awaits (m : Mailbox) (name : ℕ) : Prop := name ∈ m.line

/-- A receiver waits and was not woken. -/
def Dozes (m : Mailbox) (name : ℕ) : Prop := ⟨name, .none⟩ ∈ m.waiters

/-- How many were woken alone and do not know yet. -/
def called (m : Mailbox) : ℕ := m.waiters.countP (·.signal = .one)

/-- The next name is a new one. -/
structure Fresh (m : Mailbox) : Prop where
  waiters : ∀ name, m.Awaits name → name < m.nextName
  kept : ∀ name, m.kept = some name → name < m.nextName

theorem Fresh.not_awaits (h : m.Fresh) : ¬ m.Awaits m.nextName := fun hn =>
  Nat.lt_irrefl _ (h.waiters _ hn)

theorem Fresh.not_kept (h : m.Fresh) : m.kept ≠ some m.nextName := fun hk =>
  Nat.lt_irrefl _ (h.kept _ hk)

theorem Dozes.awaits (h : m.Dozes name) : m.Awaits name := List.mem_map_of_mem h

theorem dozes_of_signal? (h : m.signal? name = some .none) : m.Dozes name := by
  obtain ⟨⟨other, signal⟩, hw, hsig⟩ := Option.map_eq_some_iff.mp h
  obtain ⟨hmem, hname⟩ := mem_of_found hw
  dsimp only at hname hsig
  rwa [hname, hsig] at hmem

theorem signal?_of_mem (hline : m.line.Nodup) {w : Waiter} (hw : w ∈ m.waiters) :
    m.signal? w.name = some w.signal := by
  rw [signal?, found_of_mem hline hw, Option.map_some]

theorem signal?_of_not_awaits (h : ¬ m.Awaits n) : m.signal? n = none := by
  rw [signal?, List.find?_eq_none.mpr, Option.map_none]
  exact fun w hw he => h (List.mem_map.mpr ⟨w, hw, beq_iff_eq.mp he⟩)

/-! ### Waking -/

/-- The first that dozes is woken, if somebody dozes at all. -/
theorem wakeFirst_cases (l : List Waiter) :
    (wakeFirst l = none ∧ ∀ w ∈ l, w.signal ≠ .none) ∨
    ∃ before name after, l = before ++ ⟨name, .none⟩ :: after ∧
      (∀ w ∈ before, w.signal ≠ .none) ∧ wakeFirst l = some (before ++ ⟨name, .one⟩ :: after) := by
  induction l with
  | nil => exact .inl ⟨rfl, by simp⟩
  | cons w rest ih =>
    by_cases hw : w.signal = .none
    · refine .inr ⟨[], w.name, rest, ?_, by simp, ?_⟩
      · rw [← hw]
        rfl
      · rw [wakeFirst, if_pos hw]
        rfl
    · rcases ih with ⟨hnone, hall⟩ | ⟨before, name, after, rfl, hbefore, hsome⟩
      · refine .inl ⟨by rw [wakeFirst, if_neg hw, hnone, Option.map_none], ?_⟩
        exact List.forall_mem_cons.mpr ⟨hw, hall⟩
      · refine .inr ⟨w :: before, name, after, rfl, List.forall_mem_cons.mpr ⟨hw, hbefore⟩, ?_⟩
        rw [wakeFirst, if_neg hw, hsome]
        rfl

/-- A wake-up for one goes to the first that dozes, or is saved. -/
theorem wakeOne_cases (m : Mailbox) :
    ((∀ name, ¬ m.Dozes name) ∧ m.wakeOne = { m with saved := true }) ∨
    ∃ before name after, m.waiters = before ++ ⟨name, .none⟩ :: after ∧
      (∀ w ∈ before, w.signal ≠ .none) ∧
      m.wakeOne = { m with waiters := before ++ ⟨name, .one⟩ :: after } := by
  rcases wakeFirst_cases m.waiters with ⟨hnone, hall⟩ | ⟨before, name, after, hl, hfirst, hsome⟩
  · exact .inl ⟨fun name hd => hall _ hd rfl, by rw [wakeOne, hnone]⟩
  · exact .inr ⟨before, name, after, hl, hfirst, by rw [wakeOne, hsome]⟩

@[simp] theorem line_wakeOne : m.wakeOne.line = m.line := by
  rcases m.wakeOne_cases with ⟨-, heq⟩ | ⟨before, name, after, hl, -, heq⟩
  · rw [heq]
    rfl
  · rw [heq, line, line, hl, List.map_append, List.map_append]
    rfl

@[simp] theorem kept_wakeOne : m.wakeOne.kept = m.kept := by
  unfold wakeOne
  split <;> rfl

@[simp] theorem nextName_wakeOne : m.wakeOne.nextName = m.nextName := by
  unfold wakeOne
  split <;> rfl

theorem dozes_wakeOne (h : m.wakeOne.Dozes name) : m.Dozes name := by
  rcases m.wakeOne_cases with ⟨-, heq⟩ | ⟨before, woken, after, hl, -, heq⟩
  · rw [heq] at h
    exact h
  · rw [heq] at h
    rw [Dozes, hl]
    simp only [Dozes, List.mem_append, List.mem_cons, Waiter.mk.injEq] at h ⊢
    rcases h with h | ⟨-, h⟩ | h
    · exact .inl h
    · cases h
    · exact .inr (.inr h)

/-- Where somebody dozes, a wake-up for one wakes somebody. -/
theorem called_wakeOne (h : m.Dozes name) : m.wakeOne.called = m.called + 1 := by
  rcases m.wakeOne_cases with ⟨hnone, -⟩ | ⟨before, woken, after, hl, -, heq⟩
  · exact absurd h (hnone name)
  · rw [heq, called, called, hl]
    simp
    omega

@[simp] theorem line_wakeAll : m.wakeAll.line = m.line := by
  rw [line, wakeAll, List.map_map]
  exact List.map_congr_left fun w _ => by dsimp only [Function.comp_apply]; split <;> rfl

theorem not_dozes_wakeAll : ¬ m.wakeAll.Dozes name := by
  intro h
  obtain ⟨w, -, hw⟩ := List.mem_map.mp h
  split at hw
  · cases hw
  · next hsig => exact hsig (hw ▸ rfl)

/-! ### Leaving -/

theorem waiters_remove : (m.remove n).waiters = m.waiters.filter (·.name ≠ n) :=
  List.filter_congr fun w _ => by simp [bne, beq_eq_decide]

theorem line_remove : (m.remove n).line = m.line.filter (· ≠ n) := by
  rw [line, waiters_remove, line, List.filter_map]
  rfl

theorem awaits_remove : (m.remove n).Awaits name ↔ m.Awaits name ∧ name ≠ n := by
  rw [Awaits, line_remove, List.mem_filter, decide_eq_true_iff, Awaits]

theorem remove_of_not_awaits (h : ¬ m.Awaits n) : m.remove n = m := by
  have hw : ∀ w ∈ m.waiters, (w.name != n) = true := fun w hw =>
    bne_iff_ne.mpr fun he => h (List.mem_map.mpr ⟨w, hw, he⟩)
  rw [remove, List.filter_eq_self.mpr hw]

theorem dozes_remove (h : (m.remove n).Dozes name) : m.Dozes name := List.mem_of_mem_filter h

/-- Whoever goes back to the end of the line takes along a wake-up for one. -/
theorem called_remove (hline : m.line.Nodup) :
    (m.remove n).called + (decide (m.signal? n = some .one)).toNat = m.called := by
  by_cases hn : m.Awaits n
  · obtain ⟨w, hw, rfl⟩ := List.mem_map.mp hn
    rw [signal?_of_mem hline hw, called, waiters_remove, called]
    simpa using countP_removed hline hw (·.signal = .one)
  · rw [remove_of_not_awaits hn, signal?_of_not_awaits hn]
    rfl

theorem giveUp_of_not_awaits (h : ¬ m.Awaits n) : m.giveUp n = m := by
  rw [giveUp, signal?_of_not_awaits h, remove_of_not_awaits h]

/-- Who is given up has to do with those that wait only. -/
theorem giveUp_with (m : Mailbox) (n : ℕ) (queue : ActionQueue) (kept : Option ℕ) (nextName : ℕ) :
    { m with queue, kept, nextName }.giveUp n = { m.giveUp n with queue, kept, nextName } := by
  have hone (m : Mailbox) :
      { m with queue, kept, nextName }.wakeOne = { m.wakeOne with queue, kept, nextName } := by
    rcases hw : wakeFirst m.waiters with _ | waiters <;> simp [wakeOne, hw]
  have hsig : { m with queue, kept, nextName }.signal? n = m.signal? n := rfl
  rw [giveUp, hsig, giveUp]
  split
  · exact hone (m.remove n)
  · rfl

@[simp] theorem kept_giveUp : (m.giveUp n).kept = m.kept := by
  have h := congrArg kept (giveUp_with m n m.queue m.kept m.nextName)
  exact h

@[simp] theorem nextName_giveUp : (m.giveUp n).nextName = m.nextName := by
  have h := congrArg nextName (giveUp_with m n m.queue m.kept m.nextName)
  exact h

theorem forget_with (m : Mailbox) (nextName : ℕ) :
    { m with nextName }.forget = { m.forget with nextName } := by
  rcases hk : m.kept with _ | name
  · simp [forget, hk]
  · simp only [forget, hk]
    rw [giveUp_with m name m.queue (some name) nextName]
    simp

theorem line_giveUp : (m.giveUp n).line = m.line.filter (· ≠ n) := by
  rw [giveUp]
  split
  · rw [line_wakeOne, line_remove]
  · exact line_remove

theorem awaits_giveUp : (m.giveUp n).Awaits name ↔ m.Awaits name ∧ name ≠ n := by
  rw [Awaits, line_giveUp, List.mem_filter, decide_eq_true_iff, Awaits]

theorem dozes_giveUp (h : (m.giveUp n).Dozes name) : m.Dozes name := by
  rw [giveUp] at h
  split at h
  · exact dozes_remove (dozes_wakeOne h)
  · exact dozes_remove h

/-- Whoever is given up hands a wake-up for one on, if somebody dozes. -/
theorem called_giveUp (hline : m.line.Nodup) (h : (m.giveUp n).Dozes name) :
    (m.giveUp n).called = m.called := by
  have hremove := called_remove (n := n) hline
  rw [giveUp] at h ⊢
  split at h
  · next hsig =>
    rw [called_wakeOne (dozes_wakeOne h), ← hremove, hsig]
    rfl
  · next hsig =>
    have hne : m.signal? n ≠ some .one := hsig
    simpa [hne] using hremove

/-- A receiver is kept no longer. -/
def letGo (m : Mailbox) (name : ℕ) : Mailbox := { m with kept := m.kept.filter (· ≠ name) }

theorem letGo_of_ne (h : m.kept ≠ some n) : m.letGo n = m := by
  rcases hk : m.kept with _ | name
  · rw [letGo, hk, Option.filter_none, ← hk]
  · have hne : name ≠ n := fun he => h (he ▸ hk)
    have hstays : (some name).filter (· ≠ n) = some name :=
      Option.filter_some_pos (decide_eq_true hne)
    rw [letGo, hk, hstays, ← hk]

theorem letGo_of_eq (h : m.kept = some n) : m.letGo n = { m with kept := none } := by
  rw [letGo, h, Option.filter_some_neg (by simp)]

/-! ### Lining up -/

/-- A receiver takes a saved wake-up, or lines up behind the others. -/
def lineUp (m : Mailbox) (name : ℕ) : Mailbox :=
  if m.saved then { m with saved := false }
  else { m with waiters := m.waiters ++ [⟨name, .none⟩] }

theorem lineUp_cases (m : Mailbox) (n : ℕ) :
    m.lineUp n = { m with saved := false } ∨
      m.lineUp n = { m with waiters := m.waiters ++ [⟨n, .none⟩] } := by
  unfold lineUp
  split
  · exact .inl rfl
  · exact .inr rfl

@[simp] theorem queue_lineUp : (m.lineUp n).queue = m.queue := by
  unfold lineUp
  split <;> rfl

@[simp] theorem kept_lineUp : (m.lineUp n).kept = m.kept := by
  unfold lineUp
  split <;> rfl

@[simp] theorem nextName_lineUp : (m.lineUp n).nextName = m.nextName := by
  unfold lineUp
  split <;> rfl

theorem awaits_lineUp (h : (m.lineUp n).Awaits name) : m.Awaits name ∨ name = n := by
  rcases m.lineUp_cases n with heq | heq <;> rw [heq] at h
  · exact .inl h
  · simpa [Awaits, line] using h

theorem nodup_line_lineUp (hline : m.line.Nodup) (hn : ¬ m.Awaits n) : (m.lineUp n).line.Nodup := by
  rcases m.lineUp_cases n with heq | heq <;> rw [heq]
  · exact hline
  · rw [line, List.map_append]
    refine List.nodup_append.mpr ⟨hline, List.nodup_singleton n, fun x hx y hy he => hn ?_⟩
    have hyn : y = n := List.mem_singleton.mp hy
    exact hyn ▸ he ▸ hx

theorem dozes_lineUp (h : (m.lineUp n).Dozes name) : m.Dozes name ∨ name = n := by
  rcases m.lineUp_cases n with heq | heq <;> rw [heq] at h
  · exact .inl h
  · simpa [Dozes] using h

theorem called_lineUp : (m.lineUp n).called = m.called := by
  rcases m.lineUp_cases n with heq | heq <;> rw [heq]
  · rfl
  · simp [called]

/-- A receiver that lines up can be told from those in front of it. -/
theorem lineUp_of_not_awaits (h : ¬ m.Awaits n) (hs : m.saved = false) :
    (m.lineUp n).signal? n = some .none ∧ (m.lineUp n).remove n = m := by
  have hw : ∀ w ∈ m.waiters, w.name ≠ n := fun w hw he => h (List.mem_map.mpr ⟨w, hw, he⟩)
  have hnone : m.waiters.find? (·.name == n) = none :=
    List.find?_eq_none.mpr fun w hw' he => hw w hw' (beq_iff_eq.mp he)
  have hall : m.waiters.filter (·.name != n) = m.waiters :=
    List.filter_eq_self.mpr fun w hw' => bne_iff_ne.mpr (hw w hw')
  refine ⟨by simp [lineUp, hs, signal?, List.find?_append, hnone], ?_⟩
  simp [lineUp, hs, remove, hall]
  rw [← hs]

/-- A receiver that took a saved wake-up, or lined up and was not woken, leaves nothing behind. -/
theorem giveUp_lineUp (h : ¬ m.Awaits n) : (m.lineUp n).giveUp n = { m with saved := false } := by
  rcases hs : m.saved with _ | _
  · obtain ⟨hsig, hrem⟩ := lineUp_of_not_awaits h hs
    rw [giveUp, hsig, hrem, ← hs]
  · have htaken : m.lineUp n = { m with saved := false } := if_pos hs
    rw [htaken]
    exact giveUp_of_not_awaits h

/-! ### Receiving -/

@[simp] theorem kept_receive : (m.receive n).2.kept = m.kept := by
  unfold receive look
  split
  · rfl
  · split <;> rfl

/-- A receiver that finds something does not line up. -/
theorem waiters_receive (hf : (m.receive n).1 ≠ .pending) : (m.receive n).2.waiters = m.waiters := by
  rcases hq : m.queue.pop with _ | ⟨first, q⟩ <;> rcases hc : m.queue.closed with _ | _ <;>
    simp_all [receive, look]

/-- Names that were not given out yet play no part in what a receiver finds. -/
theorem receive_with (m : Mailbox) (n nextName : ℕ) :
    { m with nextName }.receive n = ((m.receive n).1, { (m.receive n).2 with nextName }) := by
  rcases hq : m.queue.pop with _ | ⟨first, q⟩ <;> rcases hc : m.queue.closed with _ | _ <;>
    simp [receive, look, hq, hc]

/-! ### A turn -/

/-- One receiver had its turn with the mailbox, which concerns nobody else's place. -/
structure Turn (m : Mailbox) (n : ℕ) (m' : Mailbox) : Prop where
  line : m'.line.Nodup
  awaits : ∀ name, m'.Awaits name → m.Awaits name ∨ name = n
  kept : ∀ name, name ≠ n → (m'.kept = some name ↔ m.kept = some name)
  nextName : m'.nextName = m.nextName

namespace Turn

theorem fresh (h : m.Turn n m') (hm : m.Fresh) (hn : n < m.nextName) : m'.Fresh where
  waiters name hw := by
    rw [h.nextName]
    rcases h.awaits name hw with hw | rfl
    · exact hm.waiters name hw
    · exact hn
  kept name hk := by
    rw [h.nextName]
    by_cases he : name = n
    · exact he ▸ hn
    · exact hm.kept name ((h.kept name he).mp hk)

variable (hline : m.line.Nodup)
include hline

theorem refl (n : ℕ) : m.Turn n m := ⟨hline, fun _ => .inl, fun _ _ => .rfl, rfl⟩

theorem lineUp (hn : ¬ m.Awaits n) : m.Turn n (m.lineUp n) where
  line := nodup_line_lineUp hline hn
  awaits _ h := awaits_lineUp h
  kept name _ := by rw [kept_lineUp]
  nextName := nextName_lineUp

theorem letGo (queue : ActionQueue) (n : ℕ) : m.Turn n ({ m with queue }.letGo n) where
  line := hline
  awaits _ h := .inl h
  kept name hne := by
    rw [Mailbox.letGo, Option.filter_eq_some_iff]
    simp [hne]
  nextName := rfl

theorem remove (n : ℕ) : m.Turn n (m.remove n) where
  line := by
    rw [line_remove]
    exact hline.filter _
  awaits _ h := .inl (awaits_remove.mp h).1
  kept _ _ := .rfl
  nextName := rfl

theorem giveUp (n : ℕ) : m.Turn n (m.giveUp n) where
  line := by
    rw [line_giveUp]
    exact hline.filter _
  awaits _ h := .inl (awaits_giveUp.mp h).1
  kept _ _ := by rw [kept_giveUp]
  nextName := nextName_giveUp

end Turn

end Mailbox

end CallWatch
