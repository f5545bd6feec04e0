import CallWatch.Decision
import CallWatch.Stream.Combine
import Mathlib.Data.List.DropRight
import Mathlib.Data.List.Forall2

/-! # The combination shows the latest lists

Lists are pushed to the sources of a combination, sources end, and the combination is looked at, in
any order and without failures. What a look finds is told from that history alone (`expected`): which
lists were pushed to each source until it ended, which sources have ended, and whether a list was
pushed since the last look.

* `Source.Follows`: how one source agrees with the history.
* `Combined.Attends`: how all of them do. Unless a source has ended without a list, every look took
  all that was there. Every event keeps it.
* `Combined.shows_latest`: a look finds what is expected, nothing is lost, and the end stays. -/

namespace CallWatch

/-- What happens to a combination. -/
inductive CombineEvent where
  | push (i : ℕ) (list : List Notification)
  | finish (i : ℕ)
  | look
  deriving DecidableEq, Repr

/-- What happened to a combination, the latest last. -/
abbrev CombineHistory := List CombineEvent

namespace CombineHistory

/-! ### What the history tells -/

/-- The list that an event pushes to a source. -/
def listFor? (i : ℕ) : CombineEvent → Option (List Notification)
  | .push j list => if j = i then some list else none
  | _ => none

/-- The lists that were pushed to a source until it ended. -/
def pushed (h : CombineHistory) (i : ℕ) : List (List Notification) :=
  (h.takeWhile (· ≠ .finish i)).filterMap (listFor? i)

/-- The list that was pushed to a source last. -/
def lastPushed (h : CombineHistory) (i : ℕ) : Option (List Notification) := (h.pushed i).getLast?

/-- The history up to the last look. -/
def tillLook (h : CombineHistory) : CombineHistory := h.rdropWhile (· ≠ .look)

/-- A list was pushed to one of so many sources since the last look. -/
def HasNews (h : CombineHistory) (n : ℕ) : Prop := ∃ i < n, h.tillLook.pushed i ≠ h.pushed i

instance (h : CombineHistory) (n : ℕ) : Decidable (h.HasNews n) :=
  inferInstanceAs (Decidable (∃ i < n, _))

/-- One of so many sources has ended and never had a list. -/
def IsBarren (h : CombineHistory) (n : ℕ) : Prop :=
  ∃ i < n, .finish i ∈ h ∧ h.lastPushed i = none

instance (h : CombineHistory) (n : ℕ) : Decidable (h.IsBarren n) :=
  inferInstanceAs (Decidable (∃ i < n, _))

/-- All of so many sources have ended, and nothing was pushed since the last look. -/
def IsSpent (h : CombineHistory) (n : ℕ) : Prop := (∀ i < n, .finish i ∈ h) ∧ ¬ h.HasNews n

instance (h : CombineHistory) (n : ℕ) : Decidable (h.IsSpent n) :=
  inferInstanceAs (Decidable ((∀ i < n, _) ∧ _))

/-- Each of so many sources had a list. -/
def IsComplete (h : CombineHistory) (n : ℕ) : Prop := ∀ i < n, (h.lastPushed i).isSome

instance (h : CombineHistory) (n : ℕ) : Decidable (h.IsComplete n) :=
  inferInstanceAs (Decidable (∀ i < n, _))

/-- The last lists of so many sources, in the order of the sources. -/
def lastLists (h : CombineHistory) (n : ℕ) : List (List Notification) :=
  (List.range n).filterMap h.lastPushed

/-- The first call of the first source whose last list is not empty. -/
def firstCall? (h : CombineHistory) (n : ℕ) : Option Notification :=
  (List.range n).findSome? fun i => (h.lastPushed i).bind (·.head?)

/-- What a look finds after a history. -/
def expected (h : CombineHistory) (n : ℕ) : Combined :=
  if h.IsBarren n ∨ h.IsSpent n then .ended
  else if h.IsComplete n ∧ h.HasNews n then .lists (h.lastLists n).flatten
  else .pending

/-! ### How the history grows -/

variable {h : CombineHistory} {e : CombineEvent} {i n : ℕ}

theorem pushed_append_of_not_mem (hi : .finish i ∉ h) (more : CombineHistory) :
    pushed (h ++ more) i = h.pushed i ++ pushed more i := by
  have hall : ∀ e ∈ h, decide (e ≠ .finish i) = true := fun e he =>
    decide_eq_true fun heq => hi (heq ▸ he)
  rw [pushed, List.takeWhile_append_of_pos hall, List.filterMap_append, pushed, pushed,
    List.takeWhile_eq_self_iff.mpr hall]

/-- Nothing is pushed to a source that has ended. -/
theorem pushed_append_of_mem (hi : .finish i ∈ h) (more : CombineHistory) :
    pushed (h ++ more) i = h.pushed i := by
  rw [pushed, pushed, List.takeWhile_append, if_neg]
  intro hlen
  have hself := (List.takeWhile_prefix _).eq_of_length hlen
  have := List.takeWhile_eq_self_iff.mp hself _ hi
  simp at this

/-- An event that pushes nothing to a source leaves its lists as they are. -/
theorem pushed_concat_of_none (he : listFor? i e = none) : pushed (h ++ [e]) i = h.pushed i := by
  by_cases hi : .finish i ∈ h
  · exact pushed_append_of_mem hi _
  · rw [pushed_append_of_not_mem hi]
    by_cases hfinish : e = .finish i
    · simp [pushed, hfinish]
    · simp [pushed, hfinish, he]

theorem pushed_concat_push (hi : .finish i ∉ h) (list : List Notification) :
    pushed (h ++ [.push i list]) i = h.pushed i ++ [list] := by
  rw [pushed_append_of_not_mem hi]
  simp [pushed, listFor?]

@[simp] theorem lastPushed_concat_look (h : CombineHistory) (i : ℕ) :
    lastPushed (h ++ [.look]) i = h.lastPushed i := by
  rw [lastPushed, pushed_concat_of_none rfl, lastPushed]

@[simp] theorem lastLists_concat_look (h : CombineHistory) (n : ℕ) :
    lastLists (h ++ [.look]) n = h.lastLists n := by
  simp [lastLists]

@[simp] theorem tillLook_concat_look (h : CombineHistory) :
    tillLook (h ++ [.look]) = h ++ [.look] := by
  simp [tillLook]

theorem tillLook_concat_of_ne (he : e ≠ .look) : tillLook (h ++ [e]) = h.tillLook := by
  simp [tillLook, he]

theorem IsBarren.append (hb : h.IsBarren n) (more : CombineHistory) : IsBarren (h ++ more) n := by
  obtain ⟨i, hi, hfinish, hnone⟩ := hb
  refine ⟨i, hi, List.mem_append_left _ hfinish, ?_⟩
  rw [lastPushed, pushed_append_of_mem hfinish]
  exact hnone

theorem IsSpent.concat (hs : h.IsSpent n) (e : CombineEvent) : IsSpent (h ++ [e]) n := by
  obtain ⟨hended, hquiet⟩ := hs
  refine ⟨fun i hi => List.mem_append_left _ (hended i hi), ?_⟩
  rintro ⟨i, hi, hne⟩
  by_cases he : e = .look
  · rw [he, tillLook_concat_look] at hne
    exact hne rfl
  · rw [tillLook_concat_of_ne he, pushed_append_of_mem (hended i hi)] at hne
    exact hquiet ⟨i, hi, hne⟩

/-- Once a look would find the end, it will always find it. -/
theorem ended_append (he : h.IsBarren n ∨ h.IsSpent n) (more : CombineHistory) :
    IsBarren (h ++ more) n ∨ IsSpent (h ++ more) n := by
  induction more generalizing h with
  | nil =>
    rw [List.append_nil]
    exact he
  | cons e rest ih =>
    rw [← List.singleton_append, ← List.append_assoc]
    exact ih (he.imp (·.append [e]) (·.concat e))

theorem expected_eq_ended_iff : h.expected n = .ended ↔ h.IsBarren n ∨ h.IsSpent n := by
  unfold expected
  split
  · next hended => exact iff_of_true rfl hended
  · next hended =>
    refine iff_of_false ?_ hended
    split <;> simp

/-- The list of calls that is expected is a complete one, and new. -/
theorem expected_eq_lists_iff {all : List Notification} : h.expected n = .lists all ↔
    ¬ (h.IsBarren n ∨ h.IsSpent n) ∧ (h.IsComplete n ∧ h.HasNews n) ∧
      all = (h.lastLists n).flatten := by
  unfold expected
  split
  · next hended => simp [hended]
  · next hended =>
    split
    · next hnew => simp [hended, hnew, eq_comm]
    · next hnew => simp [hended, hnew]

/-- The first of the last calls is the first call of the first source that has one. -/
theorem head?_flatten_lastLists (h : CombineHistory) (n : ℕ) :
    (h.lastLists n).flatten.head? = h.firstCall? n := by
  rw [List.head?_flatten, lastLists, firstCall?]
  induction List.range n with
  | nil => rfl
  | cons i rest ih =>
    rw [List.filterMap_cons, List.findSome?_cons]
    rcases h.lastPushed i with _ | list
    · exact ih
    · rw [List.findSome?_cons, ih]
      rfl

end CombineHistory

open CombineHistory

/-! ### One source -/

namespace Source

/-- A source that was looked at, if nothing fails. -/
def drained (s : Source) : Source :=
  if s.ended then s
  else ⟨{ s.inbox with ready := [] }, s.inbox.closed,
    (splitFailure s.inbox.ready).1.getLast? <|> s.latest⟩

/-- A source that has ended without a list. -/
def IsBarren (s : Source) : Prop := s.ended = true ∧ s.latest = none

/-- A source agrees with the history: it had these lists, and these wait to be looked at. -/
structure Follows (s : Source) (h : CombineHistory) (i : ℕ)
    (seen new : List (List Notification)) : Prop where
  pushed : h.pushed i = seen ++ new
  ready : s.inbox.ready = new.map .ok
  latest : s.latest = seen.getLast?
  closed : s.inbox.closed = true ↔ .finish i ∈ h
  finished : s.ended = true → .finish i ∈ h ∧ new = []

theorem splitFailure_ok (lists : List (List Notification)) :
    splitFailure (lists.map .ok) = (lists, none, []) := by
  induction lists with
  | nil => rfl
  | cons list rest ih => rw [List.map_cons, splitFailure, ih]

namespace Follows

variable {s : Source} {h : CombineHistory} {e : CombineEvent} {i : ℕ}
  {seen new : List (List Notification)}

theorem fresh (i : ℕ) : (Source.fresh .empty).Follows [] i [] [] :=
  ⟨rfl, rfl, rfl, by simp [Source.fresh, Inbox.empty], by simp [Source.fresh]⟩

/-- An event that does not concern the source. -/
theorem concat (hs : s.Follows h i seen new) (hlist : listFor? i e = none) (he : e ≠ .finish i) :
    s.Follows (h ++ [e]) i seen new where
  pushed := (pushed_concat_of_none hlist).trans hs.pushed
  ready := hs.ready
  latest := hs.latest
  closed := by simp [hs.closed, he.symm]
  finished hended := (hs.finished hended).imp_left (List.mem_append_left _)

/-- A list is pushed to the source; one that has ended does not take it. -/
theorem push (hs : s.Follows h i seen new) (list : List Notification) :
    ∃ new', ({ s with inbox := s.inbox.push (.ok list) } : Source).Follows
      (h ++ [.push i list]) i seen new' := by
  by_cases hi : .finish i ∈ h
  · have hpush : s.inbox.push (.ok list) = s.inbox := by simp [Inbox.push, hs.closed.mpr hi]
    rw [hpush]
    refine ⟨new, (pushed_append_of_mem hi _).trans hs.pushed, hs.ready, hs.latest, ?_, ?_⟩
    · simp [hs.closed]
    · exact fun hended => (hs.finished hended).imp_left (List.mem_append_left _)
  · have hopen : s.inbox.closed = false := by simpa [hi] using hs.closed.not
    have hpush : s.inbox.push (.ok list) = { s.inbox with ready := s.inbox.ready ++ [.ok list] } := by
      simp [Inbox.push, hopen]
    rw [hpush]
    refine ⟨new ++ [list], ?_, ?_, hs.latest, ?_, fun hended => absurd (hs.finished hended).1 hi⟩
    · rw [pushed_concat_push hi, hs.pushed, List.append_assoc]
    · simp [hs.ready]
    · simp [hopen, hi]

theorem finish (hs : s.Follows h i seen new) :
    ({ s with inbox := s.inbox.close } : Source).Follows (h ++ [.finish i]) i seen new where
  pushed := (pushed_concat_of_none rfl).trans hs.pushed
  ready := hs.ready
  latest := hs.latest
  closed := by simp [Inbox.close]
  finished hended := (hs.finished hended).imp_left (List.mem_append_left _)

/-- After a look the source had everything that was pushed. -/
theorem drained (hs : s.Follows h i seen new) : s.drained.Follows h i (seen ++ new) [] := by
  by_cases hended : s.ended = true
  · obtain ⟨hfinish, rfl⟩ := hs.finished hended
    rw [Source.drained, if_pos hended, List.append_nil]
    exact hs
  · rw [Source.drained, if_neg hended, hs.ready, splitFailure_ok]
    refine ⟨by rw [hs.pushed, List.append_nil], rfl, ?_, hs.closed, fun hclosed => ?_⟩
    · simp [List.getLast?_append, hs.latest]
    · exact ⟨hs.closed.mp hclosed, rfl⟩

theorem latest_drained (hs : s.Follows h i seen new) : s.drained.latest = h.lastPushed i := by
  rw [hs.drained.latest, ← hs.pushed, lastPushed]

theorem ended_drained (hs : s.Follows h i seen new) :
    s.drained.ended = true ↔ .finish i ∈ h := by
  refine ⟨fun hended => (hs.drained.finished hended).1, fun hi => ?_⟩
  rw [Source.drained]
  split
  · next hended => exact hended
  · exact hs.closed.mpr hi

theorem isBarren_drained_iff (hs : s.Follows h i seen new) :
    s.drained.IsBarren ↔ .finish i ∈ h ∧ h.lastPushed i = none := by
  rw [Source.IsBarren, hs.ended_drained, hs.latest_drained]

end Follows

end Source

/-! ### One look -/

namespace Combined

/-- A look at one source takes everything that is there. -/
theorem drain_eq {s : Source} {h : CombineHistory} {i : ℕ} {seen new : List (List Notification)}
    (hs : s.Follows h i seen new) (changed : Bool) :
    drain changed s = (if s.drained.ended && s.drained.latest.isNone then .ended
      else .on (changed || !s.inbox.ready.isEmpty), s.drained) := by
  by_cases hended : s.ended = true
  · obtain ⟨-, rfl⟩ := hs.finished hended
    simp [drain, Source.drained, hended, hs.ready]
  · simp [drain, Source.drained, hended, hs.ready, Source.splitFailure_ok]

/-- Every source agrees with a history, each at its place. -/
def Agree (h : CombineHistory) (sources : List Source) : Prop :=
  ∀ s ∈ sources, ∃ i seen new, s.Follows h i seen new

variable {h : CombineHistory} {sources : List Source}

/-- If no source has ended without a list, a look takes everything that is there from all of them. -/
theorem drainAll_eq (hs : Agree h sources) (hfull : ∀ s ∈ sources, ¬ s.drained.IsBarren)
    (changed : Bool) : drainAll changed sources =
      (.on (changed || sources.any (!·.inbox.ready.isEmpty)), sources.map (·.drained)) := by
  induction sources generalizing changed with
  | nil => simp [drainAll]
  | cons s rest ih =>
    obtain ⟨i, seen, new, hfollows⟩ := hs s (.head _)
    have hnot : (s.drained.ended && s.drained.latest.isNone) = false := by
      simpa [Source.IsBarren, Option.isSome_iff_ne_none] using hfull s (.head _)
    rw [drainAll, drain_eq hfollows, hnot]
    simp only [Bool.false_eq_true, if_false]
    rw [ih (fun s hs' => hs s (.tail _ hs')) fun s hs' => hfull s (.tail _ hs')]
    simp [Bool.or_assoc]

/-- If a source has ended without a list, a look stops there and finds the end. -/
theorem drainAll_barren (hs : Agree h sources) (hbarren : ∃ s ∈ sources, s.drained.IsBarren)
    (changed : Bool) : (drainAll changed sources).1 = .ended ∧
      List.Forall₂ (fun s s' => s' = s ∨ s' = s.drained) sources (drainAll changed sources).2 := by
  induction sources generalizing changed with
  | nil => simp at hbarren
  | cons s rest ih =>
    obtain ⟨i, seen, new, hfollows⟩ := hs s (.head _)
    rw [drainAll, drain_eq hfollows]
    by_cases hstop : (s.drained.ended && s.drained.latest.isNone) = true
    · rw [if_pos hstop]
      exact ⟨rfl, .cons (.inr rfl) (List.forall₂_same.2 fun _ _ => .inl rfl)⟩
    · rw [if_neg hstop]
      have hrest : ∃ s ∈ rest, s.drained.IsBarren := by
        obtain ⟨s', hmem, hb⟩ := hbarren
        rcases List.mem_cons.mp hmem with rfl | hmem
        · exact absurd (by simpa [Source.IsBarren] using hb) hstop
        · exact ⟨s', hmem, hb⟩
      obtain ⟨hended, hforall⟩ := ih (fun s hs' => hs s (.tail _ hs')) hrest
        (changed || !s.inbox.ready.isEmpty)
      exact ⟨hended, .cons (.inr rfl) hforall⟩

theorem poll_eq (hs : Agree h sources) (hfull : ∀ s ∈ sources, ¬ s.drained.IsBarren) :
    poll sources =
      (if sources.any (!·.inbox.ready.isEmpty) && sources.all (·.drained.latest.isSome) then
          .lists (joined (sources.map (·.drained)))
        else if sources.all (·.drained.ended) then .ended else .pending,
        sources.map (·.drained)) := by
  rw [poll, drainAll_eq hs hfull]
  simp only [Bool.false_or, List.all_map, Function.comp_def]
  split
  · rfl
  · split <;> rfl

theorem poll_barren (hs : Agree h sources) (hbarren : ∃ s ∈ sources, s.drained.IsBarren) :
    (poll sources).1 = .ended ∧
      List.Forall₂ (fun s s' => s' = s ∨ s' = s.drained) sources (poll sources).2 := by
  obtain ⟨hended, hforall⟩ := drainAll_barren hs hbarren false
  rcases hdrain : drainAll false sources with ⟨progress, after⟩
  rw [hdrain] at hended hforall
  obtain rfl : progress = .ended := hended
  rw [poll, hdrain]
  exact ⟨rfl, hforall⟩

/-! ### A run -/

/-- What an event makes of the sources, and what it finds if it is a look. -/
def respond (sources : List Source) : CombineEvent → Option Combined × List Source
  | .push i list =>
    (none, sources.modify i fun s => { s with inbox := s.inbox.push (.ok list) })
  | .finish i => (none, sources.modify i fun s => { s with inbox := s.inbox.close })
  | .look => (some (poll sources).1, (poll sources).2)

/-- What all looks find while a history unfolds, and the sources after it. -/
def respondAll (sources : List Source) : CombineHistory → List Combined × List Source
  | [] => ([], sources)
  | e :: rest =>
    let (found, after) := respondAll (respond sources e).2 rest
    ((respond sources e).1.toList ++ found, after)

/-- So many sources to which nothing was pushed yet. -/
def fresh (n : ℕ) : List Source := List.replicate n (.fresh .empty)

/-- What a look finds after a history. -/
def found (n : ℕ) (h : CombineHistory) : Combined := (poll (respondAll (fresh n) h).2).1

/-- The list that was found. -/
def lists? : Combined → Option (List Notification)
  | .lists all => some all
  | _ => none

/-- The lists that the looks of a history found. -/
def shown (n : ℕ) (h : CombineHistory) : List (List Notification) :=
  (respondAll (fresh n) h).1.filterMap lists?

theorem respondAll_append (sources : List Source) (h more : CombineHistory) :
    respondAll sources (h ++ more) =
      ((respondAll sources h).1 ++ (respondAll (respondAll sources h).2 more).1,
        (respondAll (respondAll sources h).2 more).2) := by
  induction h generalizing sources with
  | nil => rfl
  | cons e rest ih => simp [respondAll, ih]

theorem respondAll_concat (sources : List Source) (h : CombineHistory) (e : CombineEvent) :
    respondAll sources (h ++ [e]) =
      ((respondAll sources h).1 ++ (respond (respondAll sources h).2 e).1.toList,
        (respond (respondAll sources h).2 e).2) := by
  rw [respondAll_append]
  simp [respondAll]

/-- So many sources agree with a history. Unless one has ended without a list, the last look took
everything that was there. -/
structure Attends (sources : List Source) (n : ℕ) (h : CombineHistory) : Prop where
  length : sources.length = n
  follows : ∀ (i : ℕ) (hi : i < sources.length), ∃ seen new, sources[i].Follows h i seen new ∧
    (¬ h.IsBarren n → seen = h.tillLook.pushed i)

namespace Attends

variable {n : ℕ} {e : CombineEvent}

theorem fresh (n : ℕ) : Attends (fresh n) n [] where
  length := List.length_replicate
  follows i hi := by
    refine ⟨[], [], ?_, fun _ => rfl⟩
    simp only [Combined.fresh, List.getElem_replicate]
    exact .fresh i

theorem agree (hs : Attends sources n h) : Agree h sources := by
  intro s hmem
  obtain ⟨i, hi, rfl⟩ := List.mem_iff_getElem.mp hmem
  obtain ⟨seen, new, hfollows, -⟩ := hs.follows i hi
  exact ⟨i, seen, new, hfollows⟩

/-- A source is found barren exactly if the history says so. -/
theorem isBarren_iff (hs : Attends sources n h) :
    h.IsBarren n ↔ ∃ s ∈ sources, s.drained.IsBarren := by
  rw [List.exists_mem_iff_exists_getElem, CombineHistory.IsBarren, ← hs.length]
  constructor
  · rintro ⟨i, hi, hb⟩
    obtain ⟨seen, new, hfollows, -⟩ := hs.follows i hi
    exact ⟨i, hi, hfollows.isBarren_drained_iff.mpr hb⟩
  · rintro ⟨i, hi, hb⟩
    obtain ⟨seen, new, hfollows, -⟩ := hs.follows i hi
    exact ⟨i, hi, hfollows.isBarren_drained_iff.mp hb⟩

theorem push (hs : Attends sources n h) (i : ℕ) (list : List Notification) :
    Attends (respond sources (.push i list)).2 n (h ++ [.push i list]) where
  length := (List.length_modify _ _ _).trans hs.length
  follows j hj := by
    have hj' : j < sources.length := by simpa [respond] using hj
    obtain ⟨seen, new, hfollows, hseen⟩ := hs.follows j hj'
    have hseen' : ¬ IsBarren (h ++ [.push i list]) n →
        seen = pushed (tillLook (h ++ [.push i list])) j := fun hnot => by
      rw [tillLook_concat_of_ne (by simp)]
      exact hseen fun hb => hnot (hb.append _)
    simp only [respond, List.getElem_modify]
    split
    · next hij =>
      obtain ⟨new', hpush⟩ := hfollows.push list
      exact ⟨seen, new', hij ▸ hpush, hseen'⟩
    · next hij => exact ⟨seen, new, hfollows.concat (by simp [listFor?, hij]) (by simp), hseen'⟩

theorem finish (hs : Attends sources n h) (i : ℕ) :
    Attends (respond sources (.finish i)).2 n (h ++ [.finish i]) where
  length := (List.length_modify _ _ _).trans hs.length
  follows j hj := by
    have hj' : j < sources.length := by simpa [respond] using hj
    obtain ⟨seen, new, hfollows, hseen⟩ := hs.follows j hj'
    have hseen' : ¬ IsBarren (h ++ [.finish i]) n →
        seen = pushed (tillLook (h ++ [.finish i])) j := fun hnot => by
      rw [tillLook_concat_of_ne (by simp)]
      exact hseen fun hb => hnot (hb.append _)
    simp only [respond, List.getElem_modify]
    split
    · next hij => exact ⟨seen, new, hij ▸ hfollows.finish, hseen'⟩
    · next hij => exact ⟨seen, new, hfollows.concat rfl (by simp [hij]), hseen'⟩

theorem look (hs : Attends sources n h) : Attends (poll sources).2 n (h ++ [.look]) := by
  by_cases hb : h.IsBarren n
  · -- The look may have stopped before it came to a source.
    obtain ⟨-, hforall⟩ := poll_barren hs.agree (hs.isBarren_iff.mp hb)
    obtain ⟨hlength, hget⟩ := List.forall₂_iff_get.mp hforall
    refine ⟨hlength.symm.trans hs.length, fun i hi => ?_⟩
    obtain ⟨seen, new, hfollows, -⟩ := hs.follows i (hlength ▸ hi)
    have hbarren {seen' : List (List Notification)} : ¬ IsBarren (h ++ [.look]) n →
        seen' = pushed (tillLook (h ++ [.look])) i := fun hnot => absurd (hb.append _) hnot
    have hcases := hget i (hlength ▸ hi) hi
    simp only [List.get_eq_getElem] at hcases
    rcases hcases with heq | heq <;> rw [heq]
    · exact ⟨seen, new, hfollows.concat rfl (by simp), hbarren⟩
    · exact ⟨seen ++ new, [], hfollows.drained.concat rfl (by simp), hbarren⟩
  · have hfull := fun s hs' hbarren => hb (hs.isBarren_iff.mpr ⟨s, hs', hbarren⟩)
    rw [poll_eq hs.agree hfull]
    refine ⟨(List.length_map _).trans hs.length, fun i hi => ?_⟩
    obtain ⟨seen, new, hfollows, -⟩ := hs.follows i (by simpa using hi)
    simp only [List.getElem_map]
    refine ⟨seen ++ new, [], hfollows.drained.concat rfl (by simp), fun _ => ?_⟩
    rw [tillLook_concat_look, pushed_concat_of_none rfl, hfollows.pushed]

/-- **Every event keeps the agreement.** -/
theorem respond (hs : Attends sources n h) (e : CombineEvent) :
    Attends (Combined.respond sources e).2 n (h ++ [e]) := by
  cases e with
  | push i list => exact hs.push i list
  | finish i => exact hs.finish i
  | look => exact hs.look

theorem respondAll (hs : Attends sources n h) (more : CombineHistory) :
    Attends (Combined.respondAll sources more).2 n (h ++ more) := by
  induction more generalizing sources h with
  | nil =>
    rw [List.append_nil]
    exact hs
  | cons e rest ih =>
    have hrest := ih (hs.respond e)
    rw [List.append_assoc, List.singleton_append] at hrest
    exact hrest

/-- What waits to be looked at is what was pushed since the last look. -/
theorem hasNews_iff (hs : Attends sources n h) (hb : ¬ h.IsBarren n) :
    h.HasNews n ↔ sources.any (!·.inbox.ready.isEmpty) = true := by
  have hready (i : ℕ) (hi : i < sources.length) :
      h.tillLook.pushed i ≠ h.pushed i ↔ (!sources[i].inbox.ready.isEmpty) = true := by
    obtain ⟨seen, new, hfollows, hseen⟩ := hs.follows i hi
    simp [← hseen hb, hfollows.pushed, hfollows.ready]
  rw [List.any_eq_true, List.exists_mem_iff_exists_getElem, HasNews, ← hs.length]
  exact exists_congr fun i => ⟨fun ⟨hi, hne⟩ => ⟨hi, (hready i hi).mp hne⟩,
    fun ⟨hi, hne⟩ => ⟨hi, (hready i hi).mpr hne⟩⟩

theorem isComplete_iff (hs : Attends sources n h) :
    h.IsComplete n ↔ sources.all (·.drained.latest.isSome) = true := by
  rw [List.all_eq_true, List.forall_mem_iff_forall_getElem, CombineHistory.IsComplete, ← hs.length]
  refine forall₂_congr fun i hi => ?_
  obtain ⟨seen, new, hfollows, -⟩ := hs.follows i hi
  rw [hfollows.latest_drained]

theorem allEnded_iff (hs : Attends sources n h) :
    (∀ i < n, .finish i ∈ h) ↔ sources.all (·.drained.ended) = true := by
  rw [List.all_eq_true, List.forall_mem_iff_forall_getElem, ← hs.length]
  refine forall₂_congr fun i hi => ?_
  obtain ⟨seen, new, hfollows, -⟩ := hs.follows i hi
  rw [hfollows.ended_drained]

theorem joined_eq (hs : Attends sources n h) :
    joined (sources.map (·.drained)) = (h.lastLists n).flatten := by
  have hmap : sources.map (·.drained.latest) = (List.range n).map h.lastPushed := by
    refine List.ext_getElem (by simp [hs.length]) fun i hi _ => ?_
    obtain ⟨seen, new, hfollows, -⟩ := hs.follows i (by simpa using hi)
    simp [hfollows.latest_drained]
  have hlists := congrArg (List.filterMap id) hmap
  rw [List.filterMap_map, List.filterMap_map] at hlists
  rw [joined, List.filterMap_map, lastLists]
  exact congrArg List.flatten hlists

/-- **A look finds what is expected.** -/
theorem poll_eq_expected (hs : Attends sources n h) : (poll sources).1 = h.expected n := by
  by_cases hb : h.IsBarren n
  · rw [(poll_barren hs.agree (hs.isBarren_iff.mp hb)).1, expected_eq_ended_iff.mpr (.inl hb)]
  · have hfull := fun s hs' hbarren => hb (hs.isBarren_iff.mpr ⟨s, hs', hbarren⟩)
    rw [poll_eq hs.agree hfull, hs.joined_eq, expected]
    simp only [IsSpent, hb, hs.allEnded_iff, hs.isComplete_iff, hs.hasNews_iff hb, false_or]
    -- If all sources have ended and none is barren, each had a list.
    have hcomplete : sources.all (·.drained.ended) = true →
        sources.all (·.drained.latest.isSome) = true := by
      simp only [List.all_eq_true]
      exact fun hended s hmem => Option.isSome_iff_ne_none.mpr fun hnone =>
        hfull s hmem ⟨hended s hmem, hnone⟩
    cases hnews : sources.any (!·.inbox.ready.isEmpty) <;>
      cases hall : sources.all (·.drained.ended) <;>
      cases hsome : sources.all (·.drained.latest.isSome) <;> simp_all

end Attends

theorem attends (n : ℕ) (h : CombineHistory) : Attends (respondAll (fresh n) h).2 n h := by
  simpa using (Attends.fresh n).respondAll h

theorem found_eq_expected (n : ℕ) (h : CombineHistory) : found n h = h.expected n :=
  (attends n h).poll_eq_expected

/-- What was shown last is what the sources had at the last look, once each had a list. -/
theorem getLast?_shown {n : ℕ} (hn : 0 < n) {h : CombineHistory} (hc : h.tillLook.IsComplete n) :
    (shown n h).getLast? = some (h.tillLook.lastLists n).flatten := by
  induction h using List.reverseRecOn with
  | nil =>
    have hnone := hc 0 hn
    simp [tillLook, lastPushed, pushed] at hnone
  | append_singleton h e ih =>
    have hshown : shown n (h ++ [e]) = shown n h ++
        ((respond (respondAll (fresh n) h).2 e).1.bind lists?).toList := by
      rw [shown, respondAll_concat, List.filterMap_append, shown]
      cases (respond (respondAll (fresh n) h).2 e).1 <;> simp [List.filterMap_cons]
      split <;> simp [*]
    by_cases he : e = .look
    · subst he
      rw [tillLook_concat_look] at hc ⊢
      have hc : CombineHistory.IsComplete h n := fun i hi => lastPushed_concat_look h i ▸ hc i hi
      have hfull : ¬ IsBarren h n := fun ⟨i, hi, _, hnone⟩ => by simpa [hnone] using hc i hi
      have hlook : (respond (respondAll (fresh n) h).2 .look).1 = some (expected h n) :=
        congrArg some (found_eq_expected n h)
      rw [hshown, hlook, lastLists_concat_look]
      by_cases hnews : HasNews h n
      · have hlists : expected h n = .lists (lastLists h n).flatten :=
          expected_eq_lists_iff.mpr ⟨fun h' => h'.elim hfull fun hs => hs.2 hnews, ⟨hc, hnews⟩, rfl⟩
        simp [hlists, lists?]
      · -- Nothing was pushed since the look before, which showed all of it.
        have hsame : ∀ i < n, lastPushed (tillLook h) i = lastPushed h i := fun i hi => by
          rw [lastPushed, lastPushed]
          exact congrArg List.getLast? (not_not.mp fun hne => hnews ⟨i, hi, hne⟩)
        have hquiet : lists? (expected h n) = none := by
          rcases hexpected : expected h n with all | _ | _ | _
          · exact absurd (expected_eq_lists_iff.mp hexpected).2.1.2 hnews
          all_goals rfl
        have hlists : lastLists (tillLook h) n = lastLists h n := by
          refine List.filterMap_congr fun i hi => hsame i (List.mem_range.mp hi)
        rw [← hlists, ← ih fun i hi => hsame i hi ▸ hc i hi]
        simp [hquiet]
    · rw [tillLook_concat_of_ne he] at hc ⊢
      have hnone : (respond (respondAll (fresh n) h).2 e).1 = none := by
        cases e with
        | look => exact absurd rfl he
        | _ => rfl
      rw [hshown, hnone, ← ih hc]
      simp

/-- **The combination shows the latest lists.** For so many sources, and whatever was pushed to them,
ended and was looked at before, without failures:

* a look finds the end if a source has ended and never had a list, or if all sources have ended and
  nothing was pushed since the last look; it finds the last lists of all sources, one behind the other
  in the order of the sources, if each had one and something was pushed since the last look; and it
  finds nothing yet otherwise;
* once there is the end to be found, every later look finds it;
* once each source had a list and the combination is looked at, the last lists of all sources are what
  was shown last;
* the decision on what a look finds is to show the first call of the first source whose last list is
  not empty, or to stop if all are empty. -/
theorem shows_latest (n : ℕ) (h : CombineHistory) :
    found n h = h.expected n ∧
    (found n h = .ended → ∀ more, found n (h ++ more) = .ended) ∧
    (0 < n → h.IsComplete n →
      (shown n (h ++ [.look])).getLast? = some (h.lastLists n).flatten) ∧
    ∀ all, found n h = .lists all → Decision.ofCalls all =
      match h.firstCall? n with
      | some call => .update call
      | none => .stop .noCalls := by
  refine ⟨found_eq_expected n h, fun hended more => ?_, fun hn hc => ?_, fun all hall => ?_⟩
  · rw [found_eq_expected, expected_eq_ended_iff] at hended ⊢
    exact ended_append hended more
  · have hlook := getLast?_shown hn (h := h ++ [.look]) (by
      rw [tillLook_concat_look]
      exact fun i hi => (lastPushed_concat_look h i).symm ▸ hc i hi)
    rwa [tillLook_concat_look, lastLists_concat_look] at hlook
  · rw [found_eq_expected, expected_eq_lists_iff] at hall
    rw [hall.2.2, ← head?_flatten_lastLists]
    cases (h.lastLists n).flatten <;> rfl

/-- Of two sources the first has two lists before the second has one. What was there at a look that
found nothing yet is shown later, and an end behind the last list is found once the list was shown. -/
example :
    let h : CombineHistory := [.push 0 [default], .look, .push 0 [], .push 1 [default], .finish 0]
    found 2 [.push 0 [default]] = .pending ∧ found 2 h = .lists [default] ∧
      found 2 (h ++ [.look]) = .pending ∧ found 2 (h ++ [.look, .finish 1]) = .ended := by
  decide

end Combined

end CallWatch
