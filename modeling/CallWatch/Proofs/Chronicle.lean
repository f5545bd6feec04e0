import CallWatch.Proofs.World
import Mathlib.Data.List.Induction

/-! # Reading the chronicle

What was accepted, processed and published according to a chronicle, and what happened since the
last action was processed. Each reading is told for a chronicle that grows at its end, which is the
only way in which chronicles change. -/

namespace CallWatch

namespace Chronicle

/-- The actions that were accepted, in order. -/
def accepted (c : Chronicle) : List (Ticket × Action) :=
  c.filterMap fun entry => match entry.2 with
    | .accepted t a => some (t, a)
    | _ => none

/-- The actions that were processed, in order. -/
def processed (c : Chronicle) : List (Ticket × Action) :=
  c.filterMap fun entry => match entry.2 with
    | .processed t a => some (t, a)
    | _ => none

/-- The publications with their sources, in order. -/
def published (c : Chronicle) : List (Published × Option Nat) :=
  c.filterMap fun entry => match entry.2 with
    | .published p source => some (p, source)
    | _ => none

/-- The action that was processed last. -/
def lastProcessed (c : Chronicle) : Option (Ticket × Action) := c.processed.getLast?

/-- The publications for an action. -/
def publishedFor (c : Chronicle) (t : Ticket) : List (Published × Option Nat) :=
  c.published.filter (·.1.ticket = t)

/-- One step of the scan for what happened since the last action was processed. -/
def recentStep (found : Chronicle) (entry : Nat × Occurrence) : Chronicle :=
  match entry.2 with
  | .processed _ _ => []
  | _ => found ++ [entry]

/-- What happened since the last action was processed. -/
def recent (c : Chronicle) : Chronicle := c.foldl recentStep []

/-- Every publication has this property, which may speak of everything that happened before it. -/
def EveryPublication (P : Chronicle → Nat → Published → Option Nat → Prop) (c : Chronicle) : Prop :=
  ∀ before n p source later, c = before ++ (n, .published p source) :: later → P before n p source

/-- What is noted at an instant happened then. -/
theorem mem_of_mem_noted {happened : List Occurrence} {now n : Nat} {o : Occurrence}
    (h : (n, o) ∈ happened.map (now, ·)) : o ∈ happened := by
  obtain ⟨o', ho, heq⟩ := List.mem_map.mp h
  cases heq
  exact ho

/-- What is read last from a chronicle is read from a given entry or from a later one. -/
theorem reading_of_getLast? {α : Type} {f : Nat × Occurrence → Option α} {before later : Chronicle}
    {entry : Nat × Occurrence} {x y : α} (hx : f entry = some x)
    (hy : ((before ++ entry :: later).filterMap f).getLast? = some y) :
    y = x ∨ ∃ entry' ∈ later, f entry' = some y := by
  rw [List.filterMap_append, List.filterMap_cons_some hx, List.getLast?_append, List.getLast?_cons,
    Option.some_or, Option.some_inj] at hy
  rcases hlast : (later.filterMap f).getLast? with _ | z
  · rw [hlast] at hy
    exact .inl hy.symm
  · rw [hlast] at hy
    obtain rfl : z = y := hy
    exact .inr (List.mem_filterMap.mp (List.mem_of_getLast? hlast))

/-! ### A chronicle that grows -/

theorem EveryPublication.nil (P : Chronicle → Nat → Published → Option Nat → Prop) :
    EveryPublication P [] := by
  intro before n p source later h
  cases before <;> cases h

/-- What is found in a longer chronicle is found in the old part or in the new one. -/
theorem EveryPublication.append {P : Chronicle → Nat → Published → Option Nat → Prop}
    {c c' : Chronicle} (h : EveryPublication P c)
    (h' : ∀ before n p source later, c' = before ++ (n, .published p source) :: later →
      P (c ++ before) n p source) : EveryPublication P (c ++ c') := by
  intro before n p source later heq
  rcases List.append_eq_append_iff.mp heq with ⟨gap, rfl, hgap⟩ | ⟨gap, hold, hgap⟩
  · exact h' gap n p source later hgap
  · rcases gap with _ | ⟨entry, gap⟩
    · rw [List.append_nil] at hold
      subst hold
      simpa using h' [] n p source later hgap.symm
    · rw [List.cons_append] at hgap
      cases hgap
      exact h before n p source gap hold

/-- Where nothing is published there is no publication to be found. -/
theorem EveryPublication.append_of_published_eq_nil
    {P : Chronicle → Nat → Published → Option Nat → Prop} {c c' : Chronicle}
    (h : EveryPublication P c) (hc : published c' = []) : EveryPublication P (c ++ c') := by
  refine h.append fun before n p source later hsplit => ?_
  have hmem : (p, source) ∈ published c' :=
    List.mem_filterMap.mpr ⟨(n, .published p source), by simp [hsplit], rfl⟩
  rw [hc] at hmem
  cases hmem

@[simp] theorem accepted_append (c c' : Chronicle) :
    accepted (c ++ c') = accepted c ++ accepted c' := List.filterMap_append

@[simp] theorem processed_append (c c' : Chronicle) :
    processed (c ++ c') = processed c ++ processed c' := List.filterMap_append

@[simp] theorem published_append (c c' : Chronicle) :
    published (c ++ c') = published c ++ published c' := List.filterMap_append

@[simp] theorem publishedFor_append (c c' : Chronicle) (t : Ticket) :
    publishedFor (c ++ c') t = publishedFor c t ++ publishedFor c' t := by
  simp [publishedFor]

theorem publishedFor_append_of_published_eq_nil (c : Chronicle) {c' : Chronicle}
    (h : published c' = []) (t : Ticket) : publishedFor (c ++ c') t = publishedFor c t := by
  rw [publishedFor, published_append, h, List.append_nil, publishedFor]

theorem recent_append (c c' : Chronicle) : recent (c ++ c') = c'.foldl recentStep (recent c) :=
  List.foldl_append

theorem recent_append_of_processed_eq_nil (c : Chronicle) {c' : Chronicle}
    (h : processed c' = []) : recent (c ++ c') = recent c ++ c' := by
  rw [recent_append]
  generalize recent c = found
  induction c' generalizing found with
  | nil => simp
  | cons entry rest ih =>
    obtain ⟨n, o⟩ := entry
    cases o with
    | processed t a => simp [processed] at h
    | _ =>
      have hrest : processed rest = [] := by simpa [processed] using h
      rw [List.foldl_cons, ih hrest]
      simp [recentStep]

theorem recent_append_processed (c c' : Chronicle) (n : Nat) (t : Ticket) (a : Action)
    (h : processed c' = []) :
    recent (c ++ (n, .processed t a) :: c') = c' := by
  have h' := recent_append_of_processed_eq_nil (c ++ [(n, .processed t a)]) h
  rw [List.append_assoc, List.singleton_append] at h'
  rw [h', recent_append]
  rfl

/-- Once something is processed it does not matter what happened before. -/
theorem foldl_recentStep_eq {c : Chronicle} (h : processed c ≠ []) (found found' : Chronicle) :
    c.foldl recentStep found = c.foldl recentStep found' := by
  induction c generalizing found found' with
  | nil => exact absurd rfl h
  | cons entry rest ih =>
    by_cases hrest : processed rest = []
    · obtain ⟨n, o⟩ := entry
      cases o with
      | processed t a => rfl
      | _ => exact absurd (by simpa [processed] using hrest) h
    · exact ih hrest _ _

theorem recent_append_of_processed_ne_nil (c : Chronicle) {c' : Chronicle}
    (h : processed c' ≠ []) : recent (c ++ c') = recent c' := by
  rw [recent_append, foldl_recentStep_eq h _ [], recent]

theorem mem_of_mem_recent {c : Chronicle} {entry : Nat × Occurrence} (h : entry ∈ recent c) :
    entry ∈ c := by
  induction c using List.reverseRecOn with
  | nil => cases h
  | append_singleton c last ih =>
    obtain ⟨n, o⟩ := last
    rw [recent_append] at h
    cases o with
    | processed => cases h
    | _ =>
      rcases List.mem_append.mp h with h | h
      · exact List.mem_append_left _ (ih h)
      · exact List.mem_append_right _ h

theorem lastProcessed_append_of_processed_eq_nil (c : Chronicle) {c' : Chronicle}
    (h : processed c' = []) : lastProcessed (c ++ c') = lastProcessed c := by
  simp [lastProcessed, h]

theorem lastProcessed_append_processed (c c' : Chronicle) (n : Nat) (t : Ticket) (a : Action)
    (h : processed c' = []) :
    lastProcessed (c ++ (n, .processed t a) :: c') = some (t, a) := by
  have hcons : processed ((n, .processed t a) :: c') = [(t, a)] := by
    simpa [processed] using h
  simp [lastProcessed, hcons]

end Chronicle

end CallWatch
