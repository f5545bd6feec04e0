import CallWatch.Proofs.Moves
import Mathlib.Data.List.Induction

/-! # The history of a run

What a chronicle leaves out is what the tasks found when they went on. A history has all of it: every
move of a run, with the world in which it was made. What a task did is read from it turn by turn, a
turn being a move in which the task goes on, with the state in which it was then. -/

namespace CallWatch

/-- What was so at some time stays so whatever comes later. -/
theorem exists_later {α : Type} {P : α → Prop} {l : List α} (x : α) (h : ∃ y ∈ l, P y) :
    ∃ y ∈ l ++ [x], P y :=
  h.imp fun _ => And.imp_left (List.mem_append_left _)

/-- The moves of a run in order, each with the world in which it was made. -/
abbrev History := List (World × Move)

namespace World

/-- Admitted moves lead from a world to another, and this is their history. -/
inductive Runs (admitted : World → Move → Prop) (w₀ : World) : History → World → Prop
  | start : Runs admitted w₀ [] w₀
  | step {h w} (m) (hr : Runs admitted w₀ h w) (hm : admitted w m) (ha : w.allows m = true) :
      Runs admitted w₀ (h ++ [(w, m)]) (w.after m)

variable {admitted : World → Move → Prop} {w₀ w : World} {h : History}

theorem Runs.leads (hr : Runs admitted w₀ h w) : Leads admitted w₀ w := by
  induction hr with
  | start => exact .refl
  | step m _ hm ha ih => exact ih.tail ⟨m, hm, ha, rfl⟩

/-- Every run has a history. -/
theorem Leads.exists_history (hl : Leads admitted w₀ w) : ∃ h, Runs admitted w₀ h w := by
  induction hl with
  | refl => exact ⟨[], .start⟩
  | tail _ hlast ih =>
    obtain ⟨m, hm, ha, rfl⟩ := hlast
    obtain ⟨h, hr⟩ := ih
    exact ⟨_, hr.step m hm ha⟩

theorem Runs.reached {config : EngineConfig} (hr : Runs admitted (new config) h w) :
    Reached config w := hr.leads.reached

/-- Every move of a run was made in a world that is reached. -/
theorem Runs.reached_of_mem {config : EngineConfig} (hr : Runs admitted (new config) h w)
    {x : World × Move} (hx : x ∈ h) : Reached config x.1 := by
  induction hr with
  | start => cases hx
  | step m hr _ _ ih =>
    rcases List.mem_append.mp hx with hx | hx
    · exact ih hx
    · exact List.mem_singleton.mp hx ▸ hr.reached

/-- **What every admitted move keeps of the world and its history, every run keeps.** -/
theorem Runs.keeps {config : EngineConfig} {I : History → World → Prop}
    (hstart : I [] (new config))
    (hstep : ∀ h w m w' happened, Runs admitted (new config) h w → I h w → admitted w m →
      w.allows m = true → w.Moves m w' happened → I (h ++ [(w, m)]) (w'.noting w.now happened))
    (hr : Runs admitted (new config) h w) : I h w := by
  induction hr with
  | start => exact hstart
  | step m hr hm ha ih =>
    rw [after_eq]
    exact hstep _ _ m _ _ hr ih hm ha (moves ha)

/-- The history of several moves, one after the other. -/
def history (w : World) : List Move → History
  | [] => []
  | m :: rest => (w, m) :: (w.after m).history rest

theorem Runs.append {moves : List Move} (hr : Runs admitted w₀ h w)
    (hm : ∀ x ∈ w.history moves, admitted x.1 x.2) (ha : w.allowsRun moves = true) :
    Runs admitted w₀ (h ++ w.history moves) (w.run moves) := by
  induction moves generalizing h w with
  | nil => simpa [history, run] using hr
  | cons m rest ih =>
    rw [history, List.forall_mem_cons] at hm
    rw [allowsRun, Bool.and_eq_true] at ha
    have hrest := ih (hr.step m hm.1 ha.1) hm.2 ha.2
    simpa [history, run] using hrest

/-- A run that is possible and admitted has its moves for a history. -/
theorem runs_run {moves : List Move} (hm : ∀ x ∈ w.history moves, admitted x.1 x.2)
    (ha : w.allowsRun moves = true) : Runs admitted w (w.history moves) (w.run moves) :=
  Runs.start.append hm ha

end World

/-! ### The turns of a pipeline -/

/-- A pipeline that goes on, in the world in which it does. -/
structure Turn where
  world : World
  pipeline : Pipeline

namespace Turn

/-- The item about the session that the pipeline takes. -/
def taken? (t : Turn) : Option SessionItem := t.pipeline.taken? t.world.surroundings

end Turn

/-- The turn of a pipeline that a move is, if it is one. -/
def World.turn? (w : World) (g : Nat) : Move → Option Turn
  | .go (.pipeline g') => if g' = g then (w.engine.pipeline? g).map (⟨w, ·⟩) else none
  | _ => none

namespace History

/-- The turns of a pipeline. -/
def turns (h : History) (g : Nat) : List Turn := h.filterMap fun x => x.1.turn? g x.2

/-- One step of the scan for the turns since an item about the session was taken. -/
def sinceItemStep (found : List Turn) (t : Turn) : List Turn :=
  match t.taken? with
  | some _ => [t]
  | none => found ++ [t]

/-- The turns of a pipeline since it took its last item about the session, that turn included. -/
def sinceItem (h : History) (g : Nat) : List Turn := (h.turns g).foldl sinceItemStep []

theorem sinceItem_of_turn (h : History) {w : World} {g : Nat} {m : Move} {t : Turn}
    (ht : w.turn? g m = some t) : sinceItem (h ++ [(w, m)]) g = sinceItemStep (h.sinceItem g) t := by
  simp [sinceItem, turns, List.filterMap_append, ht]

theorem sinceItem_of_no_turn (h : History) {w : World} {g : Nat} {m : Move}
    (ht : w.turn? g m = none) : sinceItem (h ++ [(w, m)]) g = h.sinceItem g := by
  simp [sinceItem, turns, List.filterMap_append, ht]

theorem sinceItemStep_of_taken (found : List Turn) {t : Turn} {item : SessionItem}
    (h : t.taken? = some item) : sinceItemStep found t = [t] := by
  simp [sinceItemStep, h]

theorem sinceItemStep_of_not_taken (found : List Turn) {t : Turn} (h : t.taken? = none) :
    sinceItemStep found t = found ++ [t] := by
  simp [sinceItemStep, h]

/-- Only the first of these turns took an item. -/
theorem taken?_of_mem_sinceItem {h : History} {g : Nat} {first t : Turn} {rest : List Turn}
    (hs : h.sinceItem g = first :: rest) (ht : t ∈ rest) : t.taken? = none := by
  have hscan (ts : List Turn) : ∀ t ∈ (ts.foldl sinceItemStep []).tail, t.taken? = none := by
    induction ts using List.reverseRecOn with
    | nil => simp
    | append_singleton ts x ih =>
      rw [List.foldl_append, List.foldl_cons, List.foldl_nil]
      generalize ts.foldl sinceItemStep [] = found at ih ⊢
      rcases hx : x.taken? with _ | item
      · rw [sinceItemStep_of_not_taken _ hx]
        rcases found with _ | ⟨first, rest⟩
        · simp
        · intro t ht
          rcases List.mem_append.mp ht with ht | ht
          · exact ih t ht
          · exact List.mem_singleton.mp ht ▸ hx
      · rw [sinceItemStep_of_taken _ hx]
        simp
  have hrest := hscan (h.turns g) t
  rw [← sinceItem, hs] at hrest
  exact hrest ht

end History

end CallWatch
