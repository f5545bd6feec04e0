import Mathlib.Data.List.Induction
import Mathlib.Data.String.Basic
import CallWatch.Keyed

/-! # Ascending keys

What was put at a key is found there, and nothing else is found elsewhere. A list that is put
together has ascending keys, and one with ascending keys is put together from itself. -/

namespace CallWatch.Keyed

variable {α : Type} {key name : String} {value : α} {l : List (String × α)}

theorem lookup_cons_eq_ite (k : String) (v : α) (rest : List (String × α)) (name : String) :
    ((k, v) :: rest).lookup name = if name = k then some v else rest.lookup name := by
  rw [List.lookup_cons]
  by_cases hname : name = k
  · simp [hname]
  · rw [beq_false_of_ne hname, if_neg hname]

theorem lookup_put (key : String) (value : α) (l : List (String × α)) (name : String) :
    (put key value l).lookup name = if name = key then some value else l.lookup name := by
  induction l with
  | nil => exact lookup_cons_eq_ite key value [] name
  | cons p rest ih =>
    obtain ⟨k, v⟩ := p
    unfold put
    split
    · next hk =>
      rw [lookup_cons_eq_ite, lookup_cons_eq_ite, ← hk]
      split <;> rfl
    · next hk =>
      split
      · exact lookup_cons_eq_ite key value ((k, v) :: rest) name
      · rw [lookup_cons_eq_ite, lookup_cons_eq_ite, ih]
        by_cases hname : name = key
        · rw [if_pos hname, if_neg (hname ▸ hk), if_pos hname]
        · rw [if_neg hname, if_neg hname]

/-- The keys ascend, so each is there once. -/
def Ascends (l : List (String × α)) : Prop := l.Pairwise fun p q => p.1 < q.1

theorem Ascends.put (h : Ascends l) (key : String) (value : α) : Ascends (put key value l) := by
  induction l with
  | nil => exact List.pairwise_singleton _ _
  | cons p rest ih =>
    obtain ⟨k, v⟩ := p
    obtain ⟨hfirst, hrest⟩ := List.pairwise_cons.1 h
    unfold Keyed.put
    split
    · next hk => exact List.pairwise_cons.2 ⟨fun q hq => hk ▸ hfirst q hq, hrest⟩
    · next hk =>
      split
      · next hlt =>
        refine List.pairwise_cons.2 ⟨fun q hq => ?_, h⟩
        rcases List.mem_cons.1 hq with rfl | hq
        · exact hlt
        · exact hlt.trans (hfirst q hq)
      · next hlt =>
        refine List.pairwise_cons.2 ⟨fun q hq => ?_, ih hrest⟩
        rcases mem_put hq with rfl | hq
        · exact lt_of_le_of_ne (not_lt.1 hlt) (Ne.symm hk)
        · exact hfirst q hq

theorem ascends_ofList (pairs : List (String × α)) : Ascends (ofList pairs) := by
  induction pairs using List.reverseRecOn with
  | nil => exact List.Pairwise.nil
  | append_singleton pairs p ih =>
    rw [ofList, List.foldl_append]
    exact ih.put p.1 p.2

/-- A key beyond all others has its place at the end. -/
theorem put_of_forall_lt (h : ∀ p ∈ l, p.1 < key) : put key value l = l ++ [(key, value)] := by
  induction l with
  | nil => rfl
  | cons p rest ih =>
    have hp : p.1 < key := h p List.mem_cons_self
    rw [put, if_neg hp.ne', if_neg hp.not_gt, ih fun q hq => h q (List.mem_cons_of_mem _ hq)]
    rfl

theorem Ascends.ofList_eq (h : Ascends l) : ofList l = l := by
  induction l using List.reverseRecOn with
  | nil => rfl
  | append_singleton l p ih =>
    obtain ⟨hl, -, hlt⟩ := List.pairwise_append.1 h
    have hstep : ofList (l ++ [p]) = Keyed.put p.1 p.2 (ofList l) := by
      rw [ofList, List.foldl_append]
      rfl
    rw [hstep, ih hl, put_of_forall_lt fun q hq => hlt q hq p (.head _)]

end CallWatch.Keyed
