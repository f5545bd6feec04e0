import Mathlib.Data.List.Nodup

/-! # Members with numbers

Pipelines, attempts, services and observers stand in lists. Each has a number, by which it is found,
and in its new state it takes the place of the one with its number. -/

namespace CallWatch

section Numbered

variable {α : Type} {number : α → Nat} {n : Nat} {l : List α} {x y : α}

theorem mem_of_found (h : l.find? (fun z => number z == n) = some x) : x ∈ l ∧ number x = n :=
  ⟨List.mem_of_find?_eq_some h, by simpa using List.find?_some h⟩

/-- Where numbers are given once, everybody is found. -/
theorem found_of_mem (hnodup : (l.map number).Nodup) (hx : x ∈ l) :
    l.find? (fun z => number z == number x) = some x := by
  obtain ⟨y, hy⟩ : ∃ y, l.find? (fun z => number z == number x) = some y :=
    Option.isSome_iff_exists.mp (List.find?_isSome.mpr ⟨x, hx, by simp⟩)
  obtain ⟨hmem, hnumber⟩ := mem_of_found hy
  rwa [List.inj_on_of_nodup_map hnodup hmem hx hnumber] at hy

theorem mem_replaced (h : y ∈ l.map fun z => if number z = n then x else z) :
    y = x ∨ y ∈ l ∧ number y ≠ n := by
  obtain ⟨z, hz, rfl⟩ := List.mem_map.mp h
  split
  · exact .inl rfl
  · next hne => exact .inr ⟨hz, hne⟩

theorem numbers_replaced (number : α → Nat) (hx : number x = n) (l : List α) :
    (l.map fun z => if number z = n then x else z).map number = l.map number := by
  rw [List.map_map]
  refine List.map_congr_left fun z _ => ?_
  by_cases hz : number z = n <;> simp [hz, hx]

/-- A member that is there is found in its new state. -/
theorem found_replaced (h : l.find? (fun z => number z == n) = some y) (hx : number x = n) :
    (l.map fun z => if number z = n then x else z).find? (fun z => number z == n) = some x := by
  induction l with
  | nil => cases h
  | cons z rest ih =>
    by_cases hz : number z = n
    · simp [hz, hx]
    · have hrest := ih (by simpa [hz] using h)
      simpa [hz] using hrest

/-- A member that takes its own place changes nothing. -/
theorem replaced_self (hnodup : (l.map number).Nodup) (hx : x ∈ l) :
    (l.map fun z => if number z = number x then x else z) = l := by
  refine (List.map_congr_left fun z hz => ?_).trans (List.map_id l)
  split
  · next hnumber => exact List.inj_on_of_nodup_map hnodup hx hz hnumber.symm
  · rfl

/-- A member stands between others with other numbers. -/
theorem exists_around (hnodup : (l.map number).Nodup) (hx : x ∈ l) :
    ∃ before after, l = before ++ x :: after ∧ (∀ z ∈ before, number z ≠ number x) ∧
      ∀ z ∈ after, number z ≠ number x := by
  obtain ⟨before, after, rfl⟩ := List.append_of_mem hx
  rw [List.map_append, List.map_cons, List.nodup_middle, List.nodup_cons, List.mem_append,
    not_or] at hnodup
  exact ⟨before, after, rfl, fun z hz he => hnodup.1.1 (List.mem_map.mpr ⟨z, hz, he⟩),
    fun z hz he => hnodup.1.2 (List.mem_map.mpr ⟨z, hz, he⟩)⟩

theorem countP_replaced (hnodup : (l.map number).Nodup) (hx : x ∈ l) (p : α → Bool) :
    (l.map fun z => if number z = number x then y else z).countP p + (p x).toNat =
      l.countP p + (p y).toNat := by
  obtain ⟨before, after, rfl, hbefore, hafter⟩ := exists_around hnodup hx
  have hsame (part : List α) (h : ∀ z ∈ part, number z ≠ number x) :
      (part.map fun z => if number z = number x then y else z) = part :=
    (List.map_congr_left fun z hz => if_neg (h z hz)).trans (List.map_id part)
  rw [List.map_append, List.map_cons, if_pos rfl, hsame before hbefore, hsame after hafter]
  rcases hpx : p x with _ | _ <;> rcases hpy : p y with _ | _ <;>
    simp [List.countP_append, hpx, hpy] <;> omega

theorem countP_removed (hnodup : (l.map number).Nodup) (hx : x ∈ l) (p : α → Bool) :
    (l.filter (number · ≠ number x)).countP p + (p x).toNat = l.countP p := by
  obtain ⟨before, after, rfl, hbefore, hafter⟩ := exists_around hnodup hx
  have hsame (part : List α) (h : ∀ z ∈ part, number z ≠ number x) :
      part.filter (number · ≠ number x) = part :=
    List.filter_eq_self.mpr fun z hz => decide_eq_true (h z hz)
  rw [List.filter_append, List.filter_cons_of_neg (by simp), hsame before hbefore,
    hsame after hafter]
  rcases hpx : p x with _ | _
  · simp [List.countP_append, hpx]
  · simp [List.countP_append, hpx]
    omega

end Numbered

end CallWatch
