/-! # Lists in the order of their keys

A list of pairs with ascending keys, each key once. -/

namespace CallWatch.Keyed

variable {α : Type}

/-- A value at its key's place; it replaces the value that is there. -/
def put (key : String) (value : α) : List (String × α) → List (String × α)
  | [] => [(key, value)]
  | (k, v) :: rest =>
    if key = k then (key, value) :: rest
    else if key < k then (key, value) :: (k, v) :: rest
    else (k, v) :: put key value rest

/-- The pairs put one after the other, the last of a key counting. -/
def ofList (pairs : List (String × α)) : List (String × α) :=
  pairs.foldl (fun done p => put p.1 p.2 done) []

theorem mem_put {key : String} {value : α} {l : List (String × α)} {p : String × α}
    (h : p ∈ put key value l) : p = (key, value) ∨ p ∈ l := by
  induction l with
  | nil => simpa [put] using h
  | cons q rest ih =>
    obtain ⟨k, v⟩ := q
    unfold put at h
    split at h
    · rcases List.mem_cons.1 h with h | h
      · exact .inl h
      · exact .inr (List.mem_cons_of_mem _ h)
    · split at h
      · rcases List.mem_cons.1 h with h | h
        · exact .inl h
        · exact .inr h
      · rcases List.mem_cons.1 h with h | h
        · exact .inr (h ▸ List.mem_cons_self)
        · exact (ih h).imp id (List.mem_cons_of_mem _)

end CallWatch.Keyed
