import CallWatch.Settings.Merge
import Mathlib.Data.List.Nodup

/-! # Members and parts

The members of an object by their keys, as one of them is put, as one object is laid over another,
and as repeated keys are resolved. What is said of a value at every depth is said of its parts. -/

namespace CallWatch.Json

/-! ### Members by their keys -/

/-- The keys of members, in order. -/
def keys (ms : List (String × Json)) : List String := ms.map (·.1)

variable {key k : String} {j v : Json} {ms below : List (String × Json)}

@[simp] theorem keys_nil : keys [] = [] := rfl

@[simp] theorem keys_cons (k : String) (j : Json) (rest : List (String × Json)) :
    keys ((k, j) :: rest) = k :: keys rest := rfl

theorem mem_keys : key ∈ keys ms ↔ ∃ j, (key, j) ∈ ms := by
  simp [keys]

@[simp] theorem member?_nil (key : String) : member? key [] = none := rfl

theorem member?_cons (key k : String) (j : Json) (rest : List (String × Json)) :
    member? key ((k, j) :: rest) = if k = key then some j else member? key rest := by
  by_cases hk : k = key <;> simp [member?, hk]

theorem mem_of_member? (h : member? key ms = some j) : (key, j) ∈ ms := by
  obtain ⟨⟨k, j'⟩, hfind, rfl⟩ := Option.map_eq_some_iff.mp h
  obtain rfl : k = key := by simpa using List.find?_some hfind
  exact List.mem_of_find?_eq_some hfind

theorem member?_eq_none_iff : member? key ms = none ↔ key ∉ keys ms := by
  induction ms with
  | nil => simp
  | cons m rest ih =>
    obtain ⟨k, j⟩ := m
    rw [member?_cons, keys_cons, List.mem_cons, not_or, ← ih]
    by_cases hk : k = key
    · simp [hk]
    · rw [if_neg hk, and_iff_right (Ne.symm hk)]

/-- A member whose key comes once is found under its key. -/
theorem member?_of_mem (hnodup : (keys ms).Nodup) (h : (key, j) ∈ ms) : member? key ms = some j := by
  cases hfound : member? key ms with
  | none => exact absurd (mem_keys.mpr ⟨j, h⟩) (member?_eq_none_iff.mp hfound)
  | some j' =>
    have heq := List.inj_on_of_nodup_map hnodup (mem_of_member? hfound) h rfl
    rw [(Prod.mk.inj heq).2]

/-- Where each key comes once, the last member of a key is the first one. -/
theorem get?_object (hnodup : (keys ms).Nodup) : get? key (.object ms) = member? key ms := by
  have hreverse : (keys ms.reverse).Nodup := by simpa [keys] using hnodup
  change member? key ms.reverse = member? key ms
  cases hfound : member? key ms with
  | none =>
    rw [member?_eq_none_iff, mem_keys] at hfound ⊢
    simpa using hfound
  | some j => exact member?_of_mem hreverse (List.mem_reverse.mpr (mem_of_member? hfound))

/-! ### A member is put -/

theorem member?_putMember :
    member? key (putMember k v ms) = if k = key then some v else member? key ms := by
  induction ms with
  | nil => exact member?_cons key k v []
  | cons m rest ih =>
    obtain ⟨k', j⟩ := m
    by_cases hk : k' = k
    · subst hk
      by_cases hkey : k' = key <;> simp [putMember, member?_cons, hkey]
    · rw [putMember, if_neg (by simpa using hk), member?_cons, member?_cons, ih]
      by_cases hkey : k' = key
      · have hne : k ≠ key := fun h => hk (hkey.trans h.symm)
        rw [if_pos hkey, if_pos hkey, if_neg hne]
      · rw [if_neg hkey, if_neg hkey]

theorem keys_putMember :
    keys (putMember k v ms) = if k ∈ keys ms then keys ms else keys ms ++ [k] := by
  induction ms with
  | nil => simp [putMember]
  | cons m rest ih =>
    obtain ⟨k', j⟩ := m
    by_cases hk : k' = k
    · simp [putMember, hk]
    · have hne : k ≠ k' := Ne.symm hk
      rw [putMember, if_neg (by simpa using hk), keys_cons, ih]
      by_cases hmem : k ∈ keys rest <;> simp [hmem, hne]

theorem mem_keys_putMember : key ∈ keys (putMember k v ms) ↔ key = k ∨ key ∈ keys ms := by
  rw [keys_putMember]
  split
  · next hk => exact ⟨.inr, fun h => h.elim (fun heq => heq ▸ hk) id⟩
  · rw [List.mem_append, List.mem_singleton, or_comm]

/-- What stands under its key already changes nothing. -/
theorem putMember_of_member? (h : member? k ms = some v) : putMember k v ms = ms := by
  induction ms with
  | nil => cases h
  | cons m rest ih =>
    obtain ⟨k', j⟩ := m
    rw [member?_cons] at h
    by_cases hk : k' = k
    · rw [if_pos hk] at h
      rw [putMember, if_pos (by simpa using hk), Option.some.inj h]
    · rw [if_neg hk] at h
      rw [putMember, if_neg (by simpa using hk), ih h]

theorem nodup_keys_putMember (h : (keys ms).Nodup) : (keys (putMember k v ms)).Nodup := by
  rw [keys_putMember]
  split
  · exact h
  · next hk => exact h.append (List.nodup_singleton k) (List.disjoint_singleton.mpr hk)

/-! ### One object over another -/

/-- What stands under a key once one object was laid over another: what each of them has under it
decides. -/
def mergeAt (upper lower : Option Json) : Option Json :=
  match upper with
  | none => lower
  | some .null => lower
  | some j => some (lower.elim j (merge j))

theorem mergeAt_none (lower : Option Json) : mergeAt none lower = lower := rfl

theorem mergeAt_null (lower : Option Json) : mergeAt (some .null) lower = lower := rfl

theorem mergeAt_some (hj : j ≠ .null) (lower : Option Json) :
    mergeAt (some j) lower = some (lower.elim j (merge j)) := by
  cases j <;> first | rfl | exact absurd rfl hj

/-- What stands under a key once one object was laid over another stood there before, or the upper
one brings it. -/
theorem of_mergeAt_eq_some {upper lower : Option Json} (h : mergeAt upper lower = some v) :
    lower = some v ∨ ∃ j, upper = some j ∧ lower.elim j (merge j) = v := by
  unfold mergeAt at h
  split at h
  · exact .inl h
  · exact .inl h
  · exact .inr ⟨_, rfl, Option.some.inj h⟩

theorem mergeMembers_cons (hj : j ≠ .null) (k : String) (rest below : List (String × Json)) :
    mergeMembers ((k, j) :: rest) below =
      mergeMembers rest (putMember k ((member? k below).elim j (merge j)) below) := by
  rw [mergeMembers]
  · cases member? k below <;> rfl
  · exact hj

/-- **What stands under a key of an object that was laid over another.** -/
theorem member?_mergeMembers (hnodup : (keys ms).Nodup) :
    member? key (mergeMembers ms below) = mergeAt (member? key ms) (member? key below) := by
  induction ms generalizing below with
  | nil => simp [mergeMembers, mergeAt_none]
  | cons m rest ih =>
    obtain ⟨k, j⟩ := m
    obtain ⟨hk, hrest⟩ := List.nodup_cons.mp hnodup
    by_cases hj : j = .null
    · subst hj
      rw [mergeMembers, ih hrest, member?_cons]
      by_cases hkey : k = key
      · subst hkey
        rw [if_pos rfl, member?_eq_none_iff.mpr hk, mergeAt_none, mergeAt_null]
      · rw [if_neg hkey]
    · rw [mergeMembers_cons hj, ih hrest, member?_putMember, member?_cons]
      by_cases hkey : k = key
      · subst hkey
        rw [if_pos rfl, if_pos rfl, member?_eq_none_iff.mpr hk, mergeAt_none, mergeAt_some hj]
      · rw [if_neg hkey, if_neg hkey]

theorem nodup_keys_mergeMembers (h : (keys below).Nodup) :
    (keys (mergeMembers ms below)).Nodup := by
  induction ms generalizing below with
  | nil => exact h
  | cons m rest ih =>
    obtain ⟨k, j⟩ := m
    by_cases hj : j = .null
    · subst hj
      exact ih h
    · rw [mergeMembers_cons hj]
      exact ih (nodup_keys_putMember h)

/-- Over anything but an object a value is taken as it is. -/
theorem elim_merge {lower : Option Json} (h : ∀ ms, lower ≠ some (.object ms)) (j : Json) :
    lower.elim j (merge j) = j := by
  rcases lower with _ | b
  · rfl
  · cases j <;> first
      | rfl
      | cases b <;> first | rfl | exact absurd rfl (h _)

/-! ### Parts -/

mutual

/-- The value and everything within it. -/
def parts : Json → List Json
  | .array items => .array items :: itemParts items
  | .object ms => .object ms :: memberParts ms
  | j => [j]

/-- The items and everything within them. -/
def itemParts : List Json → List Json
  | [] => []
  | j :: rest => parts j ++ itemParts rest

/-- The values of members and everything within them. -/
def memberParts : List (String × Json) → List Json
  | [] => []
  | (_, j) :: rest => parts j ++ memberParts rest

end

/-- The value is null. -/
def isNull : Json → Bool
  | .null => true
  | _ => false

/-- The members of an object. -/
def members : Json → List (String × Json)
  | .object ms => ms
  | _ => []

/-- No null at any depth. -/
def NullFree (j : Json) : Prop := ∀ x ∈ j.parts, x.isNull = false

/-- At every depth an object has each key once. -/
def UniqueKeys (j : Json) : Prop := ∀ x ∈ j.parts, (keys x.members).Nodup

instance (j : Json) : Decidable j.NullFree :=
  inferInstanceAs (Decidable (∀ x ∈ j.parts, x.isNull = false))

instance (j : Json) : Decidable j.UniqueKeys :=
  inferInstanceAs (Decidable (∀ x ∈ j.parts, (keys x.members).Nodup))

theorem isNull_eq_true_iff : j.isNull = true ↔ j = .null := by
  cases j <;> simp [isNull]

theorem isNull_eq_false_iff : j.isNull = false ↔ j ≠ .null := by
  rw [Ne, ← isNull_eq_true_iff, Bool.not_eq_true]

theorem self_mem_parts (j : Json) : j ∈ j.parts := by
  cases j <;> simp [parts]

theorem mem_memberParts {x : Json} : x ∈ memberParts ms ↔ ∃ m ∈ ms, x ∈ m.2.parts := by
  induction ms with
  | nil => simp [memberParts]
  | cons m rest ih => simp [memberParts, ih]

/-- The parts of a member's value are parts of the object. -/
theorem parts_subset_of_mem (h : (k, j) ∈ ms) : j.parts ⊆ (object ms).parts := by
  intro x hx
  rw [parts]
  exact List.mem_cons_of_mem _ (mem_memberParts.mpr ⟨_, h, hx⟩)

/-- What holds of an object and of everything within its members holds of all parts. -/
theorem forall_mem_parts_object {P : Json → Prop} (hobject : P (.object ms))
    (hmembers : ∀ m ∈ ms, ∀ x ∈ m.2.parts, P x) : ∀ x ∈ (object ms).parts, P x := by
  rw [parts, List.forall_mem_cons]
  refine ⟨hobject, fun x hx => ?_⟩
  obtain ⟨m, hm, hx⟩ := mem_memberParts.mp hx
  exact hmembers m hm x hx

theorem NullFree.of_mem (h : (object ms).NullFree) (hmem : (k, j) ∈ ms) : j.NullFree :=
  fun x hx => h x (parts_subset_of_mem hmem hx)

theorem NullFree.ne_null (h : j.NullFree) : j ≠ .null := by
  rintro rfl
  exact Bool.false_ne_true (h .null (self_mem_parts _)).symm

theorem NullFree.member?_ne_null (h : (object ms).NullFree) : member? key ms ≠ some .null :=
  fun hnull => (h.of_mem (mem_of_member? hnull)).ne_null rfl

theorem UniqueKeys.of_mem (h : (object ms).UniqueKeys) (hmem : (k, j) ∈ ms) : j.UniqueKeys :=
  fun x hx => h x (parts_subset_of_mem hmem hx)

theorem UniqueKeys.nodup (h : (object ms).UniqueKeys) : (keys ms).Nodup := h _ (self_mem_parts _)

/-! ### Repeated keys are resolved -/

theorem nodup_keys_distinctMembers {done : List (String × Json)} (h : (keys done).Nodup) :
    (keys (distinctMembers done ms)).Nodup := by
  induction ms generalizing done with
  | nil => exact h
  | cons m rest ih => exact ih (nodup_keys_putMember h)

theorem mem_memberParts_putMember {x : Json} (h : x ∈ memberParts (putMember k v ms)) :
    x ∈ v.parts ∨ x ∈ memberParts ms := by
  induction ms with
  | nil => simpa [putMember, memberParts] using h
  | cons m rest ih =>
    obtain ⟨k', j⟩ := m
    rw [putMember] at h
    rw [memberParts, List.mem_append]
    split at h <;> rw [memberParts, List.mem_append] at h
    · exact h.imp_right .inr
    · rcases h with h | h
      · exact .inr (.inl h)
      · exact (ih h).imp_right .inr

mutual

/-- What is left within a value comes from within it. -/
theorem mem_parts_distinct {x : Json} :
    ∀ j : Json, x ∈ j.distinct.parts → ∃ y ∈ j.parts, x = y.distinct
  | .array items, h => by
    rw [distinct, parts, List.mem_cons] at h
    rcases h with rfl | h
    · exact ⟨.array items, self_mem_parts _, by rw [distinct]⟩
    · obtain ⟨y, hy, rfl⟩ := mem_itemParts_distinct items h
      exact ⟨y, by rw [parts]; exact List.mem_cons_of_mem _ hy, rfl⟩
  | .object ms, h => by
    rw [distinct, parts, List.mem_cons] at h
    rcases h with rfl | h
    · exact ⟨.object ms, self_mem_parts _, by rw [distinct]⟩
    · rcases mem_memberParts_distinct ms [] h with h | ⟨y, hy, rfl⟩
      · cases h
      · exact ⟨y, by rw [parts]; exact List.mem_cons_of_mem _ hy, rfl⟩
  | .null, h | .bool _, h | .int _, h | .decimal _, h | .string _, h | .unreadable, h =>
    ⟨_, self_mem_parts _, by simpa [distinct, parts] using h⟩

theorem mem_itemParts_distinct {x : Json} :
    ∀ items : List Json, x ∈ itemParts (distinctItems items) →
      ∃ y ∈ itemParts items, x = y.distinct
  | [], h => by cases h
  | j :: rest, h => by
    rw [distinctItems, itemParts, List.mem_append] at h
    rw [itemParts]
    rcases h with h | h
    · obtain ⟨y, hy, heq⟩ := mem_parts_distinct j h
      exact ⟨y, List.mem_append_left _ hy, heq⟩
    · obtain ⟨y, hy, heq⟩ := mem_itemParts_distinct rest h
      exact ⟨y, List.mem_append_right _ hy, heq⟩

theorem mem_memberParts_distinct {x : Json} :
    ∀ ms done : List (String × Json), x ∈ memberParts (distinctMembers done ms) →
      x ∈ memberParts done ∨ ∃ y ∈ memberParts ms, x = y.distinct
  | [], _, h => .inl h
  | (k, j) :: rest, done, h => by
    rw [distinctMembers] at h
    rw [memberParts]
    rcases mem_memberParts_distinct rest _ h with h | ⟨y, hy, heq⟩
    · rcases mem_memberParts_putMember h with h | h
      · obtain ⟨y, hy, heq⟩ := mem_parts_distinct j h
        exact .inr ⟨y, List.mem_append_left _ hy, heq⟩
      · exact .inl h
    · exact .inr ⟨y, List.mem_append_right _ hy, heq⟩

end

/-- **Once repeated keys are resolved, each key comes once at every depth.** -/
theorem uniqueKeys_distinct (j : Json) : j.distinct.UniqueKeys := by
  intro x hx
  obtain ⟨y, -, rfl⟩ := mem_parts_distinct j hx
  cases y with
  | object ms =>
    rw [distinct]
    exact nodup_keys_distinctMembers List.nodup_nil
  | _ => simp [distinct, members]

theorem putMember_of_notMem (hk : k ∉ keys ms) : putMember k v ms = ms ++ [(k, v)] := by
  induction ms with
  | nil => rfl
  | cons m rest ih =>
    obtain ⟨k', j⟩ := m
    rw [keys_cons, List.mem_cons, not_or] at hk
    rw [putMember, if_neg (by simpa using Ne.symm hk.1), ih hk.2, List.cons_append]

mutual

/-- Where each key comes once nothing is to be resolved. -/
theorem UniqueKeys.distinct_eq : ∀ {j : Json}, j.UniqueKeys → j.distinct = j
  | .array items, h => by
    have hitems : ∀ x ∈ itemParts items, (keys x.members).Nodup := fun x hx =>
      h x (by rw [parts]; exact List.mem_cons_of_mem _ hx)
    rw [distinct, distinctItems_eq items hitems]
  | .object ms, h => by
    have hms : ∀ x ∈ memberParts ms, (keys x.members).Nodup := fun x hx =>
      h x (by rw [parts]; exact List.mem_cons_of_mem _ hx)
    rw [distinct, distinctMembers_eq ms [] hms h.nodup, List.nil_append]
  | .null, _ | .bool _, _ | .int _, _ | .decimal _, _ | .string _, _ | .unreadable, _ => rfl

theorem distinctItems_eq :
    ∀ items : List Json, (∀ x ∈ itemParts items, (keys x.members).Nodup) →
      distinctItems items = items
  | [], _ => rfl
  | j :: rest, h => by
    rw [itemParts, List.forall_mem_append] at h
    rw [distinctItems, UniqueKeys.distinct_eq h.1, distinctItems_eq rest h.2]

theorem distinctMembers_eq :
    ∀ ms done : List (String × Json), (∀ x ∈ memberParts ms, (keys x.members).Nodup) →
      (keys (done ++ ms)).Nodup → distinctMembers done ms = done ++ ms
  | [], _, _, _ => by rw [distinctMembers, List.append_nil]
  | (k, j) :: rest, done, h, hnodup => by
    rw [memberParts, List.forall_mem_append] at h
    have hmiddle : (keys done ++ k :: keys rest).Nodup := by simpa [keys] using hnodup
    have hk : k ∉ keys done := fun hmem =>
      (List.nodup_cons.mp (List.nodup_middle.mp hmiddle)).1 (List.mem_append_left _ hmem)
    rw [distinctMembers, UniqueKeys.distinct_eq h.1, putMember_of_notMem hk,
      distinctMembers_eq rest _ h.2 (by rwa [← List.append_cons]), ← List.append_cons]

end

theorem NullFree.distinct (h : j.NullFree) : j.distinct.NullFree := by
  intro x hx
  obtain ⟨y, hy, rfl⟩ := mem_parts_distinct j hx
  have hnull := h y hy
  cases y with
  | null => cases hnull
  | _ => simp [Json.distinct, isNull]

/-! ### Nulls are dropped -/

mutual

/-- The value without the members that are null, of itself and of the objects that are reached
through members. -/
def dropNulls : Json → Json
  | .object ms => .object (dropNullMembers ms)
  | j => j

/-- The members that are not null, each without its nulls. -/
def dropNullMembers : List (String × Json) → List (String × Json)
  | [] => []
  | (k, j) :: rest =>
    if j.isNull then dropNullMembers rest else (k, dropNulls j) :: dropNullMembers rest

end

/-- What is left of what stands under a key. -/
def dropNull? : Option Json → Option Json
  | none => none
  | some .null => none
  | some j => some j.dropNulls

/-- Some member of an object is null. -/
def hasNullMember (j : Json) : Bool := j.members.any fun m => m.2.isNull

theorem dropNull?_some (hj : j ≠ .null) : dropNull? (some j) = some j.dropNulls := by
  cases j <;> first | rfl | exact absurd rfl hj

theorem dropNulls_ne_null (hj : j ≠ .null) : j.dropNulls ≠ .null := by
  cases j with
  | null => exact absurd rfl hj
  | _ => simp [dropNulls]

/-- Where none of the members is null all of them are left. -/
theorem dropNullMembers_eq_map (h : (object ms).hasNullMember = false) :
    dropNullMembers ms = ms.map fun m => (m.1, m.2.dropNulls) := by
  rw [hasNullMember, members] at h
  induction ms with
  | nil => rfl
  | cons m rest ih =>
    rw [List.any_cons, Bool.or_eq_false_iff] at h
    rw [dropNullMembers, h.1, if_neg Bool.false_ne_true, ih h.2, List.map_cons]

theorem keys_dropNullMembers_sublist : (keys (dropNullMembers ms)).Sublist (keys ms) := by
  induction ms with
  | nil => exact .slnil
  | cons m rest ih =>
    rw [dropNullMembers]
    split
    · exact ih.cons _
    · exact ih.cons_cons _

/-- **What stands under a key once nulls were dropped.** -/
theorem member?_dropNullMembers (hnodup : (keys ms).Nodup) :
    member? key (dropNullMembers ms) = dropNull? (member? key ms) := by
  induction ms with
  | nil => rfl
  | cons m rest ih =>
    obtain ⟨k, j⟩ := m
    obtain ⟨hk, hrest⟩ := List.nodup_cons.mp hnodup
    rw [dropNullMembers, member?_cons]
    by_cases hj : j = .null
    · subst hj
      rw [isNull, if_pos rfl, ih hrest]
      by_cases hkey : k = key
      · subst hkey
        rw [if_pos rfl, member?_eq_none_iff.mpr hk]
        rfl
      · rw [if_neg hkey]
    · rw [isNull_eq_false_iff.mpr hj, if_neg Bool.false_ne_true, member?_cons, ih hrest]
      by_cases hkey : k = key
      · rw [if_pos hkey, if_pos hkey, dropNull?_some hj]
      · rw [if_neg hkey, if_neg hkey]

theorem member?_mergeMembers_dropNulls (hnodup : (keys ms).Nodup) :
    member? key (mergeMembers (dropNullMembers ms) below) =
      mergeAt (dropNull? (member? key ms)) (member? key below) := by
  rw [member?_mergeMembers (hnodup.sublist keys_dropNullMembers_sublist),
    member?_dropNullMembers hnodup]

end CallWatch.Json
