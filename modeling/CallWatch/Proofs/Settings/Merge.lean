import CallWatch.Proofs.Json.Members

/-! # A merge settles

A value that was laid over another has said what it has to say: laid over the result it changes
nothing, and neither does a value change anything in itself.

* `mergeMembers_eq_below` is the fact behind both laws: an object leaves another as it is if, under the
  key of each of its members that is not null, there stands a value that the member leaves as it is.
* `UniqueKeys.merge_self` and `UniqueKeys.merge_merge` are the laws, by induction over objects. After a
  merge a key has the member, or the member laid over what was there before.
* `mem_keys_mergeMembers` says which keys there are after a merge. -/

namespace CallWatch.Json

variable {key : String} {j upper lower : Json} {ms below : List (String × Json)}

/-! ### Induction over objects -/

mutual

/-- What holds of everything that is no object, and of an object if it holds of the values of its
members, holds of every value. -/
@[elab_as_elim]
theorem objectInduction {P : Json → Prop} (object : ∀ ms, (∀ m ∈ ms, P m.2) → P (.object ms))
    (leaf : ∀ j, (∀ ms, j ≠ .object ms) → P j) : ∀ j, P j
  | .object ms => object ms (memberInduction object leaf ms)
  | .null | .bool _ | .int _ | .decimal _ | .string _ | .array _ | .unreadable => leaf _ nofun

theorem memberInduction {P : Json → Prop} (object : ∀ ms, (∀ m ∈ ms, P m.2) → P (.object ms))
    (leaf : ∀ j, (∀ ms, j ≠ .object ms) → P j) : ∀ ms : List (String × Json), ∀ m ∈ ms, P m.2
  | [] => List.forall_mem_nil _
  | (_, j) :: rest =>
    List.forall_mem_cons.mpr ⟨objectInduction object leaf j, memberInduction object leaf rest⟩

end

/-! ### What changes nothing -/

/-- Anything but an object is taken as it is. -/
theorem merge_of_leaf (h : ∀ ms, upper ≠ .object ms) (lower : Json) : merge upper lower = upper := by
  cases upper with
  | object ms => exact absurd rfl (h ms)
  | _ => rfl

/-- An object changes nothing where each of its members, nulls apart, finds a value in which it
changes nothing. -/
theorem mergeMembers_eq_below
    (h : ∀ m ∈ ms, m.2 ≠ .null → ∃ b, member? m.1 below = some b ∧ merge m.2 b = b) :
    mergeMembers ms below = below := by
  induction ms with
  | nil => rfl
  | cons m rest ih =>
    obtain ⟨k, j⟩ := m
    obtain ⟨hfirst, hrest⟩ := List.forall_mem_cons.mp h
    by_cases hj : j = .null
    · subst hj
      rw [mergeMembers, ih hrest]
    · obtain ⟨b, hb, hmerge⟩ := hfirst hj
      rw [mergeMembers_cons hj, hb, Option.elim_some, hmerge, putMember_of_member? hb, ih hrest]

namespace UniqueKeys

/-- **A value laid over itself is itself.** -/
theorem merge_self (h : j.UniqueKeys) : merge j j = j := by
  induction j using objectInduction with
  | object ms ih =>
    rw [merge, mergeMembers_eq_below]
    intro m hm _
    exact ⟨m.2, member?_of_mem h.nodup hm, ih m hm (h.of_mem hm)⟩
  | leaf j hleaf => exact merge_of_leaf hleaf j

/-- **A value that is laid over a second time changes nothing.** -/
theorem merge_merge (h : upper.UniqueKeys) (lower : Json) :
    merge upper (merge upper lower) = merge upper lower := by
  induction upper using objectInduction generalizing lower with
  | object ms ih =>
    cases lower with
    | object below =>
      rw [merge, merge, mergeMembers_eq_below]
      intro m hm hnull
      have hunder : member? m.1 (mergeMembers ms below) =
          some ((member? m.1 below).elim m.2 (merge m.2)) := by
        rw [member?_mergeMembers h.nodup, member?_of_mem h.nodup hm, mergeAt_some hnull]
      refine ⟨_, hunder, ?_⟩
      -- A key that is new has the member itself, any other has the member over what was there.
      cases member? m.1 below with
      | none => exact (h.of_mem hm).merge_self
      | some b => exact ih m hm (h.of_mem hm) b
    -- Anything else is replaced, so what is laid over the result is laid over itself.
    | _ => exact h.merge_self
  | leaf j hleaf => rw [merge_of_leaf hleaf, merge_of_leaf hleaf]

end UniqueKeys

/-! ### Keys -/

/-- **The keys of an object that was laid over another** are those of the lower one, and those of the
upper one whose value is not null. -/
theorem mem_keys_mergeMembers :
    key ∈ keys (mergeMembers ms below) ↔ key ∈ keys below ∨ ∃ j, (key, j) ∈ ms ∧ j ≠ .null := by
  induction ms generalizing below with
  | nil => simp [mergeMembers]
  | cons m rest ih =>
    obtain ⟨k, j⟩ := m
    have hcons : (∃ j', (key, j') ∈ (k, j) :: rest ∧ j' ≠ .null) ↔
        (key = k ∧ j ≠ .null) ∨ ∃ j', (key, j') ∈ rest ∧ j' ≠ .null := by
      simp [or_and_right, exists_or]
    by_cases hj : j = .null
    · subst hj
      rw [mergeMembers, ih, hcons]
      simp
    · rw [mergeMembers_cons hj, ih, mem_keys_putMember, hcons, and_iff_left hj, or_assoc,
        or_left_comm]

/-- Where the objects of two values have each key once, so have those of one laid over the other. -/
theorem uniqueKeys_merge (hupper : upper.UniqueKeys) (hlower : lower.UniqueKeys) :
    (merge upper lower).UniqueKeys := by
  induction upper using objectInduction generalizing lower with
  | object ms ih =>
    cases lower with
    | object below =>
      have hnodup : (keys (mergeMembers ms below)).Nodup := nodup_keys_mergeMembers hlower.nodup
      rw [merge]
      refine forall_mem_parts_object hnodup fun m hm => ?_
      have hunder := member?_of_mem hnodup hm
      rw [member?_mergeMembers hupper.nodup] at hunder
      rcases of_mergeAt_eq_some hunder with hbelow | ⟨j, hj, heq⟩
      · exact hlower.of_mem (mem_of_member? hbelow)
      · have hmem := mem_of_member? hj
        rw [← heq]
        cases hbelow : member? m.1 below with
        | none => exact hupper.of_mem hmem
        | some b => exact ih _ hmem (hupper.of_mem hmem) (hlower.of_mem (mem_of_member? hbelow))
    | _ => exact hupper
  | leaf j hleaf => rwa [merge_of_leaf hleaf]

/-! ### The laws together -/

/-- **A merge settles.** Take values whose objects have each key once. To lay one over another a second
time changes nothing, a value laid over itself is itself, and the result has each key once again. An
object over an object has the keys of the lower one and the keys of the upper one whose value is not
null, and no others. -/
theorem merge_settles (hupper : upper.UniqueKeys) (hlower : lower.UniqueKeys) :
    merge upper (merge upper lower) = merge upper lower ∧
    merge upper upper = upper ∧
    (merge upper lower).UniqueKeys ∧
    ∀ ms below, upper = .object ms → lower = .object below →
      ∃ merged, merge upper lower = .object merged ∧
        ∀ key, key ∈ keys merged ↔ key ∈ keys below ∨ ∃ j, (key, j) ∈ ms ∧ j ≠ .null := by
  refine ⟨hupper.merge_merge lower, hupper.merge_self, uniqueKeys_merge hupper hlower, ?_⟩
  rintro ms below rfl rfl
  exact ⟨mergeMembers ms below, by rw [merge], fun key => mem_keys_mergeMembers⟩

/-- An object with nulls of its own and within a member. -/
def untidyJson : Json :=
  .object
    [("orchestrator", .object [("queueCapacity", .null), ("stopDebounceMs", .object [("ms", .null)])]),
      ("items", .nat 4),
      ("fresh", .object [("a", .null)]),
      ("theme", .null),
      ("gone", .null)]

theorem merge_settles_untidy :
    let lower : Json := .object
      [("orchestrator", .object [("queueCapacity", .nat 16), ("stopDebounceMs", .nat 200)]),
        ("items", .array [.nat 1, .nat 2]),
        ("theme", .string "dark")]
    let merged : Json := .object
      [("orchestrator", .object
          [("queueCapacity", .nat 16), ("stopDebounceMs", .object [("ms", .null)])]),
        ("items", .nat 4),
        ("theme", .string "dark"),
        ("fresh", .object [("a", .null)])]
    untidyJson.UniqueKeys ∧ lower.UniqueKeys ∧ merge untidyJson lower = merged ∧
      merge untidyJson merged = merged ∧ merge untidyJson untidyJson = untidyJson ∧
      merged.UniqueKeys ∧ "gone" ∉ keys merged.members := by
  intro lower merged
  have hupper : untidyJson.UniqueKeys := by decide
  have hlower : lower.UniqueKeys := by decide
  have hmerged : merge untidyJson lower = merged := rfl
  obtain ⟨hagain, hself, hunique, hkeys⟩ := merge_settles hupper hlower
  rw [hmerged] at hagain hunique hkeys
  obtain ⟨ms, hms, hmem⟩ := hkeys _ _ rfl rfl
  have hgone : "gone" ∉ keys ms := by simp [hmem]
  exact ⟨hupper, hlower, hmerged, hagain, hself, hunique, by rwa [hms]⟩

end CallWatch.Json
