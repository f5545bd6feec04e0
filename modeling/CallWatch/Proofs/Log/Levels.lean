import CallWatch.Log.Setup
import Mathlib

/-! # Which level counts

* `Filter.Counts` says which directive of a filter counts for a target, and `Filter.passes_iff` that
  this one decides about everything there.
* `Directive.IsTarget` is a text that stands for itself as a target.
* `Filter.readAny_levelsText` says that a base level and the levels of modules are read back as they
  are, if the names of the modules are such texts. -/

namespace CallWatch.Log

/-! ### Directives -/

namespace Filter

variable {f : Filter} {ds : List Directive} {d x : Directive} {target : String} {level : Level}

/-- The directive counts for a target: it covers the target, none in front of it that does is
longer, and all behind it that do are shorter. -/
def Counts (f : Filter) (target : String) (d : Directive) : Prop :=
  ∃ front back, f.directives = front ++ d :: back ∧ d.covers target = true ∧
    (∀ b ∈ front, b.covers target = true → b.target.length ≤ d.target.length) ∧
    ∀ b ∈ back, b.covers target = true → b.target.length < d.target.length

theorem directive?_concat_of_covers (h : x.covers target = true) :
    (mk (ds ++ [x])).directive? target =
      some (match (mk ds).directive? target with
        | none => x
        | some b => sharper b x) := by
  have hlast : [x].filter (·.covers target) = [x] := by simp [h]
  unfold directive?
  rw [List.filter_append, hlast, List.foldl_append]
  cases List.foldl _ none (ds.filter (·.covers target)) <;> rfl

theorem directive?_concat_of_not_covers (h : x.covers target = false) :
    (mk (ds ++ [x])).directive? target = (mk ds).directive? target := by
  simp [directive?, List.filter_append, h]

theorem directive?_eq_none_iff :
    (mk ds).directive? target = none ↔ ∀ d ∈ ds, d.covers target = false := by
  induction ds using List.reverseRecOn with
  | nil => simp [directive?]
  | append_singleton ds x ih =>
    cases hx : x.covers target with
    | false => simp [directive?_concat_of_not_covers hx, ih, hx, or_imp, forall_and]
    | true =>
      rw [directive?_concat_of_covers hx]
      simp [hx]

theorem counts_concat_of_not_covers (h : x.covers target = false) :
    (mk (ds ++ [x])).Counts target d ↔ (mk ds).Counts target d := by
  constructor
  · rintro ⟨front, back, hsplit, hd, hfront, hback⟩
    rcases List.eq_nil_or_concat' back with rfl | ⟨back, y, rfl⟩
    · -- the last one does not cover the target
      obtain ⟨-, hlast⟩ := List.append_inj' hsplit rfl
      rw [List.singleton_inj.mp hlast, hd] at h
      cases h
    · rw [← List.cons_append, ← List.append_assoc] at hsplit
      obtain ⟨rfl, -⟩ := List.append_inj' hsplit rfl
      exact ⟨front, back, rfl, hd, hfront, fun b hb => hback b (List.mem_append_left _ hb)⟩
  · rintro ⟨front, back, rfl, hd, hfront, hback⟩
    refine ⟨front, back ++ [x], by simp, hd, hfront, fun b hb hcovers => ?_⟩
    rcases List.mem_append.mp hb with hb | hb
    · exact hback b hb hcovers
    · rw [List.mem_singleton.mp hb, h] at hcovers
      cases hcovers

theorem counts_concat_of_covers (h : x.covers target = true) :
    (mk (ds ++ [x])).Counts target d ↔
      (d = x ∧ ∀ b ∈ ds, b.covers target = true → b.target.length ≤ x.target.length) ∨
        (mk ds).Counts target d ∧ x.target.length < d.target.length := by
  constructor
  · rintro ⟨front, back, hsplit, hd, hfront, hback⟩
    rcases List.eq_nil_or_concat' back with rfl | ⟨back, y, rfl⟩
    · obtain ⟨rfl, hlast⟩ := List.append_inj' hsplit rfl
      obtain rfl := List.singleton_inj.mp hlast
      exact .inl ⟨rfl, hfront⟩
    · rw [← List.cons_append, ← List.append_assoc] at hsplit
      obtain ⟨rfl, hlast⟩ := List.append_inj' hsplit rfl
      obtain rfl := List.singleton_inj.mp hlast
      have hshorter := hback x (List.mem_append_right _ (.head _)) h
      exact .inr ⟨⟨front, back, rfl, hd, hfront, fun b hb => hback b (List.mem_append_left _ hb)⟩,
        hshorter⟩
  · rintro (⟨rfl, hlonger⟩ | ⟨⟨front, back, rfl, hd, hfront, hback⟩, hshorter⟩)
    · exact ⟨ds, [], rfl, h, hlonger, by simp⟩
    · refine ⟨front, back ++ [x], by simp, hd, hfront, fun b hb hcovers => ?_⟩
      rcases List.mem_append.mp hb with hb | hb
      · exact hback b hb hcovers
      · rw [List.mem_singleton.mp hb]
        exact hshorter

/-- **The directive that is found is the one that counts.** -/
theorem directive?_eq_some_iff : f.directive? target = some d ↔ f.Counts target d := by
  obtain ⟨ds⟩ := f
  -- the scan goes from front to back, so the last directive is compared with the best of the others
  induction ds using List.reverseRecOn generalizing d with
  | nil => simp [directive?, Counts]
  | append_singleton ds x ih =>
    cases hx : x.covers target with
    | false => rw [directive?_concat_of_not_covers hx, counts_concat_of_not_covers hx, ih]
    | true =>
      rw [directive?_concat_of_covers hx, counts_concat_of_covers hx, ← ih, Option.some_inj]
      cases hbest : (mk ds).directive? target with
      | none =>
        have hnone := directive?_eq_none_iff.mp hbest
        have hall : ∀ b ∈ ds, b.covers target = true → b.target.length ≤ x.target.length := by
          intro b hb hcovers
          rw [hnone b hb] at hcovers
          cases hcovers
        constructor
        · rintro rfl
          exact .inl ⟨rfl, hall⟩
        · rintro (⟨rfl, -⟩ | ⟨hd, -⟩)
          · rfl
          · cases hd
      | some b =>
        obtain ⟨front, back, rfl, hb, hfront, hback⟩ := ih.mp hbest
        have hlongest : (∀ c ∈ front ++ b :: back, c.covers target = true →
            c.target.length ≤ x.target.length) ↔ b.target.length ≤ x.target.length := by
          refine ⟨fun h => h b (by simp) hb, fun hle c hc hcovers => ?_⟩
          rcases List.mem_append.mp hc with hc | hc
          · exact (hfront c hc hcovers).trans hle
          · rcases List.mem_cons.mp hc with rfl | hc
            · exact hle
            · exact (hback c hc hcovers).le.trans hle
        rw [hlongest]
        dsimp only [sharper]
        by_cases hle : b.target.length ≤ x.target.length
        · rw [if_pos hle]
          constructor
          · rintro rfl
            exact .inl ⟨rfl, hle⟩
          · rintro (⟨rfl, -⟩ | ⟨hd, hlt⟩)
            · rfl
            · obtain rfl := Option.some.inj hd
              omega
        · rw [if_neg hle]
          constructor
          · rintro rfl
            exact .inr ⟨rfl, by omega⟩
          · rintro (⟨-, hle'⟩ | ⟨hd, -⟩)
            · exact absurd hle' hle
            · exact Option.some.inj hd

/-- **The directive that counts for a target decides what passes there.** -/
theorem passes_iff : f.passes target level = true ↔
    ∃ d max, f.Counts target d ∧ d.level = some max ∧ level.rank ≤ max.rank := by
  unfold passes
  constructor
  · intro h
    split at h
    · next max hmax =>
      obtain ⟨d, hd, hlevel⟩ := Option.bind_eq_some_iff.mp hmax
      exact ⟨d, max, directive?_eq_some_iff.mp hd, hlevel, of_decide_eq_true h⟩
    · cases h
  · rintro ⟨d, max, hd, hlevel, hrank⟩
    rw [directive?_eq_some_iff.mpr hd, Option.bind_some, hlevel]
    exact decide_eq_true hrank

theorem passes_of_within {level' : Level} (h : f.passes target level = true)
    (hle : level'.rank ≤ level.rank) : f.passes target level' = true := by
  obtain ⟨d, max, hd, hmax, hrank⟩ := passes_iff.mp h
  exact passes_iff.mpr ⟨d, max, hd, hmax, hle.trans hrank⟩

end Filter

/-! ### Written directives -/

namespace Directive

variable {s t : String} {c : Char}

/-- A text that stands for itself as the target of a directive: it is made of the characters of
targets, and is no level. -/
structure IsTarget (s : String) : Prop where
  full : s ≠ ""
  chars : ∀ c ∈ s.toList, isTargetChar c = true
  noLevel : readLevel? s = none

theorem IsTarget.not_mem (h : IsTarget s) (hc : isTargetChar c = false) : c ∉ s.toList := by
  intro hmem
  rw [h.chars c hmem] at hc
  cases hc

theorem sameLetters_eq_false (hs : c ∈ s.toList) (ht : c.toLower ∉ (Text.lower t).toList) :
    Text.sameLetters t s = false := by
  rw [Text.sameLetters, beq_eq_false_iff_ne]
  intro heq
  rw [heq, Text.lower, String.toList_ofList] at ht
  exact ht (List.mem_map_of_mem hs)

theorem readNumeral?_eq_none (h : '=' ∈ s.toList) : Text.readNumeral? s = none := by
  have hdigits (ds : List Char) (hds : '=' ∈ ds) : ds.all Char.isDigit = false :=
    List.all_eq_false.mpr ⟨'=', hds, by decide⟩
  unfold Text.readNumeral?
  split
  · next rest heq =>
    rw [heq] at h
    simp [hdigits rest (List.mem_of_ne_of_mem (by decide) h)]
  · simp [hdigits _ h]

theorem readWord?_eq_none (h : '=' ∈ s.toList) : readWord? s = none := by
  have hoff : Text.sameLetters s "off" = false := by
    rw [Text.sameLetters, Bool.beq_comm]
    exact sameLetters_eq_false h (by decide)
  have hname (l : Level) : Text.sameLetters l.name s = false :=
    sameLetters_eq_false h (by cases l <;> decide)
  simp [readWord?, readLevel?, Level.ofText?, readNumeral?_eq_none h, hoff, hname]

theorem readWord?_name (level : Level) : readWord? (Text.lower level.name) = some (some level) := by
  cases level <;> decide

theorem read?_name (level : Level) :
    read? (Text.lower level.name) = some ⟨"", some level⟩ := by
  rw [read?, readWord?_name]

/-- A target with its level behind an equals sign is read as both. -/
theorem IsTarget.read?_eq (h : IsTarget s) (level : Level) :
    read? (s ++ "=" ++ Text.lower level.name) = some ⟨s, some level⟩ := by
  have htext : (s ++ "=" ++ Text.lower level.name).toList =
      s.toList ++ '=' :: (Text.lower level.name).toList := by
    rw [String.toList_append, String.toList_append, List.append_assoc]
    rfl
  have hs : ∀ c ∈ s.toList, (c != '=') = true := by
    intro c hc
    rw [bne_iff_ne]
    rintro rfl
    exact h.not_mem (by decide) hc
  have hfront : (s ++ "=" ++ Text.lower level.name).toList.takeWhile (· != '=') = s.toList := by
    rw [htext, List.takeWhile_append_of_pos hs]
    simp
  have hback : String.ofList (((s ++ "=" ++ Text.lower level.name).toList.dropWhile
      (· != '=')).drop 1) = Text.lower level.name := by
    rw [htext, List.dropWhile_append_of_pos hs]
    simp
  have hword : readWord? (s ++ "=" ++ Text.lower level.name) = none :=
    readWord?_eq_none (by simp [htext])
  have hfull : s.toList.isEmpty = false := by simpa using h.full
  have hchars : s.toList.all isTargetChar = true := List.all_eq_true.mpr h.chars
  have hwritten : (Text.lower level.name).isEmpty = false := by cases level <;> decide
  unfold read?
  simp only [hword, hfront, hback, hfull, hchars, hwritten, h.noLevel, readWord?_name,
    String.ofList_toList, Option.isSome_none, Bool.not_true, Bool.or_self, Bool.false_eq_true,
    reduceIte, Option.map_some]

end Directive

/-! ### Levels of modules -/

namespace Filter

/-- The parts of a text that was put together from parts without commas. -/
theorem splitOn_flatMap {front : List Char} {parts : List (List Char)} (hfront : ',' ∉ front)
    (h : ∀ p ∈ parts, ',' ∉ p) :
    (front ++ parts.flatMap (',' :: ·)).splitOn ',' = front :: parts := by
  induction parts generalizing front with
  | nil =>
    have hsingle : ([','].intercalate [front]).splitOn ',' = [front] :=
      List.splitOn_intercalate ',' (by simpa using hfront) (by simp)
    simpa using hsingle
  | cons p parts ih =>
    rw [List.forall_mem_cons] at h
    rw [List.flatMap_cons, List.cons_append,
      List.splitOn_append_cons_self_of_not_mem hfront, ih h.1 h.2]

theorem toList_levelsText (base : Level) (modules : List (String × Level)) :
    (levelsText base modules).toList = (Text.lower base.name).toList ++
      (modules.map fun m => (m.1 ++ "=" ++ Text.lower m.2.name).toList).flatMap (',' :: ·) := by
  unfold levelsText
  induction modules using List.reverseRecOn with
  | nil => simp
  | append_singleton modules m ih =>
    rw [List.foldl_append, List.foldl_cons, List.foldl_nil, String.toList_append,
      String.toList_append, String.toList_append, String.toList_append, ih]
    simp

theorem comma_not_mem_lower_name (level : Level) : ',' ∉ (Text.lower level.name).toList := by
  cases level <;> decide

theorem parts_levelsText {base : Level} {modules : List (String × Level)}
    (h : ∀ m ∈ modules, ',' ∉ m.1.toList) :
    parts (levelsText base modules) =
      Text.lower base.name :: modules.map fun m => m.1 ++ "=" ++ Text.lower m.2.name := by
  let written (m : String × Level) : String := m.1 ++ "=" ++ Text.lower m.2.name
  have hcomma : ∀ p ∈ modules.map fun m => (written m).toList, ',' ∉ p := by
    intro p hp
    obtain ⟨m, hm, rfl⟩ := List.mem_map.mp hp
    simp only [written, String.toList_append, List.mem_append, not_or]
    exact ⟨⟨h m hm, by decide⟩, comma_not_mem_lower_name m.2⟩
  have hfull : ∀ p ∈ (Text.lower base.name).toList :: modules.map fun m => (written m).toList,
      (!p.isEmpty) = true := by
    intro p hp
    rcases List.mem_cons.mp hp with rfl | hp
    · cases base <;> decide
    · obtain ⟨m, -, rfl⟩ := List.mem_map.mp hp
      simp [written]
  rw [parts, toList_levelsText, splitOn_flatMap (comma_not_mem_lower_name base) hcomma,
    List.filter_eq_self.mpr hfull, List.map_cons, List.map_map, String.ofList_toList]
  exact congrArg _ (List.map_congr_left fun m _ => String.ofList_toList)

/-- **A base level and the levels of modules are read back as they are**, if the names of the modules
are targets. -/
theorem readAny_levelsText {base : Level} {modules : List (String × Level)}
    (h : ∀ m ∈ modules, Directive.IsTarget m.1) :
    readAny (levelsText base modules) = ofLevels base modules := by
  have hmodules : (modules.map fun m => m.1 ++ "=" ++ Text.lower m.2.name).filterMap
      Directive.read? = modules.map fun m => ⟨m.1, some m.2⟩ := by
    rw [List.filterMap_map, ← List.filterMap_eq_map]
    exact List.filterMap_congr fun m hm => (h m hm).read?_eq m.2
  rw [readAny, parts_levelsText fun m hm => (h m hm).not_mem (by decide),
    List.filterMap_cons_some (Directive.read?_name base), hmodules]
  rfl

example : read? "warn,callkeep_engine=trace" =
    some (ofLevels .warn [("callkeep_engine", .trace)]) := by decide

example : read? "warn,@" = none := by decide

end Filter

/-- **Where the environment has no directives the levels of the settings count.** -/
theorem Setup.filter_of_unset {s : Setup} {env : Variables} (hunset : env.lookup "RUST_LOG" = none)
    (h : ∀ m ∈ s.modules, Directive.IsTarget m.1) :
    s.filter env = .ofLevels s.level s.modules := by
  rw [filter, hunset, Option.bind_none, Option.getD_none, Filter.readAny_levelsText h]

end CallWatch.Log
