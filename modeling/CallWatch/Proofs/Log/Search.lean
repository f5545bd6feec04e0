import CallWatch.Log.Sink
import CallWatch.Proofs.Text

/-! # Searching the kept log

A query asks for records by parts that may be set, and gets the newest ones first.

* `Like` says what a pattern stands for, and `like_iff` that matching decides it.
* `Resembles` is how the target of a query is compared: some run of the text is like the pattern. A
  text that holds the pattern letter by letter resembles it, but so do others.
* `Sink.Finds` says what a query brings to light, for any way to compare targets. -/

namespace CallWatch.Log

/-! ### Patterns -/

/-- What a pattern stands for: a percent sign for any run of characters, a low line for any one
character, and any other character for itself in either case. -/
inductive Like : List Char → List Char → Prop
  | nil : Like [] []
  | run (front : List Char) {ps cs : List Char} (h : Like ps cs) : Like ('%' :: ps) (front ++ cs)
  | one (c : Char) {ps cs : List Char} (h : Like ps cs) : Like ('_' :: ps) (c :: cs)
  | letter {p c : Char} {ps cs : List Char} (hrun : p ≠ '%') (hone : p ≠ '_')
      (hc : sameLetter p c = true) (h : Like ps cs) : Like (p :: ps) (c :: cs)

variable {ps qs cs ds : List Char} {p c : Char}

theorem like_nil_iff : Like [] cs ↔ cs = [] :=
  ⟨fun h => by cases h; rfl, fun h => h ▸ .nil⟩

theorem like_run_iff : Like ('%' :: ps) cs ↔ ∃ front back, cs = front ++ back ∧ Like ps back := by
  constructor
  · intro h
    cases h with
    | run front h => exact ⟨front, _, rfl, h⟩
    | letter hrun => exact absurd rfl hrun
  · rintro ⟨front, back, rfl, h⟩
    exact .run front h

theorem like_char_iff (hp : p ≠ '%') :
    Like (p :: ps) cs ↔
      ∃ c rest, cs = c :: rest ∧ (p = '_' ∨ sameLetter p c = true) ∧ Like ps rest := by
  constructor
  · intro h
    cases h with
    | run => exact absurd rfl hp
    | one c h => exact ⟨c, _, rfl, .inl rfl, h⟩
    | letter _ _ hc h => exact ⟨_, _, rfl, .inr hc, h⟩
  · rintro ⟨c, rest, rfl, hc, h⟩
    by_cases hone : p = '_'
    · subst hone
      exact .one c h
    · exact .letter hp hone (hc.resolve_left hone) h

theorem like_run_cons_iff : Like ('%' :: ps) (c :: cs) ↔ Like ps (c :: cs) ∨ Like ('%' :: ps) cs := by
  rw [like_run_iff, like_run_iff]
  constructor
  · rintro ⟨front, back, heq, h⟩
    cases front with
    | nil => exact .inl (heq ▸ h)
    | cons x front => exact .inr ⟨front, back, (List.cons.inj heq).2, h⟩
  · rintro (h | ⟨front, back, rfl, h⟩)
    · exact ⟨[], c :: cs, rfl, h⟩
    · exact ⟨c :: front, back, rfl, h⟩

/-- **Matching decides what a pattern stands for.** -/
theorem like_iff : like ps cs = true ↔ Like ps cs := by
  fun_induction like ps cs with
  | case1 => simp [like_nil_iff]
  | case2 => simp [like_nil_iff]
  | case3 p ps ih =>
    by_cases hp : p = '%'
    · subst hp
      simp [like_run_iff, ih]
    · simp [hp, like_char_iff hp]
  | case4 ps c cs ihps ihcs =>
    rw [Bool.or_eq_true, ihps, ihcs, like_run_cons_iff]
  | case5 p ps c cs hp ih =>
    simp [like_char_iff hp, ih]

theorem Like.append (h : Like ps cs) (h' : Like qs ds) : Like (ps ++ qs) (cs ++ ds) := by
  induction h with
  | nil => exact h'
  | run front _ ih =>
    rw [List.append_assoc]
    exact .run front ih
  | one c _ ih => exact .one c ih
  | letter hrun hone hc _ ih => exact .letter hrun hone hc ih

/-- What two patterns one after the other stand for falls into two pieces. -/
theorem like_append_iff :
    Like (ps ++ qs) cs ↔ ∃ front back, cs = front ++ back ∧ Like ps front ∧ Like qs back := by
  constructor
  · intro h
    induction ps generalizing cs with
    | nil => exact ⟨[], cs, rfl, .nil, h⟩
    | cons p ps ih =>
      rw [List.cons_append] at h
      by_cases hp : p = '%'
      · subst hp
        obtain ⟨skipped, rest, rfl, hrest⟩ := like_run_iff.mp h
        obtain ⟨front, back, rfl, hfront, hback⟩ := ih hrest
        exact ⟨skipped ++ front, back, (List.append_assoc ..).symm, .run skipped hfront, hback⟩
      · obtain ⟨c, rest, rfl, hc, hrest⟩ := (like_char_iff hp).mp h
        obtain ⟨front, back, rfl, hfront, hback⟩ := ih hrest
        exact ⟨c :: front, back, rfl, (like_char_iff hp).mpr ⟨c, front, rfl, hc, hfront⟩, hback⟩
  · rintro ⟨front, back, rfl, hfront, hback⟩
    exact hfront.append hback

/-- Every text is like itself. -/
theorem Like.refl (cs : List Char) : Like cs cs := by
  induction cs with
  | nil => exact .nil
  | cons c cs ih =>
    by_cases hc : c = '%'
    · subst hc
      exact .run ['%'] ih
    · exact (like_char_iff hc).mpr ⟨c, cs, rfl, .inr (by simp [sameLetter]), ih⟩

/-- A pattern of letters stands for those letters in either case. -/
theorem like_iff_of_letters (hrun : '%' ∉ ps) (hone : '_' ∉ ps) :
    Like ps cs ↔ cs.map Char.toLower = ps.map Char.toLower := by
  induction ps generalizing cs with
  | nil => simp [like_nil_iff]
  | cons p ps ih =>
    rw [List.mem_cons, not_or] at hrun hone
    rw [like_char_iff (Ne.symm hrun.1)]
    constructor
    · rintro ⟨c, rest, rfl, hc, h⟩
      have hsame : p.toLower = c.toLower := by
        simpa [sameLetter] using hc.resolve_left (Ne.symm hone.1)
      rw [List.map_cons, List.map_cons, (ih hrun.2 hone.2).mp h, hsame]
    · intro h
      cases cs with
      | nil => simp at h
      | cons c rest =>
        obtain ⟨hc, hrest⟩ := List.cons.inj h
        exact ⟨c, rest, rfl, .inr (by simp [sameLetter, hc]), (ih hrun.2 hone.2).mpr hrest⟩

/-! ### Targets -/

/-- The text holds the other one letter by letter. -/
def Contains (s w : String) : Prop := w.toList <:+: s.toList

/-- Some run of the text is like the pattern. -/
def Resembles (s w : String) : Prop := ∃ run, run <:+: s.toList ∧ Like w.toList run

theorem like_around_iff {s w : String} :
    like ('%' :: w.toList ++ ['%']) s.toList = true ↔ Resembles s w := by
  have hlast (cs : List Char) : Like ['%'] cs := like_run_iff.mpr ⟨cs, [], by simp, .nil⟩
  rw [like_iff, List.cons_append, like_run_iff]
  constructor
  · rintro ⟨front, rest, hs, h⟩
    obtain ⟨run, back, rfl, hrun, -⟩ := like_append_iff.mp h
    exact ⟨run, ⟨front, back, by rw [hs, List.append_assoc]⟩, hrun⟩
  · rintro ⟨run, ⟨front, back, hs⟩, hrun⟩
    exact ⟨front, run ++ back, by rw [← hs, List.append_assoc], hrun.append (hlast back)⟩

theorem Resembles.of_contains {s w : String} (h : Contains s w) : Resembles s w :=
  ⟨w.toList, h, .refl _⟩

/-- A pattern of letters is resembled by the texts that hold it in either case. -/
theorem resembles_iff_of_letters {s w : String} (hrun : '%' ∉ w.toList) (hone : '_' ∉ w.toList) :
    Resembles s w ↔ Contains (Text.lower s) (Text.lower w) := by
  have hlower (t : String) : (Text.lower t).toList = t.toList.map Char.toLower := by
    simp [Text.lower]
  unfold Resembles Contains
  rw [hlower, hlower]
  constructor
  · rintro ⟨run, hinfix, hlike⟩
    rw [← (like_iff_of_letters hrun hone).mp hlike]
    exact hinfix.map Char.toLower
  · rintro ⟨front, back, h⟩
    obtain ⟨front', rest, hs, -, hrest⟩ := List.map_eq_append_iff.mp
      (show s.toList.map Char.toLower = front ++ (w.toList.map Char.toLower ++ back) by
        rw [← h, List.append_assoc])
    obtain ⟨run, back', rfl, hsame, -⟩ := List.map_eq_append_iff.mp hrest
    exact ⟨run, ⟨front', back', by rw [hs, List.append_assoc]⟩,
      (like_iff_of_letters hrun hone).mpr hsame⟩

/-! ### Queries -/

/-- The query asks for the record: every part that is set agrees, the level whatever the case, and the
target as the comparison has it. -/
structure Query.Asks (compares : String → String → Prop) (q : Query) (r : Record) : Prop where
  level : ∀ w, q.level = some w → Text.sameLetters w r.level.name = true
  target : ∀ w, q.target = some w → compares r.target w
  userId : ∀ u, q.userId = some u → r.userId = some u
  conversationId : ∀ c, q.conversationId = some c → r.conversationId = some c
  since : ∀ t, q.since = some t → t ≤ r.timestamp

theorem agrees_iff {wanted : Option String} {agree : String → Bool} :
    agrees wanted agree = true ↔ ∀ w, wanted = some w → agree w = true := by
  cases wanted <;> simp [agrees]

theorem upper_eq_name_iff {w : String} {l : Level} :
    Text.upper w = l.name ↔ Text.sameLetters w l.name = true := by
  have hname : Text.upper l.name = l.name := by cases l <;> decide
  rw [Text.sameLetters_iff, hname]

theorem Query.isMet_iff {q : Query} {r : Record} : q.isMet r = true ↔ q.Asks Resembles r := by
  simp only [isMet, Bool.and_eq_true, agrees_iff, beq_iff_eq, decide_eq_true_eq, upper_eq_name_iff,
    like_around_iff]
  constructor
  · rintro ⟨⟨⟨⟨hlevel, htarget⟩, huser⟩, hconversation⟩, hsince⟩
    exact ⟨hlevel, htarget, huser, hconversation, hsince⟩
  · rintro ⟨hlevel, htarget, huser, hconversation, hsince⟩
    exact ⟨⟨⟨⟨hlevel, htarget⟩, huser⟩, hconversation⟩, hsince⟩

/-- A query for names alone. -/
def Query.ofNames (user conversation : Option String) (limit : Option Nat) : Query :=
  { (default : Query) with userId := user, conversationId := conversation, limit }

theorem Query.asks_ofNames_iff {compares : String → String → Prop}
    {user conversation : Option String} {limit : Option Nat} {r : Record} :
    (ofNames user conversation limit).Asks compares r ↔
      (∀ u, user = some u → r.userId = some u) ∧
        ∀ c, conversation = some c → r.conversationId = some c := by
  constructor
  · intro h
    exact ⟨h.userId, h.conversationId⟩
  · rintro ⟨huser, hconversation⟩
    constructor
    case userId => exact huser
    case conversationId => exact hconversation
    all_goals rintro w ⟨⟩

/-! ### The kept log -/

namespace Sink

variable {sink : Sink} {q : Query} {r : Record}

/-- The sink after more events, each at its time. -/
def after (sink : Sink) (log : List (String × Event)) : Sink :=
  log.foldl (fun s entry => s.keep entry.1 entry.2) sink

/-- The sink that keeps these events, each at its time. -/
def ofLog (log : List (String × Event)) : Sink := empty.after log

theorem after_append (sink : Sink) (log log' : List (String × Event)) :
    sink.after (log ++ log') = (sink.after log).after log' := List.foldl_append

theorem keepAll_eq_after (sink : Sink) (t : String) (events : List Event) :
    sink.keepAll t events = sink.after (events.map (t, ·)) := by
  rw [after, List.foldl_map, keepAll]

/-- One record more for every event that is grave enough, in their order. -/
theorem records_after (sink : Sink) (log : List (String × Event)) :
    (sink.after log).records = sink.records ++
      (log.filter (·.2.level.isKept)).mapIdx fun i entry =>
        entry.2.record (sink.count + i + 1) entry.1 := by
  induction log using List.reverseRecOn with
  | nil => simp [after]
  | append_singleton log entry ih =>
    have hstep : sink.after (log ++ [entry]) = (sink.after log).keep entry.1 entry.2 := by
      rw [after_append]
      rfl
    rw [hstep]
    cases hkept : entry.2.level.isKept with
    | false =>
      rw [keep_of_not_isKept hkept, ih, List.filter_append]
      simp [hkept]
    | true =>
      have hcount : (sink.after log).count =
          sink.count + (log.filter (·.2.level.isKept)).length := by
        rw [count, ih]
        simp [count]
      rw [records_keep hkept, hcount, ih, List.filter_append]
      simp [hkept, List.mapIdx_append]

/-- The records are numbered from one on, in their order. -/
def Numbered (sink : Sink) : Prop := sink.records.map (·.id) = List.range' 1 sink.count

theorem Numbered.keep (h : sink.Numbered) (t : String) (e : Event) : (sink.keep t e).Numbered := by
  cases hkept : e.level.isKept with
  | false =>
    rw [keep_of_not_isKept hkept]
    exact h
  | true =>
    have hcount : (sink.keep t e).count = sink.count + 1 := by simp [count, records_keep hkept]
    rw [Numbered, records_keep hkept, List.map_append, h, hcount, List.range'_1_concat,
      Nat.add_comm 1]
    rfl

theorem numbered_ofLog (log : List (String × Event)) : (ofLog log).Numbered := by
  induction log using List.reverseRecOn with
  | nil => rfl
  | append_singleton log entry ih =>
    rw [ofLog, after_append]
    exact ih.keep entry.1 entry.2

/-- The latest record has the greatest number. -/
theorem Numbered.descends (h : sink.Numbered) :
    sink.records.reverse.Pairwise fun a b => b.id < a.id := by
  have hascends : (sink.records.map (·.id)).Pairwise (· < ·) := by
    rw [h]
    exact List.pairwise_lt_range'
  rw [List.pairwise_reverse]
  exact List.pairwise_map.mp hascends

/-- What a query finds, if targets are compared in this way: of the records that it asks for the first
ones, the newest before the others, and no more than its limit, which is a hundred unless it is set. -/
def Finds (compares : String → String → Prop) (sink : Sink) (q : Query) (answer : List Record) :
    Prop :=
  ∃ found : List Record, (found.Pairwise fun a b => b.id < a.id) ∧
    (∀ r, r ∈ found ↔ r ∈ sink.records ∧ q.Asks compares r) ∧ answer = found.take (q.limit.getD 100)

theorem Numbered.finds (h : sink.Numbered) (q : Query) : sink.Finds Resembles q (sink.query q) := by
  refine ⟨sink.records.reverse.filter q.isMet, h.descends.filter _, fun r => ?_, rfl⟩
  rw [List.mem_filter, List.mem_reverse, Query.isMet_iff]

/-- A record with fewer others behind it than the limit allows is found if the query asks for it. -/
theorem mem_query_iff {earlier later : List Record} (h : sink.records = earlier ++ r :: later)
    (hlater : later.length < q.limit.getD Query.defaultLimit) :
    r ∈ sink.query q ↔ q.Asks Resembles r := by
  rw [← Query.isMet_iff]
  refine ⟨fun hr => (List.mem_filter.mp (List.mem_of_mem_take hr)).2, fun hr => ?_⟩
  have hfront : (later.reverse.filter q.isMet).length < q.limit.getD Query.defaultLimit := by
    have hle := List.length_filter_le q.isMet later.reverse
    rw [List.length_reverse] at hle
    omega
  have hfound : sink.records.reverse.filter q.isMet =
      later.reverse.filter q.isMet ++ r :: earlier.reverse.filter q.isMet := by
    rw [h, List.reverse_append, List.reverse_cons, List.append_assoc, List.filter_append,
      List.singleton_append, List.filter_cons_of_pos hr]
  obtain ⟨n, hn⟩ := Nat.exists_eq_add_of_lt hfront
  rw [query, hfound, hn, Nat.add_assoc, List.take_length_add_append, List.take_succ_cons]
  exact List.mem_append_right _ (.head _)

/-- With no fewer allowed than there are, all records are found that the query asks for. -/
theorem mem_query_iff_of_count_le (h : sink.count ≤ q.limit.getD Query.defaultLimit) :
    r ∈ sink.query q ↔ r ∈ sink.records ∧ q.Asks Resembles r := by
  have hall : (sink.records.reverse.filter q.isMet).length ≤ q.limit.getD Query.defaultLimit := by
    refine (List.length_filter_le _ _).trans ?_
    rw [List.length_reverse]
    exact h
  rw [query, List.take_of_length_le hall, List.mem_filter, List.mem_reverse, Query.isMet_iff]

/-- **What queries find.** The newest records for which every part that is set agrees, where a target
agrees if it resembles the wanted text. It does if it holds that text, and for a text without percent
signs and low lines only if it holds it in either case. -/
theorem query_resembles (log : List (String × Event)) (q : Query) :
    (ofLog log).Finds Resembles q ((ofLog log).query q) ∧
    (∀ s w, Contains s w → Resembles s w) ∧
    ∀ s w : String, '%' ∉ w.toList → '_' ∉ w.toList →
      (Resembles s w ↔ Contains (Text.lower s) (Text.lower w)) :=
  ⟨(numbered_ofLog log).finds q, fun _ _ => .of_contains, fun _ _ => resembles_iff_of_letters⟩

/-- The warning about a call that could not be answered. -/
def unanswered : Event :=
  ⟨.warn, "callkeep_engine::answer", [⟨"message", .text "answering call failed"⟩], []⟩

/-- A percent sign in the wanted text also finds targets that have something else in its place. -/
theorem query_finds_other_targets :
    ¬ ∀ (log : List (String × Event)) (q : Query), q.since = none →
      (ofLog log).Finds Contains q ((ofLog log).query q) := by
  intro h
  let log := [("", unanswered)]
  let q : Query := { (default : Query) with target := some "callkeep%answer" }
  let kept : Record := unanswered.record 1 ""
  obtain ⟨found, -, hfound, hanswer⟩ := h log q rfl
  have hquery : (ofLog log).query q = [kept] := by cbv
  have hmem : kept ∈ (ofLog log).query q := by
    rw [hquery]
    exact .head _
  rw [hanswer] at hmem
  have hasks := ((hfound kept).mp (List.mem_of_mem_take hmem)).2
  have hcontains : Contains "callkeep_engine::answer" "callkeep%answer" := hasks.target _ rfl
  exact absurd hcontains (by unfold Contains; decide)

end Sink

end CallWatch.Log
