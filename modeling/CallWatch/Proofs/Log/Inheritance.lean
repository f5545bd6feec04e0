import CallWatch.Proofs.Keyed
import CallWatch.Proofs.Log.Search

/-! # Ids come from the innermost span

A record names the user and the conversation that its event names as texts. What the event does not
name comes from the innermost of its spans that does, for the user and for the conversation alike
and each on its own. Numbers and truth values name nobody: they are stored with the other fields,
whatever they are called. -/

namespace CallWatch.Log

/-! ### What a field holds -/

namespace FieldValue

/-- The text of a value that is recorded as one: a text as it is, and what a value shows without the
quotes at its ends. -/
def text? : FieldValue → Option String
  | .text s => some s
  | .shown s => some (Text.trimQuotes s)
  | .signed _ => none
  | .unsigned _ => none
  | .flag _ => none

/-- The stored form of a plain value: a number or a truth value. -/
def plain? : FieldValue → Option Json
  | .text _ => none
  | .shown _ => none
  | .signed n => some (.int n)
  | .unsigned n => some (.nat n)
  | .flag b => some (.bool b)

end FieldValue

namespace Field

/-- The names that mean something of their own when they hold text. -/
def meaningful : List String := ["message", "user_id", "conversation_id"]

/-- The text that a field of this name holds. -/
def textOf? (name : String) (f : Field) : Option String :=
  if f.name = name then f.value.text? else none

/-- The plain value that a field of this name holds. -/
def plainOf? (name : String) (f : Field) : Option Json :=
  if f.name = name then f.value.plain? else none

/-- What a field of this name stores: a plain value in any case, and a text unless the name means
something of its own. -/
def storedOf? (name : String) (f : Field) : Option Json :=
  (f.plainOf? name).or (if name ∈ meaningful then none else (f.textOf? name).map .string)

theorem storedOf?_of_meaningful {name : String} (h : name ∈ meaningful) :
    storedOf? name = plainOf? name := by
  funext f
  rw [storedOf?, if_pos h, Option.or_none]

end Field

/-- The last of the fields that has this part has it like this. -/
def HasLast {α : Type} (part : Field → Option α) (fields : List Field) (a : α) : Prop :=
  ∃ before f after, fields = before ++ f :: after ∧ part f = some a ∧ ∀ g ∈ after, part g = none

/-- None of the fields has this part. -/
def Lacks {α : Type} (part : Field → Option α) (fields : List Field) : Prop :=
  ∀ f ∈ fields, part f = none

/-- What an event is given as the text of this name: the one in its own fields, or else the one of
the innermost span that has one, or else nothing. -/
inductive Inherits (name : String) (own : List Field) (spans : List Span) : Option String → Prop
  | own {s} (h : HasLast (Field.textOf? name) own s) : Inherits name own spans (some s)
  | inherited {s inner span outer} (hown : Lacks (Field.textOf? name) own)
      (hspans : spans = inner ++ span :: outer)
      (hinner : ∀ i ∈ inner, Lacks (Field.textOf? name) i.fields)
      (h : HasLast (Field.textOf? name) span.fields s) : Inherits name own spans (some s)
  | none (hown : Lacks (Field.textOf? name) own)
      (hspans : ∀ span ∈ spans, Lacks (Field.textOf? name) span.fields) :
      Inherits name own spans none

/-! ### The last of the fields -/

section LastOf

variable {α : Type} {part : Field → Option α} {fields : List Field}

/-- A part as the last field that has it has it. -/
def lastOf (part : Field → Option α) (fields : List Field) : Option α :=
  fields.reverse.findSome? part

theorem lastOf_concat (part : Field → Option α) (fields : List Field) (f : Field) :
    lastOf part (fields ++ [f]) = (part f).or (lastOf part fields) := by
  rw [lastOf, List.reverse_concat, List.findSome?_cons, lastOf]
  cases part f <;> rfl

theorem lastOf_eq_some_iff {a : α} : lastOf part fields = some a ↔ HasLast part fields a := by
  rw [lastOf, List.findSome?_eq_some_iff]
  constructor
  · rintro ⟨after, f, before, hsplit, hf, hafter⟩
    refine ⟨before.reverse, f, after.reverse, ?_, hf, fun g hg => hafter g (List.mem_reverse.1 hg)⟩
    rw [← List.reverse_reverse fields, hsplit, List.reverse_append, List.reverse_cons,
      List.append_assoc, List.singleton_append]
  · rintro ⟨before, f, after, rfl, hf, hafter⟩
    refine ⟨after.reverse, f, before.reverse, ?_, hf, fun g hg => hafter g (List.mem_reverse.1 hg)⟩
    rw [List.reverse_append, List.reverse_cons, List.append_assoc, List.singleton_append]

theorem lastOf_eq_none_iff : lastOf part fields = none ↔ Lacks part fields := by
  simp [lastOf, Lacks]

end LastOf

/-! ### Fields taken together -/

namespace Gathered

variable (g : Gathered) (f : Field) (fields : List Field)

theorem ofFields_concat : ofFields (fields ++ [f]) = (ofFields fields).add f := List.foldl_concat ..

/-- A text of its own meaning stands in its place, and one more in place of the one before. -/
theorem texts_addText (name s : String) :
    (g.addText name s).userId = (if name = "user_id" then some s else none).or g.userId ∧
      (g.addText name s).conversationId =
        (if name = "conversation_id" then some s else none).or g.conversationId := by
  unfold addText
  split_ifs <;> simp_all

theorem lookup_others_addText (name s other : String) :
    (g.addText name s).others.lookup other =
      (if name = other ∧ other ∉ Field.meaningful then some (.string s) else none).or
        (g.others.lookup other) := by
  by_cases hname : name ∈ Field.meaningful
  · have hothers : (g.addText name s).others = g.others := by
      simp only [Field.meaningful, List.mem_cons, List.not_mem_nil, or_false] at hname
      rcases hname with rfl | rfl | rfl <;> rfl
    rw [hothers, if_neg (by rintro ⟨rfl, h⟩; exact h hname), Option.none_or]
  · have hothers : (g.addText name s).others = Keyed.put name (.string s) g.others := by
      simp only [Field.meaningful, List.mem_cons, List.not_mem_nil, or_false, not_or] at hname
      rw [addText, if_neg hname.1, if_neg hname.2.1, if_neg hname.2.2]
    rw [hothers, Keyed.lookup_put]
    by_cases hother : other = name
    · rw [if_pos hother, if_pos ⟨hother.symm, hother ▸ hname⟩, Option.some_or]
    · rw [if_neg hother, if_neg fun h => hother h.1.symm, Option.none_or]

theorem lookup_others_addPlain (name : String) (value : Json) (other : String) :
    (g.addPlain name value).others.lookup other =
      (if name = other then some value else none).or (g.others.lookup other) := by
  rw [addPlain, Keyed.lookup_put]
  by_cases hother : other = name
  · rw [if_pos hother, if_pos hother.symm, Option.some_or]
  · rw [if_neg hother, if_neg (Ne.symm hother), Option.none_or]

theorem texts_add :
    (g.add f).userId = (f.textOf? "user_id").or g.userId ∧
      (g.add f).conversationId = (f.textOf? "conversation_id").or g.conversationId := by
  obtain ⟨name, value⟩ := f
  cases value with
  | text s => exact g.texts_addText name s
  | shown s =>
    by_cases hname : name = "message"
    · subst hname
      exact g.texts_addText "message" s
    · simp only [add, if_neg hname]
      exact g.texts_addText name (Text.trimQuotes s)
  | signed n => simp [add, addPlain, Field.textOf?, FieldValue.text?]
  | unsigned n => simp [add, addPlain, Field.textOf?, FieldValue.text?]
  | flag b => simp [add, addPlain, Field.textOf?, FieldValue.text?]

theorem lookup_others_add (other : String) :
    (g.add f).others.lookup other = (f.storedOf? other).or (g.others.lookup other) := by
  obtain ⟨name, value⟩ := f
  have htext (s : String) : Field.storedOf? other ⟨name, .text s⟩ =
      if name = other ∧ other ∉ Field.meaningful then some (.string s) else none := by
    unfold Field.storedOf? Field.plainOf? Field.textOf? FieldValue.plain? FieldValue.text?
    split_ifs <;> simp_all
  have hplain {value : FieldValue} {j : Json} (h : value.plain? = some j)
      (hnone : value.text? = none) :
      Field.storedOf? other ⟨name, value⟩ = if name = other then some j else none := by
    simp [Field.storedOf?, Field.plainOf?, Field.textOf?, h, hnone]
  cases value with
  | text s => rw [htext, ← g.lookup_others_addText name s other, add]
  | shown s =>
    by_cases hname : name = "message"
    · subst hname
      have hstored : Field.storedOf? other ⟨"message", .shown s⟩ = none := by
        unfold Field.storedOf? Field.plainOf? Field.textOf? FieldValue.plain? Field.meaningful
        split_ifs <;> simp_all
      rw [hstored, Option.none_or]
      rfl
    · have hshown : Field.storedOf? other ⟨name, .shown s⟩ =
          Field.storedOf? other ⟨name, .text (Text.trimQuotes s)⟩ := rfl
      rw [hshown, htext, ← g.lookup_others_addText name _ other, add]
      simp only [if_neg hname]
  | signed n => rw [hplain rfl rfl, ← g.lookup_others_addPlain name _ other, add]
  | unsigned n => rw [hplain rfl rfl, ← g.lookup_others_addPlain name _ other, add]
  | flag b => rw [hplain rfl rfl, ← g.lookup_others_addPlain name _ other, add]

theorem ascends_others_add (h : Keyed.Ascends g.others) : Keyed.Ascends (g.add f).others := by
  have htext (name s : String) : Keyed.Ascends (g.addText name s).others := by
    unfold addText
    split_ifs
    · exact h
    · exact h
    · exact h
    · exact h.put name _
  unfold add
  split
  · exact htext _ _
  · exact htext _ _
  · exact h.put _ _
  · exact h.put _ _
  · exact h.put _ _

/-- **What fields taken together are**, read off their last ones. -/
theorem ofFields_eq_lastOf :
    (ofFields fields).userId = lastOf (Field.textOf? "user_id") fields ∧
      (ofFields fields).conversationId = lastOf (Field.textOf? "conversation_id") fields ∧
      (∀ name, (ofFields fields).others.lookup name = lastOf (Field.storedOf? name) fields) ∧
      Keyed.Ascends (ofFields fields).others := by
  induction fields using List.reverseRecOn with
  | nil => exact ⟨rfl, rfl, fun _ => rfl, List.Pairwise.nil⟩
  | append_singleton fields f ih =>
    obtain ⟨huser, hconversation, hothers, hascends⟩ := ih
    simp only [ofFields_concat, lastOf_concat]
    refine ⟨?_, ?_, fun name => ?_, ascends_others_add _ f hascends⟩
    · rw [(texts_add _ f).1, huser]
    · rw [(texts_add _ f).2, hconversation]
    · rw [lookup_others_add, hothers]

end Gathered

/-! ### From the event outwards -/

theorem firstOf_eq (own : Option String) (spans : List (Option String)) :
    firstOf own spans = own.or (spans.findSome? id) := by
  induction spans generalizing own with
  | nil => exact (Option.or_none).symm
  | cons next spans ih =>
    rw [firstOf, List.foldl_cons, ← firstOf, ih, List.findSome?_cons]
    cases own <;> cases next <;> rfl

/-- **The inherited text is the first one from the event outwards.** -/
theorem inherits_iff {name : String} {own : List Field} {spans : List Span} {r : Option String} :
    Inherits name own spans r ↔ firstOf (lastOf (Field.textOf? name) own)
      (spans.map fun s => lastOf (Field.textOf? name) s.fields) = r := by
  rw [firstOf_eq, List.findSome?_map, Function.id_comp]
  constructor
  · intro h
    cases h with
    | own h => rw [lastOf_eq_some_iff.2 h, Option.some_or]
    | inherited hown hspans hinner h =>
      rw [lastOf_eq_none_iff.2 hown, Option.none_or, List.findSome?_eq_some_iff]
      exact ⟨_, _, _, hspans, lastOf_eq_some_iff.2 h,
        fun i hi => lastOf_eq_none_iff.2 (hinner i hi)⟩
    | none hown hspans =>
      rw [lastOf_eq_none_iff.2 hown, Option.none_or, List.findSome?_eq_none_iff]
      exact fun span hspan => lastOf_eq_none_iff.2 (hspans span hspan)
  · rintro rfl
    cases hown : lastOf (Field.textOf? name) own with
    | some s => exact .own (lastOf_eq_some_iff.1 hown)
    | none =>
      rw [lastOf_eq_none_iff] at hown
      rw [Option.none_or]
      cases hspans : spans.findSome? fun s => lastOf (Field.textOf? name) s.fields with
      | some s =>
        obtain ⟨inner, span, outer, hsplit, hspan, hinner⟩ := List.findSome?_eq_some_iff.1 hspans
        exact .inherited hown hsplit (fun i hi => lastOf_eq_none_iff.1 (hinner i hi))
          (lastOf_eq_some_iff.1 hspan)
      | none =>
        rw [List.findSome?_eq_none_iff] at hspans
        exact .none hown fun span hspan => lastOf_eq_none_iff.1 (hspans span hspan)

namespace Event

variable (e : Event)

theorem inherits_userId_iff {u : Option String} :
    Inherits "user_id" e.fields e.spans u ↔ e.userId = u := by
  simp only [inherits_iff, userId, (Gathered.ofFields_eq_lastOf _).1]

theorem inherits_conversationId_iff {c : Option String} :
    Inherits "conversation_id" e.fields e.spans c ↔ e.conversationId = c := by
  simp only [inherits_iff, conversationId, (Gathered.ofFields_eq_lastOf _).2.1]

end Event

/-! ### The record of an event -/

theorem Level.isKept_iff {l : Level} : l.isKept = true ↔ l = .warn ∨ l = .error := by
  cases l <;> decide

/-- **Ids are inherited from the innermost span, each on its own.** Whatever was kept before, an
event below a warning is not kept, and a warning or an error is kept as one record with the next
number. Its user and its conversation are inherited, independently of each other. Its stored fields
are those of the event: under each name the last that was recorded there as a plain value, or as a
text that names neither user nor conversation nor is the message. -/
theorem ids_inherited (earlier : List (String × Event)) (t : String) (e : Event) :
    (e.level ≠ .warn → e.level ≠ .error →
      (Sink.ofLog earlier).keep t e = Sink.ofLog earlier) ∧
    (e.level = .warn ∨ e.level = .error → ∃ r : Record,
      ((Sink.ofLog earlier).keep t e).records = (Sink.ofLog earlier).records ++ [r] ∧
      (Sink.ofLog earlier).records.map (·.id) = List.range' 1 (Sink.ofLog earlier).count ∧
      r.id = (Sink.ofLog earlier).count + 1 ∧
      (∀ u, Inherits "user_id" e.fields e.spans u ↔ r.userId = u) ∧
      (∀ c, Inherits "conversation_id" e.fields e.spans c ↔ r.conversationId = c) ∧
      ∃ stored : List (String × Json),
        r.fields = (if stored.isEmpty then none else some (Json.object stored).compact) ∧
        Keyed.Ascends stored ∧
        (∀ name j, stored.lookup name = some j ↔ HasLast (Field.storedOf? name) e.fields j) ∧
        ∀ name ∈ ["user_id", "conversation_id"], ∀ j,
          stored.lookup name = some j ↔ HasLast (Field.plainOf? name) e.fields j) := by
  constructor
  · intro hwarn herror
    have hlow : ¬ e.level.isKept = true := fun h => (Level.isKept_iff.1 h).elim hwarn herror
    exact Sink.keep_of_not_isKept (Bool.eq_false_iff.2 hlow)
  · intro hlevel
    obtain ⟨-, -, hothers, hascends⟩ := Gathered.ofFields_eq_lastOf e.fields
    have hstored (name : String) (j : Json) :
        (Gathered.ofFields e.fields).others.lookup name = some j ↔
          HasLast (Field.storedOf? name) e.fields j := by
      rw [hothers, lastOf_eq_some_iff]
    refine ⟨_, Sink.records_keep (Level.isKept_iff.2 hlevel), Sink.numbered_ofLog earlier, rfl,
      fun _ => e.inherits_userId_iff, fun _ => e.inherits_conversationId_iff,
      (Gathered.ofFields e.fields).others, rfl, hascends, hstored, fun name hname j => ?_⟩
    rw [hstored, Field.storedOf?_of_meaningful (List.mem_cons_of_mem _ hname)]

/-- A warning with a number for a user, in a span that names the conversation, in one that names
the user, in one that names both. -/
def nestedWarning : Event where
  level := .warn
  target := "calls"
  fields := [⟨"user_id", .signed 7⟩]
  spans :=
    [⟨3, "calls", .info, [⟨"user_id", .flag true⟩, ⟨"conversation_id", .text "room"⟩]⟩,
      ⟨2, "calls", .info, [⟨"user_id", .quoted "me"⟩]⟩,
      ⟨1, "calls", .info, [⟨"user_id", .text "you"⟩, ⟨"conversation_id", .text "hall"⟩]⟩]

theorem ids_inherited_nestedWarning :
    (Sink.ofLog []).keep "" { nestedWarning with level := .info } = Sink.ofLog [] ∧
    ∃ r : Record, ((Sink.ofLog [("", nestedWarning)]).keep "" nestedWarning).records =
        (Sink.ofLog [("", nestedWarning)]).records ++ [r] ∧
      r.id = 2 ∧ r.userId = some "me" ∧ r.conversationId = some "room" ∧
      ∃ stored, r.fields = some (Json.object stored).compact ∧
        stored.lookup "user_id" = some (.int 7) := by
  have hplain (name : String) : Lacks (Field.textOf? name) nestedWarning.fields := by
    simp [Lacks, nestedWarning, Field.textOf?, FieldValue.text?]
  have huser : Inherits "user_id" nestedWarning.fields nestedWarning.spans (some "me") := by
    refine .inherited (hplain _) (show nestedWarning.spans = [_] ++ _ :: _ from rfl) ?_
      ⟨[], _, [], rfl, by decide, by simp⟩
    simp [Lacks, Field.textOf?, FieldValue.text?]
  have hconversation :
      Inherits "conversation_id" nestedWarning.fields nestedWarning.spans (some "room") :=
    .inherited (hplain _) (show nestedWarning.spans = [] ++ _ :: _ from rfl) (by simp)
      ⟨[_], _, [], rfl, rfl, by simp⟩
  have hnumber : HasLast (Field.plainOf? "user_id") nestedWarning.fields (.int 7) :=
    ⟨[], _, [], rfl, rfl, by simp⟩
  refine ⟨(ids_inherited [] "" { nestedWarning with level := .info }).1 (by decide) (by decide), ?_⟩
  obtain ⟨r, hrecords, -, hid, hu, hc, stored, hfields, -, -, hplains⟩ :=
    (ids_inherited [("", nestedWarning)] "" nestedWarning).2 (.inl rfl)
  have hlookup := (hplains "user_id" (.head _) (.int 7)).2 hnumber
  have hsome : stored.isEmpty = false := by
    cases stored with
    | nil => cases hlookup
    | cons => rfl
  rw [hsome] at hfields
  exact ⟨r, hrecords, hid, (hu _).1 huser, (hc _).1 hconversation, stored, hfields, hlookup⟩

end CallWatch.Log
