import CallWatch.Proofs.Wire.RoundTrip

/-! # Passing on what was received

Every identifier of a value that was received is named by some text, so its domain has no separator.
Its value may have one, and then an empty domain is lost on the way: written without the separator
that closed it, the value is split when it is read again. Nothing else of a value that was received
changes when it is passed on. -/

namespace CallWatch

open Json Wire

namespace Identifier

variable {kind : IdentifierKind}

/-- Some text names the identifier. -/
def Named (id : Identifier kind) : Prop := ∃ s, id = ofText s

/-- The value has no separator, or there is a domain behind it. -/
def Closed (id : Identifier kind) : Prop := id.domain = "" → '@' ∉ id.value.toList

instance (id : Identifier kind) : Decidable id.Closed := inferInstanceAs (Decidable (_ → _))

/-- The separator closes any value in front of its domain, also of an empty one. -/
theorem named_iff {id : Identifier kind} : id.Named ↔ '@' ∉ id.domain.toList := by
  constructor
  · rintro ⟨s, rfl⟩
    exact not_mem_domain_ofText s
  · intro h
    have hsplits : (id.value ++ "@" ++ id.domain).toList =
        id.value.toList ++ '@' :: id.domain.toList := by simp
    refine ⟨id.value ++ "@" ++ id.domain, ?_⟩
    rw [ofText_of_splits hsplits h]
    simp

theorem displayable_iff {id : Identifier kind} : id.Displayable ↔ id.Named ∧ id.Closed := by
  rw [named_iff]
  rfl

theorem named_of_decode {r : Reading} {j : Json} {id : Identifier kind}
    (h : Identifier.decode r j = some id) : id.Named := by
  obtain ⟨s, -, hs⟩ := Option.map_eq_some_iff.mp h
  exact ⟨s, hs.symm⟩

end Identifier

/-- Some text names the identifier. -/
def IdProperty.named : IdProperty := fun _ id => id.Named

/-- The value has no separator, or there is a domain behind it. -/
def IdProperty.closed : IdProperty := fun _ id => id.Closed

theorem IdProperty.displayable_eq : displayable = fun kind id => named kind id ∧ closed kind id := by
  funext kind id
  exact propext Identifier.displayable_iff

namespace Wire

theorem exists_of_required {α : Type} {record : Record} {name : String} {dec : Json → Option α} {a : α}
    (h : record.required name dec = some a) : ∃ j, dec j = some a := by
  obtain ⟨j, -, hj⟩ := Option.bind_eq_some_iff.mp h
  exact ⟨j, hj⟩

/-- Values of a type are received with identifiers that some text names. -/
structure Receives {α : Type} (dec : Decoder α) (EachId : IdProperty → α → Prop) : Prop where
  named : ∀ {r j a}, dec r j = some a → EachId .named a
  eachId_and : ∀ {P Q : IdProperty} {a},
    EachId (fun kind id => P kind id ∧ Q kind id) a ↔ EachId P a ∧ EachId Q a

namespace Receives

variable {α : Type} {toJson : α → Json} {dec : Decoder α} {EachId : IdProperty → α → Prop}
  {mapIds : IdChange → α → α}

/-- What was received stays the same when it is passed on, exactly if every value with a separator
has a domain behind it. -/
theorem stable_iff (h : Receives dec EachId) (ht : Transfers toJson dec EachId mapIds) {s : String}
    {a : α} (hs : decodeText dec s = .ok a) :
    EachId .named a ∧ (decodeText dec (toJson a).compact = .ok a ↔ EachId .closed a) := by
  have hnamed : EachId .named a := by
    unfold decodeText at hs
    split at hs
    · cases hs
    · split at hs
      · next hdec =>
        cases hs
        exact h.named hdec
      · cases hs
  refine ⟨hnamed, ?_⟩
  rw [ht.decodeText_eq_iff, IdProperty.displayable_eq, h.eachId_and]
  exact and_iff_right hnamed

end Receives

end Wire

theorem Call.receives : Receives Call.decode Call.EachId where
  named h := by
    simp only [Call.decode, Option.bind_eq_bind, Option.bind_eq_some_iff, Option.pure_def,
      Option.some.injEq] at h
    obtain ⟨record, -, conversationId, hconversation, _, -, _, -, _, -, _, -, callerId, hcaller, _, -,
      _, -, _, -, _, -, rfl⟩ := h
    obtain ⟨_, hconversation⟩ := exists_of_required hconversation
    obtain ⟨_, hcaller⟩ := exists_of_required hcaller
    exact ⟨Identifier.named_of_decode hconversation, Identifier.named_of_decode hcaller⟩
  eachId_and := Call.eachId_and

theorem Notification.receives : Receives Notification.decode Notification.EachId where
  named h := by
    simp only [Notification.decode, Option.bind_eq_bind, Option.bind_eq_some_iff, Option.pure_def,
      Option.some.injEq] at h
    obtain ⟨record, -, userId, huser, call, hcall, _, -, rfl⟩ := h
    obtain ⟨_, huser⟩ := exists_of_required huser
    obtain ⟨_, hcall⟩ := exists_of_required hcall
    exact ⟨Identifier.named_of_decode huser, Call.receives.named hcall⟩
  eachId_and := Notification.eachId_and

theorem StartAction.receives : Receives StartAction.decode StartAction.EachId where
  named h := by
    simp only [StartAction.decode, Option.bind_eq_bind, Option.bind_eq_some_iff] at h
    obtain ⟨⟨i, rest⟩, -, h⟩ := h
    split at h
    · split at h
      · cases h
        trivial
      · cases h
    · simp only [Option.bind_eq_some_iff, Option.pure_def, Option.some.injEq] at h
      obtain ⟨record, -, userId, huser, conversationId, hconversation, rfl⟩ := h
      obtain ⟨_, huser⟩ := exists_of_required huser
      obtain ⟨_, hconversation⟩ := exists_of_required hconversation
      exact ⟨Identifier.named_of_decode huser, Identifier.named_of_decode hconversation⟩
  eachId_and := StartAction.eachId_and

theorem Action.receives : Receives Action.decode Action.EachId where
  named h := by
    simp only [Action.decode, Option.bind_eq_bind, Option.bind_eq_some_iff] at h
    obtain ⟨⟨i, rest⟩, -, h⟩ := h
    split at h
    · obtain ⟨how, hhow, rfl⟩ := Option.map_eq_some_iff.mp h
      exact StartAction.receives.named hhow
    · split at h
      · cases h
        trivial
      · cases h
  eachId_and := Action.eachId_and

theorem Decision.named_of_decodeParts {tagReading dataReading : Reading} {tag data : Json}
    {d : Decision} (h : Decision.decodeParts tagReading dataReading tag data = some d) :
    d.EachId .named := by
  simp only [Decision.decodeParts, Option.bind_eq_bind, Option.bind_eq_some_iff] at h
  obtain ⟨name, -, h⟩ := h
  split at h
  · obtain ⟨reason, -, rfl⟩ := Option.map_eq_some_iff.mp h
    trivial
  · obtain ⟨data, hdata, rfl⟩ := Option.map_eq_some_iff.mp h
    exact Notification.receives.named hdata

theorem Decision.receives : Receives Decision.decode Decision.EachId where
  named h := by
    unfold Decision.decode at h
    split at h
    · exact Decision.named_of_decodeParts h
    · split at h
      · exact Decision.named_of_decodeParts h
      · split at h
        · exact Decision.named_of_decodeParts h
        · cases h
      · cases h
    · cases h
  eachId_and := Decision.eachId_and

theorem Session.receives : Receives Session.decode Session.EachId where
  named h := by
    simp only [Session.decode, Option.bind_eq_bind, Option.bind_eq_some_iff, Option.pure_def,
      Option.some.injEq] at h
    obtain ⟨record, -, userId, huser, _, -, rfl⟩ := h
    obtain ⟨_, huser⟩ := exists_of_required huser
    exact Identifier.named_of_decode huser
  eachId_and := Session.eachId_and

theorem SelfUser.receives : Receives SelfUser.decode SelfUser.EachId where
  named h := by
    simp only [SelfUser.decode, Option.bind_eq_bind, Option.bind_eq_some_iff, Option.pure_def,
      Option.some.injEq] at h
    obtain ⟨record, -, id, hid, _, -, _, -, rfl⟩ := h
    obtain ⟨_, hid⟩ := exists_of_required hid
    exact Identifier.named_of_decode hid
  eachId_and := SelfUser.eachId_and

namespace Wire

/-- **What was received stays the same when it is passed on**, unless a value with a separator stands
in an empty domain. Every identifier of it is named by some text, so nothing else can go wrong. -/
theorem received_stable (s : String) :
    (∀ a, decodeText Action.decode s = .ok a → a.EachId .named ∧
      (decodeText Action.decode a.toJson.compact = .ok a ↔ a.EachId .closed)) ∧
    (∀ d, decodeText Decision.decode s = .ok d → d.EachId .named ∧
      (decodeText Decision.decode d.toJson.compact = .ok d ↔ d.EachId .closed)) ∧
    (∀ n, decodeText Notification.decode s = .ok n → n.EachId .named ∧
      (decodeText Notification.decode n.toJson.compact = .ok n ↔ n.EachId .closed)) ∧
    (∀ c, decodeText Call.decode s = .ok c → c.EachId .named ∧
      (decodeText Call.decode c.toJson.compact = .ok c ↔ c.EachId .closed)) ∧
    (∀ v, decodeText Session.decode s = .ok v → v.EachId .named ∧
      (decodeText Session.decode v.toJson.compact = .ok v ↔ v.EachId .closed)) ∧
    ∀ u, decodeText SelfUser.decode s = .ok u → u.EachId .named ∧
      (decodeText SelfUser.decode u.toJson.compact = .ok u ↔ u.EachId .closed) :=
  ⟨fun _ => Action.receives.stable_iff Action.transfers,
    fun _ => Decision.receives.stable_iff Decision.transfers,
    fun _ => Notification.receives.stable_iff Notification.transfers,
    fun _ => Call.receives.stable_iff Call.transfers,
    fun _ => Session.receives.stable_iff Session.transfers,
    fun _ => SelfUser.receives.stable_iff SelfUser.transfers⟩

/-- The text of a start that answers a call for the user with this name. -/
def answerText (user : String) : String :=
  "\x7b\"type\":\"start\",\"kind\":\"answer_call\",\"user_id\":\"" ++ user ++
    "\",\"conversation_id\":\"c@d\"\x7d"

/-- What that text is the compact form of. -/
def answerJson (user : String) : Json :=
  .object [("type", .string "start"), ("kind", .string "answer_call"), ("user_id", .string user),
    ("conversation_id", .string "c@d")]

theorem plain_answerJson (user : String) : Plain (answerJson user) := by simp [answerJson]

theorem received_stable_answer :
    let s := answerText "a@b"
    let a := Action.answer ⟨"a", "b"⟩ ⟨"c", "d"⟩
    decodeText Action.decode s = .ok a ∧ decodeText Action.decode a.toJson.compact = .ok a := by
  intro s a
  have hs : decodeText Action.decode s = .ok a := by
    rw [show s = (answerJson "a@b").compact by decide]
    exact decodeText_compact (plain_answerJson _) (by decide)
  have huser : Identifier.Closed (⟨"a", "b"⟩ : UserId) := by decide
  have hconversation : Identifier.Closed (⟨"c", "d"⟩ : ConversationId) := by decide
  exact ⟨hs, ((received_stable s).1 a hs).2.mpr ⟨huser, hconversation⟩⟩

/-- A user whose value has a separator and whose domain is empty is another one when passed on. -/
theorem received_unstable :
    let s := answerText "a@b@"
    let a := Action.answer ⟨"a@b", ""⟩ ⟨"c", "d"⟩
    decodeText Action.decode s = .ok a ∧
      decodeText Action.decode a.toJson.compact = .ok (.answer ⟨"a", "b"⟩ ⟨"c", "d"⟩) ∧
      decodeText Action.decode a.toJson.compact ≠ .ok a := by
  intro s a
  have hs : decodeText Action.decode s = .ok a := by
    rw [show s = (answerJson "a@b@").compact by decide]
    exact decodeText_compact (plain_answerJson _) (by decide)
  have hagain : decodeText Action.decode a.toJson.compact = .ok (.answer ⟨"a", "b"⟩ ⟨"c", "d"⟩) :=
    decodeText_compact (Action.transfers.plain a) (by decide)
  refine ⟨hs, hagain, ?_⟩
  rw [hagain]
  simp [a, Action.answer]

end Wire

end CallWatch
