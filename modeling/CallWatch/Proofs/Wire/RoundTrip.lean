import CallWatch.Proofs.Json.Compact
import CallWatch.Proofs.Wire.Ids
import CallWatch.Wire.Decision
import CallWatch.Wire.Session

/-! # Values are read back from their written form

A value that is written and read again is the same but for its identifiers, and each of those is the
one that its display form names. So a value comes back as it was exactly if the separator misleads in
none of its identifiers. -/

namespace CallWatch

open Json Wire

/-- Each identifier gives way to the one that its display form names. -/
def IdChange.reread : IdChange := fun _ id => id.reread

/-- The separator misleads in no identifier. -/
def IdProperty.displayable : IdProperty := fun _ id => id.Displayable

theorem IdChange.keeps_reread : IdChange.Keeps .reread = .displayable := by
  funext kind id
  exact propext Identifier.reread_eq_iff

namespace Wire

/-- **A plain value is decoded from its compact text.** -/
theorem decodeText_compact {α : Type} {dec : Decoder α} {j : Json} {a : α} (hj : Plain j)
    (h : dec .whole j = some a) : decodeText dec j.compact = .ok a := by
  simp [decodeText, scan?_compact hj, h]

/-- Values of a type are read back from their written form but for their identifiers. -/
structure Transfers {α : Type} (toJson : α → Json) (dec : Decoder α) (EachId : IdProperty → α → Prop)
    (mapIds : IdChange → α → α) : Prop where
  plain : ∀ a, Plain (toJson a)
  decode_toJson : ∀ r a, dec r (toJson a) = some (mapIds .reread a)
  mapIds_eq_iff : ∀ {f a}, mapIds f a = a ↔ EachId f.Keeps a

namespace Transfers

variable {α : Type} {toJson : α → Json} {dec : Decoder α} {EachId : IdProperty → α → Prop}
  {mapIds : IdChange → α → α}

/-- A value comes back as it was exactly if the separator misleads in none of its identifiers. -/
theorem decodeText_eq_iff (h : Transfers toJson dec EachId mapIds) {a : α} :
    decodeText dec (toJson a).compact = .ok a ↔ EachId .displayable a := by
  rw [decodeText_compact (h.plain a) (h.decode_toJson .whole a), Except.ok.injEq, h.mapIds_eq_iff,
    IdChange.keeps_reread]

end Transfers

/-- A name of a choice is decoded if no two of the values share one. -/
theorem choice_name {α : Type} {all : List α} {name : α → String} (r : Reading)
    (hall : ∀ a, a ∈ all) (hname : ∀ a ∈ all, ∀ b ∈ all, name b = name a → b = a) (a : α) :
    choice all name r (.string (name a)) = some a :=
  choice_string (hall a) (hname a (hall a))

@[simp] theorem nullable_text_ofText? (r : Reading) (t : Option String) :
    nullable text r (ofText? t) = some t := by
  cases t <;> rfl

theorem hasRepeatedKey_eq_false {members : List (String × Json)} (h : (members.map (·.1)).Nodup) :
    Record.hasRepeatedKey members = false := by
  induction members with
  | nil => rfl
  | cons m rest ih =>
    simp only [List.map_cons, List.nodup_cons, List.mem_map, not_exists, not_and] at h
    simp only [Record.hasRepeatedKey, ih h.2, Bool.or_false, List.any_eq_false, beq_iff_eq]
    exact fun x hx => h.1 x hx

/-- A record that gives every field once is read as it stands. -/
theorem ofJson?_object {names : List String} {members : List (String × Json)}
    (hnames : members.map (·.1) = names) (hnodup : names.Nodup) :
    Record.ofJson? names (.object members) = some ⟨true, members⟩ := by
  have hknown : members.filter (fun m => names.contains m.1) = members :=
    List.filter_eq_self.mpr fun m hm => by
      rw [List.contains_iff_mem, ← hnames]
      exact List.mem_map_of_mem hm
  simp only [Record.ofJson?, hknown, hasRepeatedKey_eq_false (hnames ▸ hnodup), Bool.false_eq_true,
    if_false]

/-- A tag in front of other members is read with those beside it. -/
theorem tagged_object {key tag : String} {names : List String} {rest : List (String × Json)} {i : Nat}
    (r : Reading) (hkey : ∀ m ∈ rest, m.1 ≠ key) (hrest : ∀ m ∈ rest, ∃ s, m.2 = .string s)
    (hi : names.idxOf? tag = some i) :
    tagged key names r (.object ((key, .string tag) :: rest)) = some (i, .object rest) := by
  have hothers : rest.filter (·.1 == key) = [] := by simpa using hkey
  have hbeside : rest.filter (·.1 != key) = rest := by simpa using hkey
  have hreadable (room : Nat) : Json.membersReadable room rest = true := by
    clear hkey hothers hbeside
    induction rest with
    | nil => simp [Json.membersReadable]
    | cons m rest ih =>
      rw [List.forall_mem_cons] at hrest
      obtain ⟨s, hs⟩ := hrest.1
      simp [Json.membersReadable, hs, Json.readable, ih hrest.2]
  simp [tagged, hothers, hbeside, hreadable, tagIndex?, hi]

end Wire

@[simp] theorem Identifier.decode_toJson {kind : IdentifierKind} (r : Reading)
    (id : Identifier kind) : Identifier.decode r id.toJson = some id.reread := rfl

@[simp] theorem Identifier.plain_toJson {kind : IdentifierKind} (id : Identifier kind) :
    Plain id.toJson := .string _

@[simp] theorem CallStatus.decode_toJson (r : Reading) (s : CallStatus) :
    CallStatus.decode r s.toJson = some s := choice_name r mem_all (by decide) s

@[simp] theorem ConversationType.decode_toJson (r : Reading) (t : ConversationType) :
    ConversationType.decode r t.toJson = some t := choice_name r mem_all (by decide) t

@[simp] theorem StopReason.decode_toJson (r : Reading) (s : StopReason) :
    StopReason.decode r s.toJson = some s := choice_name r mem_all (by decide) s

@[simp] theorem LogoutReason.decode_toJson (r : Reading) (s : LogoutReason) :
    LogoutReason.decode r s.toJson = some s := choice_name r mem_all (by decide) s

theorem Call.transfers : Transfers Call.toJson Call.decode Call.EachId Call.mapIds where
  plain c := by simp [Call.toJson, CallStatus.toJson, ConversationType.toJson]
  decode_toJson r c := by
    have hrecord : Record.ofJson? Call.fieldNames c.toJson = some ⟨true, _⟩ :=
      ofJson?_object rfl (by decide)
    -- Field by field from the outside, as the fields behind one are not to be looked at twice.
    simp only [Call.decode, ↓Option.bind_eq_bind, ↓Option.bind_eq_some_iff, hrecord,
      Option.some.injEq, exists_eq_left', Record.required, Record.withDefault, Record.optional]
    simp [List.lookup_cons, flag, Call.mapIds, IdChange.reread]
  mapIds_eq_iff := Call.mapIds_eq_iff

theorem Notification.transfers :
    Transfers Notification.toJson Notification.decode Notification.EachId Notification.mapIds where
  plain n := by simp [Notification.toJson, Call.transfers.plain]
  decode_toJson r n := by
    have hrecord : Record.ofJson? Notification.fieldNames n.toJson = some ⟨true, _⟩ :=
      ofJson?_object rfl (by decide)
    simp only [Notification.decode, ↓Option.bind_eq_bind, ↓Option.bind_eq_some_iff, hrecord,
      Option.some.injEq, exists_eq_left', Record.required]
    simp [List.lookup_cons, text, Call.transfers.decode_toJson, Notification.mapIds, IdChange.reread]
  mapIds_eq_iff := Notification.mapIds_eq_iff

theorem StartAction.transfers :
    Transfers StartAction.toJson StartAction.decode StartAction.EachId StartAction.mapIds where
  plain a := by cases a <;> simp [StartAction.toJson, StartAction.members]
  decode_toJson r a := by
    cases a with
    | default =>
      rw [StartAction.decode, StartAction.toJson, StartAction.members,
        tagged_object r (by simp) (by simp) rfl]
      rfl
    | answerCall userId conversationId =>
      rw [StartAction.decode, StartAction.toJson, StartAction.members,
        tagged_object r (by simp) (by simp [Identifier.toJson]) rfl, Option.bind_eq_bind,
        Option.bind_some]
      simp [ofJson?_object, Record.required, List.lookup_cons, StartAction.mapIds, IdChange.reread]
  mapIds_eq_iff := StartAction.mapIds_eq_iff

/-- The members of a start are texts, and none of them is taken for the tag of an action. -/
theorem StartAction.members_texts (a : StartAction) :
    ∀ m ∈ a.members, m.1 ≠ "type" ∧ ∃ s, m.2 = .string s := by
  cases a <;> simp [StartAction.members, Identifier.toJson]

theorem Action.transfers :
    Transfers Action.toJson Action.decode Action.EachId Action.mapIds where
  plain a := by
    cases a with
    | start how =>
      refine .object (List.forall_mem_cons.mpr ⟨.string _, fun m hm => ?_⟩)
      obtain ⟨-, s, hs⟩ := how.members_texts m hm
      exact hs ▸ .string s
    | stop => simp [Action.toJson]
  decode_toJson r a := by
    cases a with
    | start how =>
      have hstart : StartAction.decode r.hold (.object how.members) = _ :=
        StartAction.transfers.decode_toJson r.hold how
      have htexts := how.members_texts
      rw [Action.decode, Action.toJson, tagged_object r (fun m hm => (htexts m hm).1)
        (fun m hm => (htexts m hm).2) rfl, Option.bind_eq_bind, Option.bind_some]
      simp [hstart, Action.mapIds]
    | stop =>
      rw [Action.decode, Action.toJson, tagged_object r (by simp) (by simp) rfl]
      rfl
  mapIds_eq_iff := Action.mapIds_eq_iff

theorem Decision.transfers :
    Transfers Decision.toJson Decision.decode Decision.EachId Decision.mapIds where
  plain d := by
    cases d <;> simp [Decision.toJson, StopReason.toJson, Notification.transfers.plain]
  decode_toJson r d := by
    have htag (tag : String) (htag : tag ∈ Decision.tags) :
        choice Decision.tags id r.inside (.string tag) = some tag :=
      choice_string htag fun _ _ h => h
    cases d with
    | stop reason =>
      simp [Decision.decode, Decision.toJson, Decision.decodeParts, htag "stop" (by decide),
        Decision.mapIds]
    | update data =>
      simp [Decision.decode, Decision.toJson, Decision.decodeParts, htag "update" (by decide),
        Notification.transfers.decode_toJson, Decision.mapIds]
  mapIds_eq_iff := Decision.mapIds_eq_iff

theorem SessionStatus.plain_toJson (s : SessionStatus) : Plain s.toJson := by
  cases s <;> simp [SessionStatus.toJson, LogoutReason.toJson]

theorem SessionStatus.decode_toJson (r : Reading) (s : SessionStatus) :
    SessionStatus.decode r s.toJson = some s := by
  cases s with
  | valid =>
    rw [SessionStatus.decode, SessionStatus.toJson, tagged_object r (by simp) (by simp) rfl]
    rfl
  | invalid reason =>
    rw [SessionStatus.decode, SessionStatus.toJson,
      tagged_object r (by simp) (by simp [LogoutReason.toJson]) rfl, Option.bind_eq_bind,
      Option.bind_some]
    simp [ofJson?_object, Record.required]

theorem Session.transfers :
    Transfers Session.toJson Session.decode Session.EachId Session.mapIds where
  plain s := by simp [Session.toJson, SessionStatus.plain_toJson]
  decode_toJson r s := by
    have hrecord : Record.ofJson? ["user_id", "status"] s.toJson = some ⟨true, _⟩ :=
      ofJson?_object rfl (by decide)
    simp only [Session.decode, ↓Option.bind_eq_bind, ↓Option.bind_eq_some_iff, hrecord,
      Option.some.injEq, exists_eq_left', Record.required]
    simp [List.lookup_cons, SessionStatus.decode_toJson, Session.mapIds, IdChange.reread]
  mapIds_eq_iff := Session.mapIds_eq_iff

theorem SelfUser.transfers :
    Transfers SelfUser.toJson SelfUser.decode SelfUser.EachId SelfUser.mapIds where
  plain u := by simp [SelfUser.toJson]
  decode_toJson r u := by
    have hrecord : Record.ofJson? ["id", "name", "handle"] u.toJson = some ⟨true, _⟩ :=
      ofJson?_object rfl (by decide)
    simp only [SelfUser.decode, ↓Option.bind_eq_bind, ↓Option.bind_eq_some_iff, hrecord,
      Option.some.injEq, exists_eq_left', Record.required, Record.optional]
    simp [List.lookup_cons, SelfUser.mapIds, IdChange.reread]
  mapIds_eq_iff := SelfUser.mapIds_eq_iff

theorem Ticket.decodeText_toJson {t : Ticket} (ht : t.number ≤ Text.maxWord64) :
    decodeText Ticket.decode t.toJson.compact = .ok t := by
  have hbound : t.number < Nat.pow 10 20 := Nat.lt_of_le_of_lt ht (by decide)
  have hsmall : Plain t.toJson := .int (isSmall_of_lt (by decide) hbound)
  refine decodeText_compact hsmall ?_
  simp [Ticket.decode, Ticket.toJson, Json.nat, word64, ht]

namespace Wire

/-- **What is written is read back.** A value of any of these types is decoded from the text that it
is written as, if the separator misleads in none of its identifiers. -/
theorem round_trip :
    (∀ a : Action, a.EachId .displayable → decodeText Action.decode a.toJson.compact = .ok a) ∧
    (∀ a : StartAction, a.EachId .displayable →
      decodeText StartAction.decode a.toJson.compact = .ok a) ∧
    (∀ d : Decision, d.EachId .displayable →
      decodeText Decision.decode d.toJson.compact = .ok d) ∧
    (∀ n : Notification, n.EachId .displayable →
      decodeText Notification.decode n.toJson.compact = .ok n) ∧
    (∀ c : Call, c.EachId .displayable → decodeText Call.decode c.toJson.compact = .ok c) ∧
    (∀ s : Session, s.EachId .displayable → decodeText Session.decode s.toJson.compact = .ok s) ∧
    (∀ s : SessionStatus, decodeText SessionStatus.decode s.toJson.compact = .ok s) ∧
    (∀ u : SelfUser, u.EachId .displayable →
      decodeText SelfUser.decode u.toJson.compact = .ok u) ∧
    ∀ t : Ticket, t.number ≤ Text.maxWord64 →
      decodeText Ticket.decode t.toJson.compact = .ok t :=
  ⟨fun _ => Action.transfers.decodeText_eq_iff.mpr,
    fun _ => StartAction.transfers.decodeText_eq_iff.mpr,
    fun _ => Decision.transfers.decodeText_eq_iff.mpr,
    fun _ => Notification.transfers.decodeText_eq_iff.mpr,
    fun _ => Call.transfers.decodeText_eq_iff.mpr,
    fun _ => Session.transfers.decodeText_eq_iff.mpr,
    fun s => decodeText_compact s.plain_toJson (s.decode_toJson .whole),
    fun _ => SelfUser.transfers.decodeText_eq_iff.mpr,
    fun _ => Ticket.decodeText_toJson⟩

/-- A user with the separator in the value, and a conversation without a domain. -/
theorem round_trip_answer :
    let user : UserId := ⟨"first@last", "wire.com"⟩
    let conversation : ConversationId := ⟨"room", ""⟩
    let data : Notification := ⟨user, .new conversation user .incoming, "first \"last\""⟩
    decodeText Action.decode (Action.answer user conversation).toJson.compact =
        .ok (.answer user conversation) ∧
      decodeText StartAction.decode (StartAction.answerCall user conversation).toJson.compact =
        .ok (.answerCall user conversation) ∧
      decodeText Decision.decode (Decision.update data).toJson.compact = .ok (.update data) ∧
      decodeText Notification.decode data.toJson.compact = .ok data ∧
      decodeText Call.decode data.call.toJson.compact = .ok data.call ∧
      decodeText Session.decode (Session.valid user).toJson.compact = .ok (.valid user) ∧
      decodeText SelfUser.decode (⟨user, none, some "first"⟩ : SelfUser).toJson.compact =
        .ok ⟨user, none, some "first"⟩ ∧
      decodeText Ticket.decode (Ticket.mk Text.maxWord64).toJson.compact =
        .ok ⟨Text.maxWord64⟩ := by
  intro user conversation data
  have huser : user.Displayable := by decide
  have hconversation : conversation.Displayable := by decide
  obtain ⟨haction, hstart, hdecision, hnotification, hcall, hsession, -, hself, hticket⟩ := round_trip
  exact ⟨haction _ ⟨huser, hconversation⟩, hstart _ ⟨huser, hconversation⟩,
    hdecision _ ⟨huser, hconversation, huser⟩, hnotification _ ⟨huser, hconversation, huser⟩,
    hcall _ ⟨hconversation, huser⟩, hsession _ huser, hself _ huser, hticket _ (Nat.le_refl _)⟩

end Wire

end CallWatch
