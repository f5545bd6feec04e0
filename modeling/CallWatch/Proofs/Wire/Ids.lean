import CallWatch.Decision
import CallWatch.Proofs.Identifier
import CallWatch.Session

/-! # The identifiers within a value

What is asked of every identifier that a value holds, and the same value with other identifiers. -/

namespace CallWatch

/-- What is asked of an identifier, whatever it names. -/
abbrev IdProperty := ∀ kind : IdentifierKind, Identifier kind → Prop

/-- Another identifier in place of each. -/
abbrev IdChange := ∀ kind : IdentifierKind, Identifier kind → Identifier kind

/-- The change that leaves an identifier as it is. -/
def IdChange.Keeps (f : IdChange) : IdProperty := fun kind id => f kind id = id

namespace Call

/-- Every identifier of the call has the property. -/
def EachId (P : IdProperty) (c : Call) : Prop := P _ c.conversationId ∧ P _ c.callerId

/-- The call with its identifiers changed. -/
def mapIds (f : IdChange) (c : Call) : Call :=
  { c with conversationId := f _ c.conversationId, callerId := f _ c.callerId }

theorem mapIds_eq_iff {f : IdChange} {c : Call} : c.mapIds f = c ↔ c.EachId f.Keeps := by
  obtain ⟨⟩ := c
  simp [mapIds, EachId, IdChange.Keeps]

theorem eachId_and {P Q : IdProperty} {c : Call} :
    c.EachId (fun kind id => P kind id ∧ Q kind id) ↔ c.EachId P ∧ c.EachId Q := and_and_and_comm

end Call

namespace Notification

/-- Every identifier of the notification has the property. -/
def EachId (P : IdProperty) (n : Notification) : Prop := P _ n.userId ∧ n.call.EachId P

/-- The notification with its identifiers changed. -/
def mapIds (f : IdChange) (n : Notification) : Notification :=
  { n with userId := f _ n.userId, call := n.call.mapIds f }

theorem mapIds_eq_iff {f : IdChange} {n : Notification} :
    n.mapIds f = n ↔ n.EachId f.Keeps := by
  obtain ⟨⟩ := n
  simp [mapIds, EachId, IdChange.Keeps, Call.mapIds_eq_iff]

theorem eachId_and {P Q : IdProperty} {n : Notification} :
    n.EachId (fun kind id => P kind id ∧ Q kind id) ↔ n.EachId P ∧ n.EachId Q := by
  rw [EachId, Call.eachId_and, and_and_and_comm]
  rfl

end Notification

namespace StartAction

/-- Every identifier of the start has the property. -/
def EachId (P : IdProperty) : StartAction → Prop
  | .default => True
  | .answerCall userId conversationId => P _ userId ∧ P _ conversationId

/-- The start with its identifiers changed. -/
def mapIds (f : IdChange) : StartAction → StartAction
  | .default => .default
  | .answerCall userId conversationId => .answerCall (f _ userId) (f _ conversationId)

theorem mapIds_eq_iff {f : IdChange} {a : StartAction} : a.mapIds f = a ↔ a.EachId f.Keeps := by
  cases a <;> simp [mapIds, EachId, IdChange.Keeps]

theorem eachId_and {P Q : IdProperty} {a : StartAction} :
    a.EachId (fun kind id => P kind id ∧ Q kind id) ↔ a.EachId P ∧ a.EachId Q := by
  cases a with
  | default => simp [EachId]
  | answerCall => exact and_and_and_comm

end StartAction

namespace Action

/-- Every identifier of the action has the property. -/
def EachId (P : IdProperty) : Action → Prop
  | .start how => how.EachId P
  | .stop => True

/-- The action with its identifiers changed. -/
def mapIds (f : IdChange) : Action → Action
  | .start how => .start (how.mapIds f)
  | .stop => .stop

theorem mapIds_eq_iff {f : IdChange} {a : Action} : a.mapIds f = a ↔ a.EachId f.Keeps := by
  cases a <;> simp [mapIds, EachId, StartAction.mapIds_eq_iff]

theorem eachId_and {P Q : IdProperty} {a : Action} :
    a.EachId (fun kind id => P kind id ∧ Q kind id) ↔ a.EachId P ∧ a.EachId Q := by
  cases a <;> simp [EachId, StartAction.eachId_and]

end Action

namespace Decision

/-- Every identifier of the decision has the property. -/
def EachId (P : IdProperty) : Decision → Prop
  | .stop _ => True
  | .update data => data.EachId P

/-- The decision with its identifiers changed. -/
def mapIds (f : IdChange) : Decision → Decision
  | .stop reason => .stop reason
  | .update data => .update (data.mapIds f)

theorem mapIds_eq_iff {f : IdChange} {d : Decision} : d.mapIds f = d ↔ d.EachId f.Keeps := by
  cases d <;> simp [mapIds, EachId, Notification.mapIds_eq_iff]

theorem eachId_and {P Q : IdProperty} {d : Decision} :
    d.EachId (fun kind id => P kind id ∧ Q kind id) ↔ d.EachId P ∧ d.EachId Q := by
  cases d <;> simp [EachId, Notification.eachId_and]

end Decision

namespace Session

/-- The identifier of the session has the property. -/
def EachId (P : IdProperty) (s : Session) : Prop := P _ s.userId

/-- The session with its identifier changed. -/
def mapIds (f : IdChange) (s : Session) : Session := { s with userId := f _ s.userId }

theorem mapIds_eq_iff {f : IdChange} {s : Session} : s.mapIds f = s ↔ s.EachId f.Keeps := by
  obtain ⟨⟩ := s
  simp [mapIds, EachId, IdChange.Keeps]

theorem eachId_and {P Q : IdProperty} {s : Session} :
    s.EachId (fun kind id => P kind id ∧ Q kind id) ↔ s.EachId P ∧ s.EachId Q := Iff.rfl

end Session

namespace SelfUser

/-- The identifier of the account has the property. -/
def EachId (P : IdProperty) (u : SelfUser) : Prop := P _ u.id

/-- The account with its identifier changed. -/
def mapIds (f : IdChange) (u : SelfUser) : SelfUser := { u with id := f _ u.id }

theorem mapIds_eq_iff {f : IdChange} {u : SelfUser} : u.mapIds f = u ↔ u.EachId f.Keeps := by
  obtain ⟨⟩ := u
  simp [mapIds, EachId, IdChange.Keeps]

theorem eachId_and {P Q : IdProperty} {u : SelfUser} :
    u.EachId (fun kind id => P kind id ∧ Q kind id) ↔ u.EachId P ∧ u.EachId Q := Iff.rfl

end SelfUser

end CallWatch
