import CallWatch.Identifier

/-! # Calls

A call as the store lists it, and what a notification shows of it. -/

namespace CallWatch

/-- How far a call has got. -/
inductive CallStatus where
  | started
  | incoming
  | missed
  | answered
  | established
  | stillOngoing
  | closing
  | closed
  | rejected
  | closedInternally
  deriving DecidableEq, Repr, Inhabited

namespace CallStatus

/-- Every status, in the order of a call's life. -/
def all : List CallStatus :=
  [.started, .incoming, .missed, .answered, .established, .stillOngoing, .closing, .closed,
    .rejected, .closedInternally]

/-- The written name of a status. -/
def name : CallStatus → String
  | .started => "started"
  | .incoming => "incoming"
  | .missed => "missed"
  | .answered => "answered"
  | .established => "established"
  | .stillOngoing => "still_ongoing"
  | .closing => "closing"
  | .closed => "closed"
  | .rejected => "rejected"
  | .closedInternally => "closed_internally"

theorem mem_all (s : CallStatus) : s ∈ all := by cases s <;> decide

end CallStatus

/-- The kind of conversation that a call belongs to. -/
inductive ConversationType where
  | oneOnOne
  | group
  | self
  | connectionPending
  deriving DecidableEq, Repr

instance : Inhabited ConversationType := ⟨.oneOnOne⟩

namespace ConversationType

/-- Every kind. -/
def all : List ConversationType := [.oneOnOne, .group, .self, .connectionPending]

/-- The written name of a kind. -/
def name : ConversationType → String
  | .oneOnOne => "one_on_one"
  | .group => "group"
  | .self => "self"
  | .connectionPending => "connection_pending"

theorem mem_all (t : ConversationType) : t ∈ all := by cases t <;> decide

end ConversationType

/-- A call of a conversation. -/
structure Call where
  conversationId : ConversationId
  status : CallStatus
  isMuted : Bool
  isCameraOn : Bool
  isCbrEnabled : Bool
  callerId : UserId
  conversationName : Option String
  conversationType : ConversationType
  callerName : Option String
  callerTeamName : Option String
  deriving DecidableEq, Repr, Inhabited

namespace Call

/-- A call that just began: muted, without camera, between two people. -/
def new (conversationId : ConversationId) (callerId : UserId) (status : CallStatus) : Call where
  conversationId
  status
  isMuted := true
  isCameraOn := false
  isCbrEnabled := false
  callerId
  conversationName := none
  conversationType := .oneOnOne
  callerName := none
  callerTeamName := none

/-- The same call with another status. -/
def withStatus (c : Call) (status : CallStatus) : Call := { c with status }

@[simp] theorem conversationId_withStatus (c : Call) (s : CallStatus) :
    (c.withStatus s).conversationId = c.conversationId := rfl

@[simp] theorem withStatus_withStatus (c : Call) (s t : CallStatus) :
    (c.withStatus s).withStatus t = c.withStatus t := rfl

end Call

/-- What a notification shows: a call, the account that it belongs to and that account's name. -/
structure Notification where
  userId : UserId
  call : Call
  displayName : String
  deriving DecidableEq, Repr, Inhabited

namespace Notification

/-- The conversation of the call. -/
def conversationId (n : Notification) : ConversationId := n.call.conversationId

/-- Whether the call was started from here. -/
def isOutgoing (n : Notification) : Bool := n.call.status == .started

end Notification

end CallWatch
