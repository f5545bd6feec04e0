import CallWatch.Failure
import CallWatch.Session
import CallWatch.Stream.Live

/-! # Accounts

What the store knows of one account: what the account says of itself, whether its session holds, its
three lists of calls, and how it answers. Answering may move the answered calls from the incoming
ones to the established ones; they are shown there before they are gone here, so no observer finds
them in neither list. -/

namespace CallWatch

/-- A list of calls, or the failure to list them. -/
abbrev Listing := Except CallError (List Call)

/-- The lists of an account. -/
inductive ListName where
  | established
  | outgoing
  | incoming
  deriving DecidableEq, Repr

namespace ListName

/-- Every list, in the order in which their calls are shown. -/
def all : List ListName := [.established, .outgoing, .incoming]

/-- The written name of a list. -/
def name : ListName → String
  | .established => "established"
  | .outgoing => "outgoing"
  | .incoming => "incoming"

theorem mem_all (l : ListName) : l ∈ all := by cases l <;> decide

end ListName

/-- An account in the store. -/
structure Account where
  selfUser : SelfUser
  valid : Bool
  established : Live Listing
  outgoing : Live Listing
  incoming : Live Listing
  /-- Conversations that were answered, in order. -/
  answered : List ConversationId
  answerFailure : Option CallError
  /-- Milliseconds before answering takes effect. -/
  answerDelay : Option Nat
  /-- Whether answering moves the call to the established ones. -/
  answerEstablishes : Bool

namespace Account

/-- A new account with a valid session and no calls. -/
def new (selfUser : SelfUser) : Account where
  selfUser
  valid := true
  established := .start (.ok [])
  outgoing := .start (.ok [])
  incoming := .start (.ok [])
  answered := []
  answerFailure := none
  answerDelay := none
  answerEstablishes := false

/-- One of the lists. -/
def list (a : Account) : ListName → Live Listing
  | .established => a.established
  | .outgoing => a.outgoing
  | .incoming => a.incoming

/-- The account with another content of one of the lists. -/
def setList (a : Account) (name : ListName) (l : Listing) : Account :=
  match name with
  | .established => { a with established := a.established.set l }
  | .outgoing => { a with outgoing := a.outgoing.set l }
  | .incoming => { a with incoming := a.incoming.set l }

/-- The incoming calls of a conversation, as they look once answered. -/
def answeredCalls (a : Account) (c : ConversationId) : List Call :=
  match a.incoming.value with
  | .ok calls => (calls.filter (·.conversationId == c)).map (·.withStatus .answered)
  | .error _ => []

/-- The answered calls appear behind the established ones. -/
def showAnswered (a : Account) (c : ConversationId) : Account :=
  let before := match a.established.value with
    | .ok calls => calls
    | .error _ => []
  a.setList .established (.ok (before ++ a.answeredCalls c))

/-- The calls of the conversation are gone from the incoming ones. -/
def dropAnswered (a : Account) (c : ConversationId) : Account :=
  a.setList .incoming (a.incoming.value.map fun calls => calls.filter (·.conversationId != c))

/-- The calls of a conversation move from the incoming ones to the established ones, if there are
any. -/
def establish (a : Account) (c : ConversationId) : Account :=
  if (a.answeredCalls c).isEmpty then a else (a.showAnswered c).dropAnswered c

/-- Answering takes effect: it is noted, then fails if it is to fail, and otherwise moves the calls
if it is to move them. -/
def answer (a : Account) (c : ConversationId) : Except CallError Unit × Account :=
  let a := { a with answered := a.answered ++ [c] }
  match a.answerFailure with
  | some e => (.error e, a)
  | none => (.ok (), if a.answerEstablishes then a.establish c else a)

/-- How often a conversation was answered. -/
def answerCount (a : Account) (c : ConversationId) : Nat := (a.answered.filter (· == c)).length

@[simp] theorem list_setList (a : Account) (name : ListName) (l : Listing) :
    (a.setList name l).list name = (a.list name).set l := by cases name <;> rfl

theorem list_setList_of_ne (a : Account) {name other : ListName} (l : Listing) (h : other ≠ name) :
    (a.setList name l).list other = a.list other := by
  cases name <;> cases other <;> first | rfl | exact absurd rfl h

theorem answered_answer (a : Account) (c : ConversationId) :
    (a.answer c).2.answered = a.answered ++ [c] := by
  simp only [answer]
  split
  · rfl
  · split
    · simp only [establish]
      split <;> rfl
    · rfl

end Account

end CallWatch
