import CallWatch.Log.Event
import CallWatch.Store.Conduct

/-! # Answering a call

A call is answered only if it is still listed among the incoming calls of an account with a valid
session, so a tap on a stale notification does nothing. An attempt runs beside everything else. A
bound one is given up as soon as it is cancelled; any other runs to its end whatever happens. -/

namespace CallWatch

/-- What an attempt comes to. -/
inductive AnswerOutcome where
  | answered
  | noValidSession
  | callNotFound
  | failed (error : CallError)
  | aborted
  deriving DecidableEq, Repr

/-- How far an attempt has got. -/
inductive AnswerStage where
  | spawned
  | validity (wait : Wait)
  | scope (wait : Wait)
  | incoming (scope : Scope) (feed : ListFeed)
  | request (scope : Scope) (wait : Wait)
  | effect (scope : Scope) (wait : Wait)
  | done (outcome : AnswerOutcome)

/-- An attempt to answer a call. -/
structure Answering where
  number : Nat
  userId : UserId
  conversationId : ConversationId
  /-- Whether cancelling gives it up. -/
  bound : Bool
  /-- The pipeline that was started with it. -/
  generation : Option Nat
  cancelled : Bool
  stage : AnswerStage

/-- The message that answering failed. -/
def answeringFailed : String := "answering call failed"

namespace Answering

/-- A new attempt. -/
def new (number : Nat) (userId : UserId) (conversationId : ConversationId) (bound : Bool)
    (generation : Option Nat) : Answering :=
  ⟨number, userId, conversationId, bound, generation, false, .spawned⟩

/-- What the attempt came to. -/
def outcome? (a : Answering) : Option AnswerOutcome :=
  match a.stage with
  | .done outcome => some outcome
  | _ => none

/-- The account that the attempt holds. -/
def holds? (a : Answering) : Option AccountRef :=
  match a.stage with
  | .incoming scope _ => some scope.account
  | .request scope _ => some scope.account
  | .effect scope _ => some scope.account
  | _ => none

/-- The attempt is given up. -/
def isAborted (a : Answering) : Bool := a.bound && a.cancelled

/-- What the attempt waits for. -/
def wait? (a : Answering) : Option Wait :=
  match a.stage with
  | .validity w => some w
  | .scope w => some w
  | .request _ w => some w
  | .effect _ w => some w
  | _ => none

/-- Whether the attempt can go on. -/
def isReady (s : Surroundings) (held : AccountRef → Bool) (a : Answering) : Bool :=
  match a.stage with
  | .done _ => false
  | .spawned => true
  | .incoming _ feed => a.isAborted || (feed.inbox (s.store.lists held)).stirs
  | _ => a.isAborted || (a.wait?.any (·.isOver s.now))

/-- The span of an attempt, with the ids that it is about. -/
def span (a : Answering) : Log.Span where
  number := 2 * a.number + 1
  target := "callkeep_engine::answer"
  level := .info
  fields :=
    [⟨"user_id", .shown a.userId.display⟩, ⟨"conversation_id", .shown a.conversationId.display⟩]

/-- The warning that the attempt failed. -/
def failureWarning (a : Answering) (e : CallError) : Log.Event where
  level := .warn
  target := "callkeep_engine::answer"
  fields :=
    [⟨"message", .shown answeringFailed⟩, ⟨"error", .shown e.message⟩, ⟨"kind", .text e.kind⟩]
  spans := [a.span]

/-- The attempt at another stage. -/
def inStage (a : Answering) (stage : AnswerStage) : Answering := { a with stage }

/-- The attempt failed. -/
def fail (a : Answering) (e : CallError) : Answering × List Log.Event :=
  (a.inStage (.done (.failed e)), [a.failureWarning e])

/-- A question is asked for a user; the attempt goes on at the stage that waits for the answer. -/
def ask (s : Surroundings) (a : Answering) (q : Question) (stage : Wait → AnswerStage) :
    Answering × List Log.Event :=
  match s.ask a.userId q with
  | .ok wait => (a.inStage (stage wait), [])
  | .error e => a.fail e

/-- Whether the incoming calls were told and hold one of the conversation. -/
def lists (a : Answering) (calls : List Call) : Bool :=
  calls.any (·.conversationId == a.conversationId)

/-- The attempt goes on, unless it was given up. -/
def step (s : Surroundings) (held : AccountRef → Bool) (a : Answering) :
    Store × Answering × List Log.Event :=
  if a.isAborted then (s.store, a.inStage (.done .aborted), [])
  else
    match a.stage with
    | .spawned => (s.store, a.ask s .hasValidSession .validity)
    | .validity _ =>
      if s.store.hasValidSession a.userId then (s.store, a.ask s .userScope .scope)
      else (s.store, a.inStage (.done .noValidSession), [])
    | .scope _ =>
      match s.scope a.userId with
      | .ok scope => (s.store, a.inStage (.incoming scope (scope.listFeed .incoming)), [])
      | .error e => (s.store, a.fail e)
    | .incoming scope feed =>
      match (feed.next (s.store.lists held)).1 with
      | .item (.error e) => (s.store, a.fail e)
      | .item (.ok calls) =>
        if a.lists calls then (s.store, a.ask s .answerCall (.request scope))
        else (s.store, a.inStage (.done .callNotFound), [])
      | .ended => (s.store, a.inStage (.done .callNotFound), [])
      | .pending => (s.store, a, [])
    | .request scope _ =>
      let delay := (s.store.account? scope.account).bind (·.answerDelay)
      (s.store, a.inStage (.effect scope (.till (s.now + delay.getD 0))), [])
    | .effect scope _ =>
      match s.store.account? scope.account with
      | none => (s.store, a.inStage (.done .answered), [])
      | some account =>
        let (result, account) := account.answer a.conversationId
        let store := s.store.modify scope.account fun _ => account
        match result with
        | .error e => (store, a.fail e)
        | .ok () => (store, a.inStage (.done .answered), [])
    | .done _ => (s.store, a, [])

end Answering

end CallWatch
