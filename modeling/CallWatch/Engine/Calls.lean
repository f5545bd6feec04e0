import CallWatch.Engine.Lookup
import CallWatch.Stream.Combine

/-! # The calls of a session

The candidates for the notification: the established and then the outgoing calls of the signed-in
account, and behind them the incoming call that is being answered, which may belong to another
account. Every call is shown under the account that it comes from. -/

namespace CallWatch

/-- The incoming call that is to be answered. -/
structure AnswerTarget where
  userId : UserId
  conversationId : ConversationId
  deriving DecidableEq, Repr

/-- A list of calls shown under an account, all of them or those of one conversation. -/
structure CallSource where
  userId : UserId
  displayName : String
  only : Option ConversationId
  feed : ListFeed
  ended : Bool
  latest : Option (List Notification)

namespace CallSource

/-- A list of an account that was looked up. -/
def ofList (r : Resolved) (name : ListName) (only : Option ConversationId) : CallSource :=
  ⟨r.userId, r.displayName, only, r.scope.listFeed name, false, none⟩

/-- One empty list and then the end. -/
def nothing (userId : UserId) : CallSource :=
  ⟨userId, "", none, .script [.ok []], false, none⟩

/-- The calls as they are shown. -/
def shown (s : CallSource) (calls : List Call) : List Notification :=
  (match s.only with
    | none => calls
    | some c => calls.filter (·.conversationId == c)).map fun call =>
      ⟨s.userId, call, s.displayName⟩

/-- The source with what a look can take from it. -/
def load (board : Board (AccountRef × ListName) Listing) (s : CallSource) : Source :=
  ⟨(s.feed.inbox board).map (·.map s.shown), s.ended, s.latest⟩

/-- The source after a look. -/
def store (board : Board (AccountRef × ListName) Listing) (s : CallSource) (after : Source) :
    CallSource :=
  { s with
    feed := if s.ended then s.feed else s.feed.leave board after.inbox.ready.length
    ended := after.ended
    latest := after.latest }

/-- One look at the combination of the sources. -/
def poll (board : Board (AccountRef × ListName) Listing) (sources : List CallSource) :
    Combined × List CallSource :=
  let (found, after) := Combined.poll (sources.map (·.load board))
  (found, List.zipWith (fun s a => s.store board a) sources after)

/-- Whether a look would find something. -/
def stirs (board : Board (AccountRef × ListName) Listing) (sources : List CallSource) : Bool :=
  Combined.stirs (sources.map (·.load board))

/-- The established and the outgoing calls of the signed-in account. -/
def ofSession (r : Resolved) : List CallSource :=
  [ofList r .established none, ofList r .outgoing none]

/-- The incoming calls of the target's conversation, if its account was found. -/
def ofTarget (target : AnswerTarget) : Option Resolved → CallSource
  | some owner => ofList owner .incoming (some target.conversationId)
  | none => nothing target.userId

end CallSource

/-! ### Setting the combination up -/

/-- The combination on its way: the target's account is being looked up. -/
structure Gathering where
  session : Resolved
  target : AnswerTarget
  lookup : Lookup

namespace Gathering

/-- The combination for a session, once the target's account is known. -/
def finish (session : Resolved) (target : AnswerTarget) (spans : List Log.Span)
    (result : LookupResult) :
    Step Gathering (Except CallError (List CallSource)) × List Log.Event :=
  (.done (result.map fun owner =>
      CallSource.ofSession session ++ [CallSource.ofTarget target owner]),
    Lookup.warnings spans result)

/-- The combination for a session and an answer target, if there is one. -/
def start (s : Surroundings) (session : Resolved) (target : Option AnswerTarget) :
    Step Gathering (Except CallError (List CallSource)) :=
  match target with
  | none => .done (.ok (CallSource.ofSession session ++ [CallSource.nothing session.userId]))
  | some target =>
    match Lookup.ofUser s target.userId with
    | .on lookup => .on ⟨session, target, lookup⟩
    | .done result => (finish session target [] result).1

/-- The answer that the lookup waited for is there. -/
def step (s : Surroundings) (spans : List Log.Span) (g : Gathering) :
    Step Gathering (Except CallError (List CallSource)) × List Log.Event :=
  match g.lookup.step s with
  | .on lookup => (.on { g with lookup }, [])
  | .done result => finish g.session g.target spans result

/-- The accounts that are held meanwhile. -/
def holds (g : Gathering) : List AccountRef := g.session.scope.account :: g.lookup.holds?.toList

end Gathering

end CallWatch
