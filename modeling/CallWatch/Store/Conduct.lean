import CallWatch.Store.Basic

/-! # How the store conducts itself

The store is asked over a boundary where things go wrong. What is asked of it for a user can be
arranged to fail, to take some time, or to stay without an answer for good; its lists and sessions
can be replaced by prepared ones. Where nothing is arranged the store answers at once and truly. -/

namespace CallWatch

/-- What the store can be asked for a user. -/
inductive Question where
  | hasValidSession
  | userScope
  | selfUser
  | answerCall
  deriving DecidableEq, Repr

namespace Question

/-- Every question, in the order in which a lookup and an answer ask them. -/
def all : List Question := [.hasValidSession, .userScope, .selfUser, .answerCall]

/-- The written name of a question. -/
def name : Question → String
  | .hasValidSession => "has_valid_session"
  | .userScope => "user_scope"
  | .selfUser => "self_user"
  | .answerCall => "answer_call"

theorem mem_all (q : Question) : q ∈ all := by cases q <;> decide

end Question

/-- What happens to a question. -/
inductive Conduct where
  | fails (error : CallError)
  | delays (ms : Nat)
  | never
  deriving DecidableEq, Repr

/-- A feed of one of an account's lists. -/
abbrev ListFeed := Feed (AccountRef × ListName) Listing

/-- A feed of sessions. -/
abbrev SessionFeed := Feed Unit SessionItem

/-- What was arranged. -/
structure Arrangement where
  questions : List ((UserId × Question) × Conduct)
  lists : List ((UserId × ListName) × ListFeed)
  sessions : Option (List SessionItem)

namespace Arrangement

/-- Nothing is arranged. -/
def none : Arrangement := ⟨[], [], .none⟩

/-- What is asked for a user goes this way from now on, or as usual. -/
def setQuestion (a : Arrangement) (user : UserId) (q : Question) (c : Option Conduct) :
    Arrangement :=
  { a with
    questions := (c.toList.map fun c => ((user, q), c)) ++ a.questions.filter (·.1 != (user, q)) }

/-- A list of a user is replaced from now on, or as usual. -/
def setList (a : Arrangement) (user : UserId) (name : ListName) (f : Option ListFeed) :
    Arrangement :=
  { a with
    lists := (f.toList.map fun f => ((user, name), f)) ++ a.lists.filter (·.1 != (user, name)) }

/-- A new feed of sessions. -/
def sessionFeed (a : Arrangement) : SessionFeed :=
  match a.sessions with
  | .some items => .script items
  | .none => .subscribe ()

end Arrangement

/-- An account that was looked up for a user, with the lists as they were arranged then. -/
structure Scope where
  user : UserId
  account : AccountRef
  lists : List (ListName × ListFeed)

namespace Scope

/-- A new feed of one of the lists. -/
def listFeed (s : Scope) (name : ListName) : ListFeed :=
  (s.lists.lookup name).getD (.subscribe (s.account, name))

end Scope

/-- How long an answer is waited for. -/
inductive Wait where
  | till (instant : Nat)
  | forever
  deriving DecidableEq, Repr

namespace Wait

/-- The wait is over. -/
def isOver (now : Nat) : Wait → Bool
  | .till instant => instant ≤ now
  | .forever => false

/-- When the wait is over. -/
def due? : Wait → Option Nat
  | .till instant => some instant
  | .forever => none

end Wait

/-- What a task finds around it: the time, the store and what was arranged. -/
structure Surroundings where
  now : Nat
  store : Store
  arrangement : Arrangement

namespace Surroundings

/-- The wait for an answer to a question, unless it fails at once. -/
def ask (s : Surroundings) (user : UserId) (q : Question) : Except CallError Wait :=
  match s.arrangement.questions.lookup (user, q) with
  | none => .ok (.till s.now)
  | some (.fails e) => .error e
  | some (.delays ms) => .ok (.till (s.now + ms))
  | some .never => .ok .forever

/-- The account of a user, or the failure to find one. -/
def scope (s : Surroundings) (user : UserId) : Except CallError Scope :=
  match s.store.find? user with
  | none => .error (.sessionNotFound user)
  | some account =>
    .ok ⟨user, account,
      (s.arrangement.lists.filter (·.1.1 == user)).map fun l => (l.1.2, l.2)⟩

/-- The name that an account goes by. -/
def displayName (s : Surroundings) (ref : AccountRef) : String :=
  ((s.store.account? ref).map (·.selfUser.displayName)).getD ""

end Surroundings

end CallWatch
