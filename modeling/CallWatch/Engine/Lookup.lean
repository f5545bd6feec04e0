import CallWatch.Log.Event
import CallWatch.Store.Conduct

/-! # Looking accounts up

Before the calls of an account are followed, the account is looked up and asked for its name; for an
account other than the signed-in one it is first asked whether its session holds. Each question may
take its time, so a lookup goes on in steps. -/

namespace CallWatch

/-- A process after a step: still on its way, or over with a result. -/
inductive Step (σ α : Type) where
  | on (next : σ)
  | done (result : α)

/-- An account with the name that it goes by. -/
structure Resolved where
  userId : UserId
  scope : Scope
  displayName : String

/-- What a lookup waits for. -/
inductive LookupStage where
  | validity (wait : Wait)
  | scope (wait : Wait)
  | name (scope : Scope) (wait : Wait)

/-- A lookup on its way. -/
structure Lookup where
  user : UserId
  stage : LookupStage

/-- What a lookup comes to: an account, none with a valid session, or a failure. -/
abbrev LookupResult := Except CallError (Option Resolved)

namespace Lookup

/-- A question is asked; the lookup goes on at the stage that waits for the answer. -/
def ask (s : Surroundings) (user : UserId) (q : Question) (stage : Wait → LookupStage) :
    Step Lookup LookupResult :=
  match s.ask user q with
  | .ok wait => .on ⟨user, stage wait⟩
  | .error e => .done (.error e)

/-- The lookup of the signed-in account. -/
def ofSession (s : Surroundings) (user : UserId) : Step Lookup LookupResult :=
  ask s user .userScope .scope

/-- The lookup of any account. -/
def ofUser (s : Surroundings) (user : UserId) : Step Lookup LookupResult :=
  ask s user .hasValidSession .validity

/-- What is waited for. -/
def wait (l : Lookup) : Wait :=
  match l.stage with
  | .validity w => w
  | .scope w => w
  | .name _ w => w

/-- The account that is held meanwhile. -/
def holds? (l : Lookup) : Option AccountRef :=
  match l.stage with
  | .name scope _ => some scope.account
  | _ => none

/-- The answer that was waited for is there. -/
def step (s : Surroundings) (l : Lookup) : Step Lookup LookupResult :=
  match l.stage with
  | .validity _ =>
    if s.store.hasValidSession l.user then ask s l.user .userScope .scope else .done (.ok none)
  | .scope _ =>
    match s.scope l.user with
    | .ok scope => ask s l.user .selfUser (.name scope)
    | .error e => .done (.error e)
  | .name scope _ => .done (.ok (some ⟨l.user, scope, s.displayName scope.account⟩))

end Lookup

/-! ### What a lookup logs -/

/-- A warning about a user. -/
def namelessWarning (user : UserId) (spans : List Log.Span) : Log.Event where
  level := .warn
  target := "callkeep_engine::resolver"
  fields :=
    [⟨"message", .shown "self user has neither handle nor name"⟩,
      ⟨"user_id", .shown user.display⟩]
  spans

/-- The warnings about what a lookup came to: the account goes by no name. -/
def Lookup.warnings (spans : List Log.Span) : LookupResult → List Log.Event
  | .ok (some r) => if r.displayName.isEmpty then [namelessWarning r.userId spans] else []
  | _ => []

/-- The lookup of the account of a session; there is none without a valid session. -/
def Lookup.ofCurrent (s : Surroundings) : Option Session → Step Lookup LookupResult
  | some session =>
    if session.isValid then Lookup.ofSession s session.userId else .done (.ok none)
  | none => .done (.ok none)

end CallWatch
