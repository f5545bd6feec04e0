import CallWatch.Identifier

/-! # Sessions and accounts

Who is signed in, whether the sign-in still holds, and what an account says of itself. -/

namespace CallWatch

/-- Why a session ended. -/
inductive LogoutReason where
  | selfSoftLogout
  | selfHardLogout
  | sessionExpired
  | removedClient
  | deletedAccount
  deriving DecidableEq, Repr, Inhabited

namespace LogoutReason

/-- Every reason. -/
def all : List LogoutReason :=
  [.selfSoftLogout, .selfHardLogout, .sessionExpired, .removedClient, .deletedAccount]

/-- The written name of a reason. -/
def name : LogoutReason → String
  | .selfSoftLogout => "self_soft_logout"
  | .selfHardLogout => "self_hard_logout"
  | .sessionExpired => "session_expired"
  | .removedClient => "removed_client"
  | .deletedAccount => "deleted_account"

theorem mem_all (r : LogoutReason) : r ∈ all := by cases r <;> decide

end LogoutReason

/-- Whether a session holds. -/
inductive SessionStatus where
  | valid
  | invalid (reason : LogoutReason)
  deriving DecidableEq, Repr, Inhabited

/-- The session of an account. -/
structure Session where
  userId : UserId
  status : SessionStatus
  deriving DecidableEq, Repr, Inhabited

namespace Session

/-- A session that holds. -/
def valid (userId : UserId) : Session := ⟨userId, .valid⟩

/-- A session that ended. -/
def invalid (userId : UserId) (reason : LogoutReason) : Session := ⟨userId, .invalid reason⟩

/-- Whether the session holds. -/
def isValid (s : Session) : Bool := s.status == .valid

end Session

/-- What an account says of itself. -/
structure SelfUser where
  id : UserId
  name : Option String
  handle : Option String
  deriving DecidableEq, Repr, Inhabited

namespace SelfUser

/-- The handle, or else the name, or else nothing. -/
def displayName (u : SelfUser) : String := (u.handle <|> u.name).getD ""

end SelfUser

end CallWatch
