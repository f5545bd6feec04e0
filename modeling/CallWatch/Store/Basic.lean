import CallWatch.Store.Account

/-! # The store

The current session and the accounts. An account that is registered again is replaced by a new one;
the old one stays where it is for those who still hold it, and its lists are no longer given once
nobody does. -/

namespace CallWatch

/-- The current session, or the failure to tell it. -/
abbrev SessionItem := Except CallError (Option Session)

/-- Where an account stands in the store. -/
abbrev AccountRef := Nat

/-- The current session, every account that was registered, and which of them a user has now. -/
structure Store where
  session : Live SessionItem
  accounts : List Account
  directory : List (UserId × AccountRef)

namespace Store

/-- Nobody is signed in and no account is registered. -/
def empty : Store := ⟨.start (.ok none), [], []⟩

/-- A new account for a user, instead of the one that was there. -/
def register (s : Store) (u : SelfUser) : Store :=
  { s with
    accounts := s.accounts ++ [.new u]
    directory := (u.id, s.accounts.length) :: s.directory.filter (·.1 != u.id) }

/-- The account that a user has now. -/
def find? (s : Store) (user : UserId) : Option AccountRef := s.directory.lookup user

/-- The account at a reference. -/
def account? (s : Store) (ref : AccountRef) : Option Account := s.accounts[ref]?

/-- The account that a user has now. -/
def accountOf? (s : Store) (user : UserId) : Option Account := (s.find? user).bind s.account?

/-- Whether the user has an account with a valid session. -/
def hasValidSession (s : Store) (user : UserId) : Bool :=
  (s.accountOf? user).any (·.valid)

/-- The store with one account changed. -/
def modify (s : Store) (ref : AccountRef) (f : Account → Account) : Store :=
  { s with accounts := s.accounts.modify ref f }

/-- Another session, or none, or a failure. -/
def setSession (s : Store) (item : SessionItem) : Store := { s with session := s.session.set item }

/-- Whether some user has this account now. -/
def isRegistered (s : Store) (ref : AccountRef) : Bool := s.directory.any (·.2 == ref)

/-- The lists of the accounts; those of an account that nobody has or holds are not given. -/
def lists (s : Store) (held : AccountRef → Bool) : Board (AccountRef × ListName) Listing where
  value place := ((s.account? place.1).map (·.list place.2)).getD (.start (.ok []))
  given place := s.isRegistered place.1 || held place.1

/-- The current session, which is always given. -/
def sessions (s : Store) : Board Unit SessionItem := ⟨fun _ => s.session, fun _ => true⟩

theorem find?_register (s : Store) (u : SelfUser) : (s.register u).find? u.id =
    some s.accounts.length := by simp [register, find?]

end Store

end CallWatch
