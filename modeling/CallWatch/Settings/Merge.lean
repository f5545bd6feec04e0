import CallWatch.Json.Basic

/-! # Merging values

A value laid over another. Two objects are merged member by member: a null in the upper one keeps
what is below, a member of both is merged in turn, and any other is taken over as it is. Everything
else is replaced by the upper value. -/

namespace CallWatch.Json

/-- The value of the first member with this key. -/
def member? (key : String) (members : List (String × Json)) : Option Json :=
  (members.find? (·.1 == key)).map (·.2)

mutual

/-- The upper value laid over the lower one. -/
def merge : (upper lower : Json) → Json
  | .object members, .object below => .object (mergeMembers members below)
  | upper, _ => upper

/-- The members laid one after the other over those below. -/
def mergeMembers : (members below : List (String × Json)) → List (String × Json)
  | [], below => below
  | (_, .null) :: rest, below => mergeMembers rest below
  | (key, j) :: rest, below =>
    let merged := match member? key below with
      | some b => merge j b
      | none => j
    mergeMembers rest (putMember key merged below)

end

end CallWatch.Json
