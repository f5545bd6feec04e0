/-! # JSON values

The values that texts are read to and written from. An object keeps its members in the order of the
text, repeated keys included, because a reader of a record refuses a repetition that a reader of a
plain value resolves. A number that is not a whole one keeps its literal. -/

namespace CallWatch

/-- A JSON value as it stands in a text. -/
inductive Json where
  | null
  | bool (b : Bool)
  /-- A whole number; minus zero is not one. -/
  | int (n : Int)
  /-- Any other number, as it is written. -/
  | decimal (literal : String)
  | string (s : String)
  | array (items : List Json)
  | object (members : List (String × Json))
  /-- A value that is written by the grammar and denotes nothing: a text with half a surrogate pair,
  or a number beyond the range. It can only be passed over. -/
  | unreadable
  deriving Inhabited

namespace Json

/-- The deepest nesting of arrays and objects that a value may have. -/
def maxDepth : Nat := 127

mutual

/-- Every part denotes a value, and arrays and objects nest at most `room` deep. -/
def readable (room : Nat) : Json → Bool
  | .array items => room != 0 && itemsReadable (room - 1) items
  | .object members => room != 0 && membersReadable (room - 1) members
  | .unreadable => false
  | _ => true

/-- Each of the items is readable. -/
def itemsReadable (room : Nat) : List Json → Bool
  | [] => true
  | j :: rest => readable room j && itemsReadable room rest

/-- Each of the members' values is readable. -/
def membersReadable (room : Nat) : List (String × Json) → Bool
  | [] => true
  | (_, j) :: rest => readable room j && membersReadable room rest

end

/-- The value of the last member with this key. -/
def lastMember? (key : String) (members : List (String × Json)) : Option Json :=
  (members.reverse.find? (·.1 == key)).map (·.2)

/-- The value at a key of an object. -/
def get? (key : String) : Json → Option Json
  | .object members => lastMember? key members
  | _ => none

/-- A member with this key and value in place of the first one with the key, or else at the end. -/
def putMember (key : String) (value : Json) : List (String × Json) → List (String × Json)
  | [] => [(key, value)]
  | (k, v) :: rest => if k == key then (k, value) :: rest else (k, v) :: putMember key value rest

mutual

/-- The value with one member for each key, the last of those in the text. -/
def distinct : Json → Json
  | .array items => .array (distinctItems items)
  | .object members => .object (distinctMembers [] members)
  | j => j

/-- Each item with one member for each key. -/
def distinctItems : List Json → List Json
  | [] => []
  | j :: rest => distinct j :: distinctItems rest

/-- The members put one after the other onto those that are there. -/
def distinctMembers (done : List (String × Json)) : List (String × Json) → List (String × Json)
  | [] => done
  | (k, j) :: rest => distinctMembers (putMember k (distinct j) done) rest

end

/-- A natural number as a value. -/
def nat (n : Nat) : Json := .int n

/-- A value that may be absent, as null or itself. -/
def ofOption {α : Type} (f : α → Json) : Option α → Json
  | none => .null
  | some a => f a

/-- A text that may be absent. -/
def ofText? : Option String → Json := ofOption .string

end Json

end CallWatch
