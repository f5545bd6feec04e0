import CallWatch.Json.Reader
import CallWatch.Text.Numeral

/-! # Shapes of received values

The ways in which a value may be written, and how each is read back.

* A *record* is an object with a member for each field, in any order, or an array of the fields in
  their order. Members that the record does not know are passed over; a known one may not be
  repeated. An array may stop early where every field behind the end has a default.
* A *choice* is a name, or an object with that name as its only key and null behind it.
* A *tagged* value is an object with the name of its variant beside the fields of that variant, or
  an array that starts with the name.

A value beside a tag is held until the tag is known, and a held value is read a little more freely
than one that is read at once: its tags may be given by position, and an empty object passes for
null behind the name of a choice. -/

namespace CallWatch.Wire

/-- How a value is read: held until a tag was known or at once, and how deep it may still nest. -/
structure Reading where
  held : Bool
  room : Nat
  deriving DecidableEq, Repr

namespace Reading

/-- A value that is read at once and makes up the whole text. -/
def whole : Reading := ⟨false, Json.maxDepth⟩

/-- The reading of what an array or object holds. -/
def inside (r : Reading) : Reading := { r with room := r.room - 1 }

/-- The reading of what was held. -/
def hold (r : Reading) : Reading := { r with held := true }

end Reading

/-- A way to read values of a type. -/
abbrev Decoder (α : Type) := Reading → Json → Option α

/-! ### Plain values -/

/-- A text. -/
def text : Decoder String
  | _, .string s => some s
  | _, _ => none

/-- A truth value. -/
def flag : Decoder Bool
  | _, .bool b => some b
  | _, _ => none

/-- A natural number of 64 bits. -/
def word64 : Decoder Nat
  | _, .int (.ofNat n) => if n ≤ Text.maxWord64 then some n else none
  | _, _ => none

/-- A list of values, written as an array. -/
def list {α : Type} (dec : Decoder α) : Decoder (List α)
  | r, .array items => items.mapM (dec r.inside)
  | _, _ => none

/-- A value or null. -/
def nullable {α : Type} (dec : Decoder α) : Decoder (Option α)
  | _, .null => some none
  | r, j => (dec r j).map some

/-! ### Records -/

/-- The fields of a record that a value gives. -/
structure Record where
  named : Bool
  fields : List (String × Json)

namespace Record

/-- Whether a key comes twice. -/
def hasRepeatedKey : List (String × Json) → Bool
  | [] => false
  | (k, _) :: rest => rest.any (·.1 == k) || hasRepeatedKey rest

/-- The fields of a record with these names. -/
def ofJson? (names : List String) : Json → Option Record
  | .array items => if items.length ≤ names.length then some ⟨false, names.zip items⟩ else none
  | .object members =>
    let known := members.filter fun m => names.contains m.1
    if hasRepeatedKey known then none else some ⟨true, known⟩
  | _ => none

/-- A field that must be there. -/
def required {α : Type} (record : Record) (name : String) (dec : Json → Option α) : Option α :=
  (record.fields.lookup name).bind dec

/-- A field that has a default. -/
def withDefault {α : Type} (record : Record) (name : String) (default : α) (dec : Json → Option α) :
    Option α :=
  match record.fields.lookup name with
  | none => some default
  | some j => dec j

/-- A field that may be left out of an object. -/
def optional {α : Type} (record : Record) (name : String) (dec : Json → Option (Option α)) :
    Option (Option α) :=
  match record.fields.lookup name with
  | none => if record.named then some none else none
  | some j => dec j

end Record

/-! ### Choices -/

/-- What stands behind the name of a choice written as an object. -/
def isUnit (r : Reading) : Json → Bool
  | .null => true
  | .object [] => r.held
  | _ => false

/-- One of the values, by its name. -/
def choice {α : Type} (all : List α) (name : α → String) : Decoder α
  | _, .string s => all.find? fun a => name a == s
  | r, .object [(s, j)] => if isUnit r j then all.find? fun a => name a == s else none
  | _, _ => none

theorem choice_string {α : Type} {all : List α} {name : α → String} {r : Reading} {a : α}
    (ha : a ∈ all) (hname : ∀ b ∈ all, name b = name a → b = a) :
    choice all name r (.string (name a)) = some a := by
  rw [choice, List.find?_eq_some_iff_append]
  obtain ⟨front, back, rfl, hn⟩ := List.eq_append_cons_of_mem ha
  refine ⟨by simp, front, back, rfl, fun x hx => ?_⟩
  have hm : x ∈ front ++ a :: back := by simp [hx]
  simp only [Bool.not_eq_eq_eq_not, Bool.not_true, beq_eq_false_iff_ne, ne_eq]
  exact fun he => hn (hname x hm he ▸ hx)

/-! ### Tagged values -/

/-- The position of a tag among the names of the variants. -/
def tagIndex? (r : Reading) (names : List String) : Json → Option Nat
  | .string s => names.idxOf? s
  | .int (.ofNat n) => if r.held && n < names.length then some n else none
  | _ => none

/-- The position of the variant and what stands beside its tag. -/
def tagged (key : String) (names : List String) : Reading → Json → Option (Nat × Json)
  | r, .object members =>
    match members.filter (·.1 == key) with
    | [(_, tag)] =>
      let rest := members.filter (·.1 != key)
      if r.held || Json.membersReadable (r.room - 1) rest then
        (tagIndex? r names tag).map fun i => (i, .object rest)
      else none
    | _ => none
  | r, .array (tag :: rest) =>
    if r.held || Json.itemsReadable (r.room - 1) rest then
      (tagIndex? r names tag).map fun i => (i, .array rest)
    else none
  | _, _ => none

/-- What may stand beside the tag of a variant without fields: any members, or no items. -/
def noFields : Json → Bool
  | .object _ => true
  | .array [] => true
  | _ => false

/-! ### Texts -/

/-- Why a text was not read. -/
inductive Refusal where
  /-- The text is no JSON. -/
  | notJson
  /-- It is JSON of another shape. -/
  | wrongShape
  deriving DecidableEq, Repr

/-- The value that a text stands for. -/
def decodeText {α : Type} (dec : Decoder α) (s : String) : Except Refusal α :=
  match Json.scan? s with
  | none => .error .notJson
  | some j =>
    match dec .whole j with
    | some a => .ok a
    | none => .error (if j.readable Json.maxDepth then .wrongShape else .notJson)

end CallWatch.Wire
