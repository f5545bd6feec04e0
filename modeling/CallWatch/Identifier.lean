/-! # Qualified identifiers

Users and conversations are named by a value and a domain. The display form is `value@domain`, or
the value alone when the domain is empty; reading splits at the last `@`. A value may hold the
separator itself, so reading gives back what was displayed exactly if the domain holds none and,
when it is empty, the value holds none either. -/

namespace CallWatch

/-- What an identifier names. -/
inductive IdentifierKind where
  | user
  | conversation
  deriving DecidableEq, Repr

/-- A value within a domain. -/
structure Identifier (kind : IdentifierKind) where
  value : String
  domain : String
  deriving DecidableEq, Repr, Inhabited

/-- The name of an account. -/
abbrev UserId := Identifier .user

/-- The name of a conversation. -/
abbrev ConversationId := Identifier .conversation

namespace Identifier

variable {kind : IdentifierKind}

/-- Value and domain joined by the separator, or the value alone. -/
def display (id : Identifier kind) : String :=
  if id.domain = "" then id.value else id.value ++ "@" ++ id.domain

/-- The parts in front of and behind the last separator, if there is one. -/
def splitLast : List Char → Option (List Char × List Char)
  | [] => none
  | c :: cs =>
    match splitLast cs with
    | some (front, back) => some (c :: front, back)
    | none => if c = '@' then some ([], cs) else none

/-- The identifier that a text names. -/
def ofText (s : String) : Identifier kind :=
  match splitLast s.toList with
  | some (front, back) => ⟨String.ofList front, String.ofList back⟩
  | none => ⟨s, ""⟩

/-- The identifier with another value in the same domain. -/
def withValue (id : Identifier kind) (value : String) : Identifier kind := { id with value }

/-- Order by value, then by domain. -/
def compare (a b : Identifier kind) : Ordering :=
  (Ord.compare a.value b.value).then (Ord.compare a.domain b.domain)

theorem splitLast_eq_none {cs : List Char} : splitLast cs = none ↔ '@' ∉ cs := by
  induction cs with
  | nil => simp [splitLast]
  | cons c cs ih =>
    rw [splitLast]
    cases h : splitLast cs with
    | some p =>
      have : '@' ∈ cs := by
        rw [h] at ih
        simpa using ih
      simp [this]
    | none =>
      have : '@' ∉ cs := ih.1 h
      by_cases hc : c = '@' <;> simp [hc, this, eq_comm]

theorem splitLast_eq_some {cs front back : List Char} :
    splitLast cs = some (front, back) ↔ cs = front ++ '@' :: back ∧ '@' ∉ back := by
  induction cs generalizing front back with
  | nil => simp [splitLast]
  | cons c cs ih =>
    rw [splitLast]
    cases h : splitLast cs with
    | some p =>
      obtain ⟨f, b⟩ := p
      have hm : '@' ∈ cs := by
        rcases (ih.1 h) with ⟨rfl, -⟩
        simp
      simp only [Option.some.injEq, Prod.mk.injEq]
      constructor
      · rintro ⟨rfl, rfl⟩
        obtain ⟨rfl, hb⟩ := ih.1 h
        exact ⟨rfl, hb⟩
      · rintro ⟨he, hb⟩
        cases front with
        | nil =>
          simp only [List.nil_append, List.cons.injEq] at he
          exact absurd (he.2 ▸ hm) hb
        | cons x front =>
          simp only [List.cons_append, List.cons.injEq] at he
          have := ih.2 ⟨he.2, hb⟩
          rw [h] at this
          simp only [Option.some.injEq, Prod.mk.injEq] at this
          exact ⟨by rw [he.1, this.1], this.2⟩
    | none =>
      have hn : '@' ∉ cs := splitLast_eq_none.1 h
      constructor
      · intro he
        simp only [Option.ite_none_right_eq_some, Option.some.injEq, Prod.mk.injEq] at he
        obtain ⟨rfl, rfl, rfl⟩ := he
        exact ⟨rfl, hn⟩
      · rintro ⟨he, hb⟩
        cases front with
        | nil => simp_all
        | cons x front =>
          simp only [List.cons_append, List.cons.injEq] at he
          exact absurd (by rw [he.2]; simp) hn

end Identifier

end CallWatch
