import Mathlib.Data.List.Basic
import CallWatch.Store.Account

/-! # Calls stay while they are answered

An account whose answers establish takes the calls of an answered conversation out of its incoming
calls and puts them behind its established ones. So the two lists together hold the calls that they
held, apart from the status of those answered, after however many answers. The two lists change one
after the other, the established calls first, and in between no call is in neither of them. -/

namespace CallWatch

/-! ### Moving the calls of a conversation -/

namespace Call

/-- The calls of a conversation, as they look once answered. -/
def answeredIn (c : ConversationId) (calls : List Call) : List Call :=
  (calls.filter (·.conversationId == c)).map (·.withStatus .answered)

/-- The calls of all other conversations. -/
def othersIn (c : ConversationId) (calls : List Call) : List Call :=
  calls.filter (·.conversationId != c)

variable {c d : ConversationId} {k : Call} {calls : List Call}

theorem answeredIn_eq_nil : answeredIn c calls = [] ↔ ∀ k ∈ calls, k.conversationId ≠ c := by
  simp [answeredIn]

theorem othersIn_of_answeredIn_eq_nil (h : answeredIn c calls = []) : othersIn c calls = calls := by
  rw [othersIn, List.filter_eq_self]
  simpa using answeredIn_eq_nil.1 h

/-- Answered calls and the others are all calls, but for the status. -/
theorem perm_answeredIn_append_othersIn (c : ConversationId) (calls : List Call) (s : CallStatus) :
    ((answeredIn c calls ++ othersIn c calls).map (·.withStatus s)).Perm
      (calls.map (·.withStatus s)) := by
  have hsplit : (calls.filter (·.conversationId == c) ++ othersIn c calls).Perm calls := by
    simpa only [othersIn, bne] using List.filter_append_perm (·.conversationId == c) calls
  have hstatus : (answeredIn c calls).map (·.withStatus s) =
      (calls.filter (·.conversationId == c)).map (·.withStatus s) := by
    simp only [answeredIn, List.map_map, Function.comp_def, withStatus_withStatus]
  rw [List.map_append, hstatus, ← List.map_append]
  exact hsplit.map _

theorem filter_answeredIn_self (c : ConversationId) (calls : List Call) :
    (answeredIn c calls).filter (·.conversationId == c) = answeredIn c calls := by
  rw [List.filter_eq_self]
  intro k hk
  obtain ⟨k', hk', rfl⟩ := List.mem_map.1 hk
  exact (List.mem_filter.1 hk').2

theorem filter_answeredIn_of_ne (h : d ≠ c) (calls : List Call) :
    (answeredIn c calls).filter (·.conversationId == d) = [] := by
  rw [List.filter_eq_nil_iff]
  intro k hk
  obtain ⟨k', hk', rfl⟩ := List.mem_map.1 hk
  have hc : k'.conversationId = c := by simpa using (List.mem_filter.1 hk').2
  simpa [hc] using h.symm

theorem answeredIn_othersIn_self (c : ConversationId) (calls : List Call) :
    answeredIn c (othersIn c calls) = [] := by
  simp [answeredIn_eq_nil, othersIn]

theorem answeredIn_othersIn_of_ne (h : d ≠ c) (calls : List Call) :
    answeredIn d (othersIn c calls) = answeredIn d calls := by
  have hboth : ∀ k : Call, (k.conversationId == d && k.conversationId != c) =
      (k.conversationId == d) := by
    intro k
    by_cases hd : k.conversationId = d
    · simp [hd, h]
    · simp [hd]
  simp only [answeredIn, othersIn, List.filter_filter, hboth]

end Call

open Call

namespace Account

variable {a : Account} {established incoming : List Call} {c : ConversationId}

/-- Both lists are told, and these are their calls. -/
structure Lists (a : Account) (established incoming : List Call) : Prop where
  established : a.established.value = .ok established
  incoming : a.incoming.value = .ok incoming

/-- Answers succeed, and establish what they answer. -/
structure Establishes (a : Account) : Prop where
  answerEstablishes : a.answerEstablishes = true
  answerFailure : a.answerFailure = none

/-- The account once it is noted that a conversation was answered. -/
def noted (a : Account) (c : ConversationId) : Account := { a with answered := a.answered ++ [c] }

/-- The account after conversations were answered, one after another. -/
def answerAll (a : Account) (cs : List ConversationId) : Account :=
  cs.foldl (fun a c => (a.answer c).2) a

/-! ### One answer -/

theorem Lists.answeredCalls (h : a.Lists established incoming) (c : ConversationId) :
    a.answeredCalls c = answeredIn c incoming := by
  rw [Account.answeredCalls, h.incoming]
  rfl

theorem Lists.showAnswered (h : a.Lists established incoming) (c : ConversationId) :
    a.showAnswered c = a.setList .established (.ok (established ++ answeredIn c incoming)) := by
  rw [Account.showAnswered, h.answeredCalls, h.established]

theorem Lists.dropAnswered (h : a.Lists established incoming) (c : ConversationId) :
    a.dropAnswered c = a.setList .incoming (.ok (othersIn c incoming)) := by
  rw [Account.dropAnswered, h.incoming]
  rfl

theorem Lists.noted (h : a.Lists established incoming) (c : ConversationId) :
    (a.noted c).Lists established incoming := ⟨h.established, h.incoming⟩

/-- In between, the answered calls are in both lists. -/
theorem Lists.between (h : a.Lists established incoming) (c : ConversationId) :
    (a.showAnswered c).Lists (established ++ answeredIn c incoming) incoming := by
  rw [h.showAnswered]
  exact ⟨rfl, h.incoming⟩

theorem Establishes.answer_eq (ha : a.Establishes) (c : ConversationId) :
    a.answer c = (.ok (), (a.noted c).establish c) := by
  simp only [Account.answer, ha.answerFailure, ha.answerEstablishes, if_true, Account.noted]

/-- A conversation that is not incoming changes nothing but the note. -/
theorem Lists.establish_of_not_incoming (h : a.Lists established incoming)
    (hc : ∀ k ∈ incoming, k.conversationId ≠ c) : a.establish c = a := by
  rw [establish, h.answeredCalls, answeredIn_eq_nil.2 hc]
  rfl

/-- An incoming one changes both lists. -/
theorem Lists.establish_of_incoming (h : a.Lists established incoming)
    (hc : ∃ k ∈ incoming, k.conversationId = c) :
    a.establish c = (a.showAnswered c).dropAnswered c := by
  have hne : answeredIn c incoming ≠ [] := by
    rw [Ne, answeredIn_eq_nil]
    push Not
    exact hc
  rw [establish, h.answeredCalls, if_neg (by simpa using hne)]

/-- **What one answer leaves in the lists.** -/
theorem Lists.answer (h : a.Lists established incoming) (ha : a.Establishes)
    (c : ConversationId) :
    (a.answer c).2.Lists (established ++ answeredIn c incoming) (othersIn c incoming) := by
  rw [ha.answer_eq]
  by_cases hc : ∃ k ∈ incoming, k.conversationId = c
  · rw [(h.noted c).establish_of_incoming hc, ((h.noted c).between c).dropAnswered]
    exact ⟨((h.noted c).between c).established, rfl⟩
  · have hnone : ∀ k ∈ incoming, k.conversationId ≠ c := by simpa using hc
    have hnil := answeredIn_eq_nil.2 hnone
    rw [(h.noted c).establish_of_not_incoming hnone, hnil, List.append_nil,
      othersIn_of_answeredIn_eq_nil hnil]
    exact h.noted c

theorem Establishes.answer (ha : a.Establishes) (c : ConversationId) :
    (a.answer c).2.Establishes := by
  rw [ha.answer_eq, establish]
  split <;> exact ⟨ha.answerEstablishes, ha.answerFailure⟩

/-! ### Many answers -/

theorem Establishes.answerAll (ha : a.Establishes) (cs : List ConversationId) :
    (a.answerAll cs).Establishes := by
  induction cs generalizing a with
  | nil => exact ha
  | cons c cs ih => exact ih (ha.answer c)

/-- What answers to these conversations make of the two lists: the calls of all others stay, and
what comes behind the established calls are the calls of each of them, in their order. -/
structure Moved (cs : List ConversationId)
    (established incoming established' incoming' : List Call) :
    Prop where
  remain : incoming' = incoming.filter (·.conversationId ∉ cs)
  arrive : ∃ moved, established' = established ++ moved ∧ ∀ c,
    moved.filter (·.conversationId == c) = if c ∈ cs then answeredIn c incoming else []
  conserved : ∀ s, ((established' ++ incoming').map (·.withStatus s)).Perm
    ((established ++ incoming).map (·.withStatus s))

theorem Moved.refl (established incoming : List Call) :
    Moved [] established incoming established incoming :=
  ⟨by simp, ⟨[], by simp⟩, fun _ => .refl _⟩

/-- The first answer, and then the others. -/
theorem Moved.cons {cs : List ConversationId} {established' incoming' : List Call}
    (h : Moved cs (established ++ answeredIn c incoming) (othersIn c incoming) established'
      incoming') : Moved (c :: cs) established incoming established' incoming' := by
  obtain ⟨moved, hmoved, hfilter⟩ := h.arrive
  refine ⟨?_, ⟨answeredIn c incoming ++ moved, by rw [hmoved, List.append_assoc], ?_⟩, ?_⟩
  · rw [h.remain, othersIn, List.filter_filter]
    refine List.filter_congr fun k _ => ?_
    by_cases hk : k.conversationId = c <;> simp [hk]
  · intro d
    rw [List.filter_append, hfilter d]
    by_cases hd : d = c
    · subst hd
      rw [filter_answeredIn_self, answeredIn_othersIn_self]
      simp
    · rw [filter_answeredIn_of_ne hd, answeredIn_othersIn_of_ne hd]
      simp [hd]
  · intro s
    have hafter (calls : List Call) : (established ++ calls).map (·.withStatus s) =
        established.map (·.withStatus s) ++ calls.map (·.withStatus s) := List.map_append
    refine (h.conserved s).trans ?_
    rw [List.append_assoc, hafter, hafter]
    exact (perm_answeredIn_append_othersIn c incoming s).append_left _

/-- **What any answers leave in the lists.** -/
theorem Lists.answerAll (h : a.Lists established incoming) (ha : a.Establishes)
    (cs : List ConversationId) :
    ∃ established' incoming', (a.answerAll cs).Lists established' incoming' ∧
      Moved cs established incoming established' incoming' := by
  induction cs generalizing a established incoming with
  | nil => exact ⟨established, incoming, h, .refl _ _⟩
  | cons c cs ih =>
    obtain ⟨established', incoming', hlists, hmoved⟩ := ih (h.answer ha c) (ha.answer c)
    exact ⟨established', incoming', hlists, hmoved.cons⟩

/-! ### The lists of an account that is answering -/

/-- An answer as those see it who follow the lists, from these calls on. A conversation that is not
incoming leaves both lists untouched. An incoming one changes first the established calls and then
the incoming ones, and between the two every call from before and from after is in one of them. -/
structure Answers (a : Account) (c : ConversationId) (established incoming : List Call) : Prop where
  succeeds : (a.answer c).1 = .ok ()
  after : (a.answer c).2.Lists (established ++ answeredIn c incoming) (othersIn c incoming)
  untouched : (∀ k ∈ incoming, k.conversationId ≠ c) →
    (a.answer c).2.established = a.established ∧ (a.answer c).2.incoming = a.incoming
  updates : (∃ k ∈ incoming, k.conversationId = c) → ∃ between : Account,
    between = (a.noted c).setList .established (.ok (established ++ answeredIn c incoming)) ∧
    (a.answer c).2 = between.setList .incoming (.ok (othersIn c incoming)) ∧
    ∃ shown waiting, between.Lists shown waiting ∧
      (∀ k ∈ established ++ incoming, k ∈ shown ∨ k ∈ waiting) ∧
      (∀ k ∈ established ++ answeredIn c incoming ++ othersIn c incoming, k ∈ shown ∨ k ∈ waiting)

theorem Lists.answers (h : a.Lists established incoming) (ha : a.Establishes)
    (c : ConversationId) : a.Answers c established incoming where
  succeeds := by rw [ha.answer_eq]
  after := h.answer ha c
  untouched hc := by
    rw [ha.answer_eq, (h.noted c).establish_of_not_incoming hc]
    exact ⟨rfl, rfl⟩
  updates hc := by
    have hbetween := (h.noted c).between c
    refine ⟨(a.noted c).showAnswered c, (h.noted c).showAnswered c, ?_, _, _, hbetween, ?_, ?_⟩
    · rw [ha.answer_eq, (h.noted c).establish_of_incoming hc, hbetween.dropAnswered]
    · intro k hk
      rw [List.mem_append] at hk ⊢
      exact hk.imp_left .inl
    · intro k hk
      rw [List.mem_append] at hk
      exact hk.imp_right List.mem_of_mem_filter

/-- **Answering conserves calls.** However many conversations were answered, both lists are told.
The calls of those conversations are no longer incoming; they stand behind the calls that were
established, those of each conversation in their order, answered and otherwise as they were. All
other calls are where they were, and the two lists together hold the calls that they held, but for
the status. The next answer shows the calls of its conversation before it takes them away, or leaves
both lists as they are. -/
theorem answering_conserves (ha : a.Establishes) (h : a.Lists established incoming)
    (cs : List ConversationId) :
    ∃ established' incoming', (a.answerAll cs).Lists established' incoming' ∧
      Moved cs established incoming established' incoming' ∧
      ∀ c, (a.answerAll cs).Answers c established' incoming' := by
  obtain ⟨established', incoming', hlists, hmoved⟩ := h.answerAll ha cs
  exact ⟨established', incoming', hlists, hmoved, fun c => hlists.answers (ha.answerAll cs) c⟩

/-- A call from somebody in a conversation. -/
def callIn (conversation : String) (status : CallStatus) (caller : String) : Call :=
  .new ⟨conversation, "wire.com"⟩ ⟨caller, "wire.com"⟩ status

/-- One call is established; in the room of it two more ring, and one elsewhere. -/
def ringingTwice : Account :=
  { Account.new ⟨⟨"me", "wire.com"⟩, none, none⟩ with
    established := .start (.ok [callIn "room" .established "ann"])
    incoming := .start (.ok [callIn "room" .incoming "bob", callIn "hall" .incoming "eve",
      callIn "room" .missed "cat"])
    answerEstablishes := true }

/-- The room is answered twice, and then the hall. -/
theorem answering_conserves_ringingTwice :
    let cs : List ConversationId := [⟨"room", "wire.com"⟩, ⟨"room", "wire.com"⟩]
    let waiting := [callIn "room" .incoming "bob", callIn "hall" .incoming "eve",
      callIn "room" .missed "cat"]
    ringingTwice.Establishes ∧ ringingTwice.Lists [callIn "room" .established "ann"] waiting ∧
      Moved cs [callIn "room" .established "ann"] waiting
        [callIn "room" .established "ann", callIn "room" .answered "bob",
          callIn "room" .answered "cat"] [callIn "hall" .incoming "eve"] ∧
      ((ringingTwice.answerAll cs).answer ⟨"hall", "wire.com"⟩).2.Lists
        [callIn "room" .established "ann", callIn "room" .answered "bob",
          callIn "room" .answered "cat", callIn "hall" .answered "eve"] [] := by
  intro cs waiting
  have ha : ringingTwice.Establishes := ⟨rfl, rfl⟩
  have hl : ringingTwice.Lists [callIn "room" .established "ann"] waiting := ⟨rfl, rfl⟩
  obtain ⟨established', incoming', hlists, hmoved, hnext⟩ := answering_conserves ha hl cs
  have hestablished : established' = [callIn "room" .established "ann",
      callIn "room" .answered "bob", callIn "room" .answered "cat"] :=
    Except.ok.inj (hlists.established.symm.trans (by decide))
  have hincoming : incoming' = [callIn "hall" .incoming "eve"] :=
    Except.ok.inj (hlists.incoming.symm.trans (by decide))
  subst hestablished hincoming
  exact ⟨ha, hl, hmoved, (hnext ⟨"hall", "wire.com"⟩).after⟩

end Account

end CallWatch
