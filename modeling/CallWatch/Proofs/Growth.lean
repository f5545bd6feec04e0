import CallWatch.Proofs.Engine.Attempts

/-! # How the store grows

A live value *grows*: it is as it was, or has changed since. Whoever saw a version of it knows the
value as long as that version is the newest one (`ShowedAt`). The session and the lists of the
accounts grow in every move that registers no user twice, and a user who has an account keeps it.
Two stores are *alike* if they answer what a lookup asks in the same way. -/

namespace CallWatch

namespace Live

variable {α : Type}

/-- The value is as it was, or has changed since. -/
def Grows (l l' : Live α) : Prop := l' = l ∨ l.version < l'.version

/-- This was the value at a version. -/
def ShowedAt (l : Live α) (version : Nat) (a : α) : Prop :=
  version ≤ l.version ∧ (version = l.version → l.value = a)

theorem Grows.refl (l : Live α) : l.Grows l := .inl rfl

theorem Grows.trans {l l' l'' : Live α} (h : l.Grows l') (h' : l'.Grows l'') : l.Grows l'' := by
  rcases h with rfl | h
  · exact h'
  · rcases h' with rfl | h'
    · exact .inr h
    · exact .inr (Nat.lt_trans h h')

theorem grows_set (l : Live α) (a : α) : l.Grows (l.set a) := .inr (Nat.lt_succ_self _)

theorem ShowedAt.grows {l l' : Live α} {version : Nat} {a : α} (h : l.ShowedAt version a)
    (hg : l.Grows l') : l'.ShowedAt version a := by
  obtain ⟨hle, hvalue⟩ := h
  rcases hg with rfl | hlt
  · exact ⟨hle, hvalue⟩
  · exact ⟨by omega, fun heq => by omega⟩

end Live

/-! ### Accounts -/

namespace Account

theorem grows_setList (a : Account) (name other : ListName) (l : Listing) :
    (a.list other).Grows ((a.setList name l).list other) := by
  by_cases h : other = name
  · rw [h, list_setList]
    exact Live.grows_set _ _
  · rw [list_setList_of_ne a l h]
    exact .refl _

/-- Answering only changes lists, as far as anybody is shown. -/
theorem grows_answer (a : Account) (c : ConversationId) (name : ListName) :
    (a.list name).Grows ((a.answer c).2.list name) := by
  have hnoted (name : ListName) : ({ a with answered := a.answered ++ [c] } : Account).list name =
      a.list name := by cases name <;> rfl
  rw [← hnoted name]
  simp only [answer]
  split
  · exact .refl _
  · split
    · simp only [establish]
      split
      · exact .refl _
      · exact (grows_setList _ .established name _).trans (grows_setList _ .incoming name _)
    · exact .refl _

theorem told_answer (a : Account) (c : ConversationId) :
    (a.answer c).2.selfUser = a.selfUser ∧ (a.answer c).2.valid = a.valid := by
  simp only [answer]
  split
  · exact ⟨rfl, rfl⟩
  · split
    · simp only [establish]
      split <;> exact ⟨rfl, rfl⟩
    · exact ⟨rfl, rfl⟩

end Account

/-! ### The store -/

/-- Whether a change is one of what a lookup asks: who has an account, its name, its validity. -/
def StoreChange.isTold : StoreChange → Bool
  | .register _ | .account _ (.selfUser _) | .account _ (.valid _) => true
  | _ => false

namespace Store

/-- The live list at a place. -/
def live (s : Store) (place : AccountRef × ListName) : Live Listing :=
  ((s.account? place.1).map (·.list place.2)).getD (.start (.ok []))

/-- The store after something happened to it. -/
structure Grows (s s' : Store) : Prop where
  session : s.session.Grows s'.session
  lists : ∀ place, (s.live place).Grows (s'.live place)
  find : ∀ user ref, s.find? user = some ref → s'.find? user = some ref

/-- What an account says to a lookup. -/
def told (s : Store) (ref : AccountRef) : Option (SelfUser × Bool) :=
  (s.account? ref).map fun a => (a.selfUser, a.valid)

/-- A lookup is answered by both stores in the same way. -/
structure Alike (s s' : Store) : Prop where
  find : ∀ user, s'.find? user = s.find? user
  told : ∀ ref, s'.told ref = s.told ref

theorem Grows.refl (s : Store) : s.Grows s := ⟨.refl _, fun _ => .refl _, fun _ _ h => h⟩

theorem Alike.refl (s : Store) : s.Alike s := ⟨fun _ => rfl, fun _ => rfl⟩

theorem Alike.trans {s s' s'' : Store} (h : s.Alike s') (h' : s'.Alike s'') : s.Alike s'' :=
  ⟨fun user => (h'.find user).trans (h.find user), fun ref => (h'.told ref).trans (h.told ref)⟩

theorem Alike.hasValidSession {s s' : Store} (h : s.Alike s') (user : UserId) :
    s'.hasValidSession user = s.hasValidSession user := by
  have hvalid (s : Store) : s.hasValidSession user =
      (((s.find? user).bind s.told).map (·.2)).getD false := by
    rw [Store.hasValidSession, accountOf?]
    rcases s.find? user with _ | ref
    · rfl
    · simp only [Option.bind_some, Store.told]
      cases s.account? ref <;> rfl
  have htold : s'.told = s.told := funext h.told
  rw [hvalid, hvalid, h.find, htold]

theorem account?_modify (s : Store) (ref other : AccountRef) (f : Account → Account) :
    (s.modify ref f).account? other =
      if ref = other then (s.account? other).map f else s.account? other := by
  simp only [account?, modify, List.getElem?_modify]
  split
  · simp
  · simp

theorem modify_congr {s : Store} {ref : AccountRef} {a : Account} (h : s.account? ref = some a)
    {f f' : Account → Account} (hf : f a = f' a) : s.modify ref f = s.modify ref f' := by
  have haccounts : s.accounts.modify ref f = s.accounts.modify ref f' := by
    refine List.ext_getElem? fun i => ?_
    rw [List.getElem?_modify, List.getElem?_modify]
    split
    · next heq =>
      replace h : s.accounts[i]? = some a := heq ▸ h
      simp [h, hf]
    · rfl
  rw [modify, modify, haccounts]

theorem Grows.modify (s : Store) (ref : AccountRef) {f : Account → Account}
    (h : ∀ (a : Account) (name : ListName), (a.list name).Grows ((f a).list name)) :
    s.Grows (s.modify ref f) := by
  refine ⟨.refl _, fun place => ?_, fun _ _ h => h⟩
  rw [live, live, account?_modify]
  split
  · rcases s.account? place.1 with _ | a
    · exact .refl _
    · exact h a place.2
  · exact .refl _

theorem Alike.modify (s : Store) (ref : AccountRef) {f : Account → Account}
    (h : ∀ a, (f a).selfUser = a.selfUser ∧ (f a).valid = a.valid) : s.Alike (s.modify ref f) := by
  refine ⟨fun _ => rfl, fun other => ?_⟩
  rw [Store.told, Store.told, account?_modify]
  split
  · rcases s.account? other with _ | a
    · rfl
    · simp [h a]
  · rfl

theorem lookup_filter_ne {user other : UserId} (h : user ≠ other)
    (directory : List (UserId × AccountRef)) :
    (directory.filter (·.1 != other)).lookup user = directory.lookup user := by
  induction directory with
  | nil => rfl
  | cons entry rest ih =>
    obtain ⟨key, ref⟩ := entry
    by_cases hkey : key = other
    · rw [List.filter_cons_of_neg (by simp [hkey]), ih, hkey, List.lookup_cons,
        beq_false_of_ne h]
    · rw [List.filter_cons_of_pos (by simp [hkey]), List.lookup_cons, List.lookup_cons, ih]

theorem Grows.register {s : Store} {u : SelfUser} (h : s.find? u.id = none) :
    s.Grows (s.register u) := by
  refine ⟨.refl _, fun place => ?_, fun user ref hfind => ?_⟩
  · have hnew (name : ListName) : (Account.new u).list name = .start (.ok []) := by
      cases name <;> rfl
    have hlive : (s.register u).live place = s.live place := by
      simp only [live, account?, Store.register]
      rcases Nat.lt_trichotomy place.1 s.accounts.length with hlt | heq | hlt
      · rw [List.getElem?_append_left hlt]
      · rw [heq, List.getElem?_concat_length, List.getElem?_eq_none (Nat.le_refl _)]
        exact hnew _
      · rw [List.getElem?_eq_none (by simp; omega), List.getElem?_eq_none (by omega)]
    exact .inl hlive
  · have hne : user ≠ u.id := by
      rintro rfl
      rw [h] at hfind
      cases hfind
    rw [find?, Store.register, List.lookup_cons, beq_false_of_ne hne, lookup_filter_ne hne]
    exact hfind

/-- Every change grows the store, unless it registers a user again. -/
theorem grows_apply {s : Store} (change : StoreChange)
    (h : ∀ u, change = .register u → s.find? u.id = none) : s.Grows (change.apply s) := by
  rcases change with item | u | ⟨ref, change⟩
  · exact ⟨Live.grows_set _ _, fun _ => .refl _, fun _ _ h => h⟩
  · exact .register (h u rfl)
  · refine .modify s ref fun a name => ?_
    rcases change with user | holds | ⟨listName, content⟩ | error | delay | establishes
    · cases name <;> exact .refl _
    · cases name <;> exact .refl _
    · exact a.grows_setList listName name content
    · cases name <;> exact .refl _
    · cases name <;> exact .refl _
    · cases name <;> exact .refl _

theorem alike_apply {s : Store} (change : StoreChange) (h : change.isTold = false) :
    s.Alike (change.apply s) := by
  rcases change with item | u | ⟨ref, change⟩
  · exact ⟨fun _ => rfl, fun _ => rfl⟩
  · cases h
  · refine .modify s ref fun a => ?_
    rcases change with user | holds | ⟨listName, content⟩ | error | delay | establishes
    · cases h
    · cases h
    · cases listName <;> exact ⟨rfl, rfl⟩
    · exact ⟨rfl, rfl⟩
    · exact ⟨rfl, rfl⟩
    · exact ⟨rfl, rfl⟩

end Store

/-- An attempt to answer leaves the store, or lets the answer take effect at one account. -/
theorem Answering.store_step (a : Answering) (s : Surroundings) (held : AccountRef → Bool) :
    (a.step s held).1 = s.store ∨
      ∃ ref, (a.step s held).1 = s.store.modify ref fun b => (b.answer a.conversationId).2 := by
  have hsteps := a.steps s held
  generalize (a.step s held).1 = store, (a.step s held).2.1 = a' at hsteps ⊢
  cases hsteps with
  | effect scope wait account hc hs ha => exact .inr ⟨_, Store.modify_congr ha rfl⟩
  | _ => exact .inl rfl

theorem Answering.grows_step (a : Answering) (s : Surroundings) (held : AccountRef → Bool) :
    s.store.Grows (a.step s held).1 ∧ s.store.Alike (a.step s held).1 := by
  rcases a.store_step s held with heq | ⟨ref, heq⟩
  · rw [heq]; exact ⟨.refl _, .refl _⟩
  · rw [heq]
    exact ⟨.modify _ ref fun b => b.grows_answer _, .modify _ ref fun b => b.told_answer _⟩

end CallWatch
