import CallWatch.Proofs.Engine.Trials

/-! # What the accounts note

An account notes the conversations that were answered. Whatever comes from outside, and however the
store conducts itself, the notes of an account are the effects at that account, in order. -/

namespace CallWatch

/-- What is noted at the accounts are the effects of a history. -/
structure Store.Notes (s : Store) (h : History) : Prop where
  noted : ∀ ref account, s.account? ref = some account →
    account.answered = (h.effects.filter (·.account = ref)).map (·.attempt.conversationId)
  known : ∀ e ∈ h.effects, e.account < s.accounts.length

namespace Store.Notes

variable {s s' : Store} {h : History}

theorem empty : Store.empty.Notes [] where
  noted := by simp [Store.account?, Store.empty]
  known := by simp [History.effects]

/-- Accounts that keep their notes, and new ones without any. -/
theorem of_quiet (hn : s.Notes h) {w : World} {m : Move} (he : w.effect? m = none)
    (hlength : s.accounts.length ≤ s'.accounts.length)
    (hnoted : ∀ ref account, s'.account? ref = some account →
      (∃ before, s.account? ref = some before ∧ before.answered = account.answered) ∨
        s.accounts.length ≤ ref ∧ account.answered = []) : s'.Notes (h ++ [(w, m)]) := by
  have heffects : History.effects (h ++ [(w, m)]) = h.effects := by
    simp [History.effects_step, he]
  constructor
  case noted =>
    intro ref account hacc
    rw [heffects]
    rcases hnoted ref account hacc with ⟨before, hbefore, heq⟩ | ⟨hle, heq⟩
    · rw [← heq]
      exact hn.noted ref before hbefore
    · have hnone : h.effects.filter (·.account = ref) = [] :=
        List.filter_eq_nil_iff.mpr fun e he hbad => by
          have hlt := hn.known e he
          rw [of_decide_eq_true hbad] at hlt
          exact absurd hlt (Nat.not_lt_of_le hle)
      rw [heq, hnone, List.map_nil]
  case known =>
    rw [heffects]
    exact fun e he => Nat.lt_of_lt_of_le (hn.known e he) hlength

/-- An effect is noted at its account. -/
theorem effect (hn : s.Notes h) {w : World} {m : Move} {e : Effect} (he : w.effect? m = some e)
    {account : Account} (hacc : s.account? e.account = some account) :
    (s.modify e.account fun _ => (account.answer e.attempt.conversationId).2).Notes
      (h ++ [(w, m)]) := by
  constructor
  case noted =>
    intro ref account' hacc'
    rw [History.effects_step, he]
    rw [account?_modify] at hacc'
    split at hacc'
    · next heq =>
      subst heq
      rw [hacc] at hacc'
      cases hacc'
      rw [Account.answered_answer, hn.noted e.account account hacc]
      simp
    · next hne =>
      simp [hne, hn.noted ref account' hacc']
  case known =>
    intro e' he'
    rw [History.effects_step, he] at he'
    rw [length_modify]
    rcases List.mem_append.mp he' with he' | he'
    · exact hn.known e' he'
    · rw [List.mem_singleton.mp he']
      exact (List.getElem?_eq_some_iff.mp hacc).1

end Store.Notes

namespace World

/-- Only attempts have effects. -/
theorem effect?_eq_none_of_ne {w : World} {m : Move} (hm : ∀ n, m ≠ .go (.answering n)) :
    w.effect? m = none := by
  unfold effect?
  split
  · next n => exact absurd rfl (hm n)
  · rfl

/-- **Every move keeps the notes.** -/
theorem Moves.notes {w w' : World} {m : Move} {happened : List Occurrence} {h : History}
    (hn : w.store.Notes h) (hstep : w.Moves m w' happened) : w'.store.Notes (h ++ [(w, m)]) := by
  have same (hm : ∀ n, m ≠ .go (.answering n)) : w.store.Notes (h ++ [(w, m)]) :=
    hn.of_quiet (effect?_eq_none_of_ne hm) (Nat.le_refl _) fun _ account hacc =>
      .inl ⟨account, hacc, rfl⟩
  cases hstep with
  | outside _ e' _ hout => exact same (by rintro n rfl; cases hout.isRequest)
  | store change =>
    exact hn.of_quiet rfl (w.store.length_apply_le change) fun _ _ => Store.answered_apply change
  | answering n a ha =>
    have heffect : w.effect? (.go (.answering n)) = a.effect? w.surroundings := by
      simp [effect?, ha]
    rcases (a.steps w.surroundings w.engine.holds).effect_or with
      ⟨hstore, hnone⟩ | ⟨ref, account, hsome, haccount, hstore, -⟩
    · simp only [hstore]
      exact hn.of_quiet (heffect.trans hnone) (Nat.le_refl _) fun _ account hacc =>
        .inl ⟨account, hacc, rfl⟩
    · simp only [hstore]
      exact hn.effect (heffect.trans hsome) haccount
  | _ => exact same (by simp)

theorem Runs.notes {admitted : World → Move → Prop} {config : EngineConfig} {h : History}
    {w : World} (hr : Runs admitted (new config) h w) : w.store.Notes h :=
  hr.keeps (I := fun h w => w.store.Notes h) .empty
    fun _ _ _ w' _ _ hn _ _ hstep => (hstep.notes hn : w'.store.Notes _)

end World

end CallWatch
