import CallWatch.Debounce

/-! # What the debounce does

What comes of a decision that is offered, and of a look at the stop that is held back, case by case.
A debounce that holds nothing back has let the last decision pass; one that holds a stop back holds
the last decision. -/

namespace CallWatch

namespace Debounce

theorem forward_cases (p : Debounce) (d : Decision) :
    p.lastForwarded = some d ∧ p.forward d = (p, none) ∨
      p.lastForwarded ≠ some d ∧ p.forward d = ({ p with lastForwarded := some d }, some d) := by
  by_cases h : p.lastForwarded = some d
  · exact .inl ⟨h, by simp [forward, h]⟩
  · exact .inr ⟨h, by simp [forward, h]⟩

/-- **What comes of a decision that is offered.** A repeated one is dropped, a stop is held back, and
any other passes if it was not the last to do so. -/
theorem offer_cases (p : Debounce) (d : Decision) (now : Nat) :
    p.lastOffered = some d ∧ p.offer d now = (p, none) ∨
      p.lastOffered ≠ some d ∧ d.isStop = true ∧ p.window ≠ 0 ∧ p.offer d now =
        ({ p with lastOffered := some d, pending := some (d, now + p.window) }, none) ∨
      p.lastOffered ≠ some d ∧ (d.isStop = false ∨ p.window = 0) ∧
        p.offer d now = { p with lastOffered := some d, pending := none }.forward d := by
  by_cases hlast : p.lastOffered = some d
  · exact .inl ⟨hlast, by simp [offer, hlast]⟩
  by_cases hd : d.isStop = true
  · by_cases hw : p.window = 0
    · exact .inr (.inr ⟨hlast, .inr hw, by simp [offer, hlast, hw]⟩)
    · exact .inr (.inl ⟨hlast, hd, hw, by simp [offer, hlast, hd, hw]⟩)
  · rw [Bool.not_eq_true] at hd
    exact .inr (.inr ⟨hlast, .inl hd, by simp [offer, hlast, hd]⟩)

/-- What comes of a look at the stop that is held back. -/
theorem fire_cases (p : Debounce) (now : Nat) :
    p.fire now = (p, none) ∧ (∀ d due, p.pending = some (d, due) → now < due) ∨
      ∃ d due, p.pending = some (d, due) ∧ due ≤ now ∧
        p.fire now = { p with pending := none }.forward d := by
  rcases h : p.pending with _ | ⟨d, due⟩
  · exact .inl ⟨by simp [fire, h], by simp⟩
  · by_cases hdue : due ≤ now
    · exact .inr ⟨d, due, rfl, hdue, by simp [fire, h, hdue]⟩
    · refine .inl ⟨by simp [fire, h, hdue], fun d' due' h' => ?_⟩
      cases h'
      omega

/-! ### A sound debounce -/

/-- What is held back is the last decision, and a stop; if nothing is, the last decision passed. -/
structure Sound (p : Debounce) : Prop where
  held : ∀ d due, p.pending = some (d, due) → p.lastOffered = some d ∧ d.isStop = true
  passed : p.pending = none → p.lastForwarded = p.lastOffered

theorem Sound.ofWindow (window : Nat) : (ofWindow window).Sound :=
  ⟨fun _ _ h => (by cases h), fun _ => rfl⟩

@[simp] theorem pending_forward (p : Debounce) (d : Decision) :
    (p.forward d).1.pending = p.pending := by
  rcases p.forward_cases d with ⟨-, h⟩ | ⟨-, h⟩ <;> rw [h]

@[simp] theorem lastOffered_forward (p : Debounce) (d : Decision) :
    (p.forward d).1.lastOffered = p.lastOffered := by
  rcases p.forward_cases d with ⟨-, h⟩ | ⟨-, h⟩ <;> rw [h]

@[simp] theorem lastForwarded_forward (p : Debounce) (d : Decision) :
    (p.forward d).1.lastForwarded = some d := by
  rcases p.forward_cases d with ⟨hd, h⟩ | ⟨-, h⟩
  · rw [h, hd]
  · rw [h]

@[simp] theorem window_forward (p : Debounce) (d : Decision) :
    (p.forward d).1.window = p.window := by
  rcases p.forward_cases d with ⟨-, h⟩ | ⟨-, h⟩ <;> rw [h]

/-- What passes is what was to pass. -/
theorem eq_of_forward {p : Debounce} {d d' : Decision} (h : (p.forward d).2 = some d') : d' = d := by
  rcases p.forward_cases d with ⟨-, hf⟩ | ⟨-, hf⟩ <;> rw [hf] at h <;> cases h
  rfl

theorem Sound.forward {p : Debounce} {d : Decision} (hp : p.pending = none)
    (hd : p.lastOffered = some d) : (p.forward d).1.Sound := by
  refine ⟨fun d' due h => ?_, fun _ => ?_⟩
  · rw [pending_forward, hp] at h
    cases h
  · rw [lastForwarded_forward, lastOffered_forward, hd]

theorem Sound.offer {p : Debounce} (h : p.Sound) (d : Decision) (now : Nat) :
    (p.offer d now).1.Sound := by
  rcases p.offer_cases d now with ⟨-, heq⟩ | ⟨-, hd, -, heq⟩ | ⟨-, -, heq⟩
  · rw [heq]; exact h
  · rw [heq]
    refine ⟨fun d' due h' => ?_, fun h' => by cases h'⟩
    cases h'
    exact ⟨rfl, hd⟩
  · rw [heq]; exact .forward rfl rfl

theorem Sound.fire {p : Debounce} (h : p.Sound) (now : Nat) : (p.fire now).1.Sound := by
  rcases p.fire_cases now with ⟨heq, -⟩ | ⟨d, due, hp, -, heq⟩
  · rw [heq]; exact h
  · rw [heq]; exact .forward rfl (h.held d due hp).1

/-- A stop that is held back passes at the end. -/
theorem flush_cases (p : Debounce) : p.pending = none ∧ p.flush = (p, none) ∨
    ∃ d due, p.pending = some (d, due) ∧ p.flush = { p with pending := none }.forward d := by
  rcases h : p.pending with _ | ⟨d, due⟩
  · exact .inl ⟨rfl, by simp [flush, h]⟩
  · exact .inr ⟨d, due, rfl, by simp [flush, h]⟩

theorem Sound.flush {p : Debounce} (h : p.Sound) : p.flush.1.Sound := by
  rcases p.flush_cases with ⟨-, heq⟩ | ⟨d, due, hp, heq⟩
  · rw [heq]; exact h
  · rw [heq]; exact .forward rfl (h.held d due hp).1

/-- Only what comes in can pass when it does. -/
theorem eq_of_offer {p : Debounce} {d d' : Decision} {now : Nat}
    (h : (p.offer d now).2 = some d') : d' = d := by
  rcases p.offer_cases d now with ⟨-, heq⟩ | ⟨-, -, -, heq⟩ | ⟨-, -, heq⟩
  · rw [heq] at h; cases h
  · rw [heq] at h; cases h
  · rw [heq] at h; exact eq_of_forward h

/-- What was held back is a stop. -/
theorem Sound.isStop_of_fire {p : Debounce} (h : p.Sound) {d : Decision} {now : Nat}
    (hd : (p.fire now).2 = some d) : d.isStop = true := by
  rcases p.fire_cases now with ⟨heq, -⟩ | ⟨d', due, hp, -, heq⟩
  · rw [heq] at hd; cases hd
  · rw [heq] at hd
    rw [eq_of_forward hd]
    exact (h.held d' due hp).2

theorem Sound.isStop_of_flush {p : Debounce} (h : p.Sound) {d : Decision}
    (hd : p.flush.2 = some d) : d.isStop = true := by
  rcases p.flush_cases with ⟨-, heq⟩ | ⟨d', due, hp, heq⟩
  · rw [heq] at hd; cases hd
  · rw [heq] at hd
    rw [eq_of_forward hd]
    exact (h.held d' due hp).2

theorem lastOffered_offer (p : Debounce) (d : Decision) (now : Nat) :
    (p.offer d now).1.lastOffered = some d := by
  rcases p.offer_cases d now with ⟨hd, heq⟩ | ⟨-, -, -, heq⟩ | ⟨-, -, heq⟩
  · rw [heq, hd]
  · rw [heq]
  · rw [heq, lastOffered_forward]

theorem lastOffered_fire (p : Debounce) (now : Nat) : (p.fire now).1.lastOffered = p.lastOffered := by
  rcases p.fire_cases now with ⟨heq, -⟩ | ⟨d, due, -, -, heq⟩
  · rw [heq]
  · rw [heq, lastOffered_forward]

@[simp] theorem window_offer (p : Debounce) (d : Decision) (now : Nat) :
    (p.offer d now).1.window = p.window := by
  rcases p.offer_cases d now with ⟨-, heq⟩ | ⟨-, -, -, heq⟩ | ⟨-, -, heq⟩ <;> simp [heq]

@[simp] theorem window_fire (p : Debounce) (now : Nat) : (p.fire now).1.window = p.window := by
  rcases p.fire_cases now with ⟨heq, -⟩ | ⟨d, due, -, -, heq⟩ <;> simp [heq]

/-! ### What passes -/

theorem forward_passes (p : Debounce) (d : Decision) :
    (p.forward d).1.lastForwarded = (p.forward d).2.or p.lastForwarded := by
  rcases p.forward_cases d with ⟨-, h⟩ | ⟨-, h⟩ <;> rw [h] <;> rfl

/-- What passes when a decision comes in is the last that passed. -/
theorem offer_passes (p : Debounce) (d : Decision) (now : Nat) :
    (p.offer d now).1.lastForwarded = (p.offer d now).2.or p.lastForwarded := by
  rcases p.offer_cases d now with ⟨-, heq⟩ | ⟨-, -, -, heq⟩ | ⟨-, -, heq⟩
  · rw [heq]; rfl
  · rw [heq]; rfl
  · rw [heq, forward_passes]

theorem fire_passes (p : Debounce) (now : Nat) :
    (p.fire now).1.lastForwarded = (p.fire now).2.or p.lastForwarded := by
  rcases p.fire_cases now with ⟨heq, -⟩ | ⟨d, due, -, -, heq⟩
  · rw [heq]; rfl
  · rw [heq, forward_passes]

/-- Whatever is held back is due within a window. -/
def DueBy (p : Debounce) (now : Nat) : Prop :=
  ∀ d due, p.pending = some (d, due) → due ≤ now + p.window

theorem DueBy.later {p : Debounce} {now now' : Nat} (h : p.DueBy now) (hnow : now ≤ now') :
    p.DueBy now' := fun d due hp => Nat.le_trans (h d due hp) (Nat.add_le_add_right hnow _)

theorem DueBy.offer {p : Debounce} {now : Nat} (h : p.DueBy now) (d : Decision) :
    (p.offer d now).1.DueBy now := by
  intro d' due hp
  rw [window_offer]
  rcases p.offer_cases d now with ⟨-, heq⟩ | ⟨-, -, -, heq⟩ | ⟨-, -, heq⟩
  · rw [heq] at hp
    exact h d' due hp
  · rw [heq] at hp
    cases hp
    exact Nat.le_refl _
  · rw [heq, pending_forward] at hp
    cases hp

theorem DueBy.fire {p : Debounce} {now : Nat} (h : p.DueBy now) : (p.fire now).1.DueBy now := by
  intro d' due hp
  rw [window_fire]
  rcases p.fire_cases now with ⟨heq, -⟩ | ⟨d, due', -, -, heq⟩
  · rw [heq] at hp
    exact h d' due hp
  · rw [heq, pending_forward] at hp
    cases hp

end Debounce

end CallWatch
