import CallWatch.Proofs.Queue.Traffic

/-! # No wake-up is lost

A receiver that found nothing sleeps until it is woken. Meanwhile others submit, close, receive, are
kept and are given up, step by step and in any order.

* `Traffic.owed`: the wake-ups for one that are on their way. They are still to be made, or were made
  for somebody who does not know yet, or who knows and has not looked at the buffer since.
* `Orderly`: names are given out once, and who waits is at work or kept.
* `Patient`: while somebody sleeps, there are no more actions in the buffer than wake-ups on their
  way, and a queue that is closed is about to wake everybody.
* `no_wakeup_lost`: where nobody is at work, a kept receiver sleeps for good reason, and finds at its
  next look what there is. -/

namespace CallWatch

namespace Traffic

open Mailbox

variable {t t' : Traffic} {r x : Receiver} {box : Mailbox} {n name : ℕ}

/-! ### Who is at work -/

theorem mem_add : x ∈ (t.add r).receivers ↔ x ∈ t.receivers ∨ x = r := by
  simp [add]

theorem isAtWork_add : (t.add r).IsAtWork name ↔ t.IsAtWork name ∨ name = r.name := by
  simp [IsAtWork, add]

theorem isAtWork_put : (t.put box r).IsAtWork name ↔ t.IsAtWork name := by
  rw [IsAtWork, put, numbers_replaced Receiver.name rfl, IsAtWork]

theorem mem_put (h : x ∈ (t.put box r).receivers) :
    x = r ∨ x ∈ t.receivers ∧ x.name ≠ r.name := mem_replaced h

theorem mem_dismiss :
    x ∈ (t.dismiss box n).receivers ↔ x ∈ t.receivers ∧ x.name ≠ n := by
  rw [dismiss, List.mem_filter, decide_eq_true_iff]

theorem isAtWork_dismiss : (t.dismiss box n).IsAtWork name ↔ t.IsAtWork name ∧ name ≠ n := by
  simp only [IsAtWork, List.mem_map, mem_dismiss]
  constructor
  · rintro ⟨x, ⟨hx, hne⟩, rfl⟩
    exact ⟨⟨x, hx, rfl⟩, hne⟩
  · rintro ⟨⟨x, hx, rfl⟩, hne⟩
    exact ⟨x, ⟨hx, hne⟩, rfl⟩

theorem box_release : t.release.box = { t.box with kept := none } := by
  rcases t.release_cases with ⟨-, heq⟩ | ⟨old, -, -, heq⟩
  · rw [heq]
  · rw [heq]
    rfl

theorem callsForAll_release : t.release.callsForAll = t.callsForAll := by
  rcases t.release_cases with ⟨-, heq⟩ | ⟨old, -, -, heq⟩
  · rw [heq]
  · rw [heq]
    rfl

theorem mem_release_of_mem (h : x ∈ t.receivers) : x ∈ t.release.receivers := by
  rcases t.release_cases with ⟨-, heq⟩ | ⟨old, -, -, heq⟩ <;> rw [heq]
  · exact h
  · exact mem_add.mpr (.inl h)

theorem mem_of_mem_release (h : x ∈ t.release.receivers) : x ∈ t.receivers ∨ x.stage = .goes := by
  rcases t.release_cases with ⟨-, heq⟩ | ⟨old, -, -, heq⟩ <;> rw [heq] at h
  · exact .inl h
  · exact (mem_add.mp h).imp_right (congrArg Receiver.stage)

/-- Names are given out once. A receiver that comes is not in the line yet, whoever is in it is at
work or kept, and nobody owes a look who has looked. -/
structure Orderly (t : Traffic) : Prop where
  receivers : (t.receivers.map (·.name)).Nodup
  line : t.box.line.Nodup
  fresh : t.box.Fresh
  known : ∀ name, t.IsAtWork name → name < t.box.nextName
  newcomer : ∀ r ∈ t.receivers, r.stage = .comes → ¬ t.box.Awaits r.name
  debt : ∀ r ∈ t.receivers, r.owes = true → r.stage = .comes ∨ r.stage = .looks
  attended : ∀ name, t.box.Awaits name → t.IsAtWork name ∨ t.box.kept = some name

namespace Orderly

theorem still_empty (capacity : ℕ) : (still (.empty capacity)).Orderly where
  receivers := List.nodup_nil
  line := List.nodup_nil
  fresh := ⟨by simp [still, Awaits, Mailbox.line, Mailbox.empty], by simp [still, Mailbox.empty]⟩
  known := by simp [still, IsAtWork]
  newcomer := by simp [still]
  debt := by simp [still]
  attended := by simp [still, Awaits, Mailbox.line, Mailbox.empty]

/-- The receivers at work are the same, and so are those that wait. -/
theorem of_eq (h : t.Orderly) (hreceivers : t'.receivers = t.receivers)
    (hline : t'.box.line = t.box.line) (hkept : t'.box.kept = t.box.kept)
    (hnext : t'.box.nextName = t.box.nextName) : t'.Orderly := by
  have hwork (name : ℕ) : t'.IsAtWork name ↔ t.IsAtWork name := by
    rw [IsAtWork, hreceivers, IsAtWork]
  have hawaits (name : ℕ) : t'.box.Awaits name ↔ t.box.Awaits name := by
    rw [Awaits, hline, Awaits]
  constructor
  case receivers => exact hreceivers ▸ h.receivers
  case line => exact hline ▸ h.line
  case fresh =>
    refine ⟨fun name hn => ?_, fun name hk => ?_⟩
    · exact hnext ▸ h.fresh.waiters name ((hawaits name).mp hn)
    · exact hnext ▸ h.fresh.kept name (hkept ▸ hk)
  case known => exact fun name hn => hnext ▸ h.known name ((hwork name).mp hn)
  case newcomer =>
    intro r hr hs hn
    exact h.newcomer r (hreceivers ▸ hr) hs ((hawaits _).mp hn)
  case debt => exact fun r hr => h.debt r (hreceivers ▸ hr)
  case attended =>
    intro name hn
    rw [hwork, hkept]
    exact h.attended name ((hawaits name).mp hn)

/-- A receiver has its turn. -/
theorem put (h : t.Orderly) (hr : t.IsAtWork r.name) (hturn : t.box.Turn r.name box)
    (hcomes : r.stage = .comes → ¬ box.Awaits r.name)
    (hdebt : r.owes = true → r.stage = .comes ∨ r.stage = .looks) : (t.put box r).Orderly := by
  constructor
  case receivers =>
    rw [Traffic.put, numbers_replaced Receiver.name rfl]
    exact h.receivers
  case line => exact hturn.line
  case fresh => exact hturn.fresh h.fresh (h.known _ hr)
  case known =>
    intro name hn
    exact Nat.lt_of_lt_of_eq (h.known name (isAtWork_put.mp hn)) hturn.nextName.symm
  case newcomer =>
    intro x hx hs hn
    rcases mem_put hx with rfl | ⟨hx, hne⟩
    · exact hcomes hs hn
    · exact h.newcomer x hx hs ((hturn.awaits _ hn).resolve_right hne)
  case debt =>
    intro x hx ho
    rcases mem_put hx with rfl | ⟨hx, -⟩
    · exact hdebt ho
    · exact h.debt x hx ho
  case attended =>
    intro name hn
    rw [isAtWork_put]
    by_cases he : name = r.name
    · exact .inl (he ▸ hr)
    · exact (h.attended name ((hturn.awaits name hn).resolve_right he)).imp_right
        (hturn.kept name he).mpr

/-- A receiver has its last turn. If it still waits, it is kept. -/
theorem dismiss (h : t.Orderly) (hn : t.IsAtWork n) (hturn : t.box.Turn n box)
    (hkept : box.Awaits n → box.kept = some n) : (t.dismiss box n).Orderly := by
  constructor
  case receivers =>
    exact h.receivers.sublist (List.filter_sublist.map _)
  case line => exact hturn.line
  case fresh => exact hturn.fresh h.fresh (h.known _ hn)
  case known =>
    intro name hname
    exact Nat.lt_of_lt_of_eq (h.known name (isAtWork_dismiss.mp hname).1) hturn.nextName.symm
  case newcomer =>
    intro x hx hs hw
    obtain ⟨hx, hne⟩ := mem_dismiss.mp hx
    exact h.newcomer x hx hs ((hturn.awaits _ hw).resolve_right hne)
  case debt => exact fun x hx => h.debt x (mem_dismiss.mp hx).1
  case attended =>
    intro name hw
    by_cases he : name = n
    · exact .inr (he ▸ hkept (he ▸ hw))
    · exact (h.attended name ((hturn.awaits name hw).resolve_right he)).imp
        (isAtWork_dismiss.mpr ⟨·, he⟩) (hturn.kept name he).mpr

/-- Another receiver is at work. -/
theorem add (h : t.Orderly) (hnew : ¬ t.IsAtWork r.name) (hknown : r.name < t.box.nextName)
    (hcomes : r.stage = .comes → ¬ t.box.Awaits r.name) (hdebt : r.owes = false) :
    (t.add r).Orderly := by
  constructor
  case receivers =>
    rw [Traffic.add, List.map_append]
    refine List.nodup_append.mpr ⟨h.receivers, List.nodup_singleton _, fun x hx y hy he => hnew ?_⟩
    have hyr : y = r.name := List.mem_singleton.mp hy
    exact hyr ▸ he ▸ hx
  case line => exact h.line
  case fresh => exact h.fresh
  case known =>
    intro name hname
    rcases isAtWork_add.mp hname with hname | rfl
    · exact h.known name hname
    · exact hknown
  case newcomer =>
    intro x hx hs
    rcases mem_add.mp hx with hx | rfl
    · exact h.newcomer x hx hs
    · exact hcomes hs
  case debt =>
    intro x hx ho
    rcases mem_add.mp hx with hx | rfl
    · exact h.debt x hx ho
    · rw [hdebt] at ho
      cases ho
  case attended =>
    intro name hn
    rw [isAtWork_add]
    exact (h.attended name hn).imp_left .inl

/-- A name is passed over. -/
theorem skip (h : t.Orderly) :
    { t with box := { t.box with nextName := t.box.nextName + 1 } }.Orderly where
  receivers := h.receivers
  line := h.line
  fresh := ⟨fun name hn => Nat.lt_succ_of_lt (h.fresh.waiters name hn),
    fun name hk => Nat.lt_succ_of_lt (h.fresh.kept name hk)⟩
  known name hn := Nat.lt_succ_of_lt (h.known name hn)
  newcomer := h.newcomer
  debt := h.debt
  attended := h.attended

/-- A receiver that is at work need not be kept. -/
theorem unkept (h : t.Orderly) (hwork : ∀ name, t.box.kept = some name → t.IsAtWork name) :
    { t with box := { t.box with kept := none } }.Orderly where
  receivers := h.receivers
  line := h.line
  fresh := ⟨h.fresh.waiters, fun _ hk => by cases hk⟩
  known := h.known
  newcomer := h.newcomer
  debt := h.debt
  attended name hn := .inl ((h.attended name hn).elim id (hwork name))

theorem release (h : t.Orderly) : t.release.Orderly := by
  rcases t.release_cases with ⟨hwork, heq⟩ | ⟨old, hk, hold, heq⟩ <;> rw [heq]
  · exact h.unkept hwork
  · have hgoes : (t.add ⟨old, false, false, .goes⟩).Orderly :=
      h.add hold (h.fresh.kept old hk) (by simp) rfl
    refine hgoes.unkept fun name hname => isAtWork_add.mpr (.inr ?_)
    exact Option.some.inj (hname.symm.trans hk)

theorem keep (h : t.Orderly) (hr : r ∈ t.receivers) : (t.keep r.name).Orderly := by
  have hwork : t.release.IsAtWork r.name := List.mem_map_of_mem (mem_release_of_mem hr)
  refine h.release.dismiss hwork ⟨h.release.line, fun _ => .inl, ?_, rfl⟩ fun _ => rfl
  intro name hne
  rw [box_release]
  simp [hne.symm]

/-- A receiver's next step keeps the names in order. -/
theorem works (h : t.Orderly) (hr : r ∈ t.receivers) (hw : t.Works r t') : t'.Orderly := by
  have hwork : t.IsAtWork r.name := List.mem_map_of_mem hr
  cases hw with
  | comes hs => exact h.put hwork (.lineUp h.line (h.newcomer r hr hs)) (by simp) (by simp)
  | finds hs first queue => exact h.put hwork (.letGo h.line queue r.name) (by simp) (by simp)
  | ends => exact h.put hwork (.letGo h.line t.box.queue r.name) (by simp) (by simp)
  | waits => exact h.put hwork (.refl h.line r.name) (by simp) (by simp)
  | stays => exact h.keep hr
  | leaves hs =>
    have hdebt := h.debt r hr
    exact h.put hwork (.refl h.line r.name) (by simp) (by simpa [hs] using hdebt)
  | again =>
    exact h.put hwork (.remove h.line r.name) (fun _ hn => (awaits_remove.mp hn).2 rfl) (by simp)
  | goes =>
    exact h.dismiss hwork (.giveUp h.line r.name) fun hn => absurd rfl (awaits_giveUp.mp hn).2

/-- **Every step keeps the names in order.** -/
theorem steps (h : t.Orderly) (hs : t.Steps t') : t'.Orderly := by
  cases hs with
  | idle => exact h
  | callOne => exact h.of_eq rfl line_wakeOne kept_wakeOne nextName_wakeOne
  | callAll => exact h.of_eq rfl line_wakeAll rfl rfl
  | come stays =>
    exact h.skip.add (fun hn => Nat.lt_irrefl _ (h.known _ hn)) (Nat.lt_succ_self _)
      (fun _ => h.fresh.not_awaits) rfl
  | work r hr t' hw => exact h.works hr hw
  | poll name hk hn => exact h.add hn (h.fresh.kept name hk) (by simp) rfl
  | forget => exact h.release
  | _ => exact h.of_eq rfl rfl rfl rfl

end Orderly

/-! ### Who sleeps -/

/-- The wake-ups for one that are on their way. -/
def owed (t : Traffic) : ℕ := t.callsForOne + t.box.called + t.receivers.countP (·.owes)

/-- A receiver found nothing, and is about to ask or kept. -/
def Waits (t : Traffic) (name : ℕ) : Prop :=
  (∃ r ∈ t.receivers, r.name = name ∧ r.stage = .asks) ∨
    t.box.kept = some name ∧ ¬ t.IsAtWork name

/-- A receiver found nothing, and was not woken. -/
def Sleeps (t : Traffic) (name : ℕ) : Prop := t.box.Dozes name ∧ t.Waits name

/-- While somebody sleeps, there are no more actions in the buffer than wake-ups on their way, and a
queue that is closed is about to wake everybody. -/
def Patient (t : Traffic) : Prop :=
  ∀ name, t.Sleeps name → t.box.queue.items.length ≤ t.owed ∧
    (t.box.queue.closed = true → 0 < t.callsForAll)

theorem owed_add (howes : r.owes = false) : (t.add r).owed = t.owed := by
  simp [owed, add, howes]

theorem owed_release : t.release.owed = t.owed := by
  rcases t.release_cases with ⟨-, heq⟩ | ⟨old, -, -, heq⟩ <;> rw [heq]
  · rfl
  · exact owed_add rfl

theorem owed_put (h : t.Orderly) (hr : r ∈ t.receivers) (hname : x.name = r.name) :
    (t.put box x).owed + t.box.called + r.owes.toNat = t.owed + box.called + x.owes.toNat := by
  have hcount := countP_replaced (y := x) h.receivers hr (·.owes)
  simp only [owed, put, hname]
  omega

theorem owed_dismiss (h : t.Orderly) (hr : r ∈ t.receivers) (howes : r.owes = false) :
    (t.dismiss box r.name).owed + t.box.called = t.owed + box.called := by
  have hcount := countP_removed h.receivers hr (·.owes)
  simp only [howes, Bool.toNat_false] at hcount
  simp only [owed, dismiss]
  omega

/-- A turn that does not end in waiting puts nobody to sleep. -/
theorem sleeps_put (hr : t.IsAtWork r.name) (hturn : t.box.Turn r.name box) (hs : r.stage ≠ .asks)
    (hdozes : ∀ name, box.Dozes name → t.box.Dozes name ∨ name = r.name)
    (h : (t.put box r).Sleeps name) : t.Sleeps name := by
  obtain ⟨hdoze, ⟨x, hx, rfl, hx'⟩ | ⟨hk, hn⟩⟩ := h
  · rcases mem_put hx with rfl | ⟨hx, hne⟩
    · exact absurd hx' hs
    · exact ⟨(hdozes _ hdoze).resolve_right hne, .inl ⟨x, hx, rfl, hx'⟩⟩
  · rw [isAtWork_put] at hn
    have hne : name ≠ r.name := fun he => hn (he ▸ hr)
    exact ⟨(hdozes _ hdoze).resolve_right hne, .inr ⟨(hturn.kept name hne).mp hk, hn⟩⟩

/-- A receiver that takes up its work puts nobody to sleep, unless it was kept and slept before. -/
theorem sleeps_add (hs : r.stage = .asks → t.box.kept = some r.name ∧ ¬ t.IsAtWork r.name)
    (h : (t.add r).Sleeps name) : t.Sleeps name := by
  obtain ⟨hdoze, ⟨x, hx, rfl, hx'⟩ | ⟨hk, hn⟩⟩ := h
  · rcases mem_add.mp hx with hx | rfl
    · exact ⟨hdoze, .inl ⟨x, hx, rfl, hx'⟩⟩
    · exact ⟨hdoze, .inr (hs hx')⟩
  · exact ⟨hdoze, .inr ⟨hk, fun hwork => hn (isAtWork_add.mpr (.inl hwork))⟩⟩

theorem sleeps_giveUp (h : (t.dismiss (t.box.giveUp n) n).Sleeps name) : t.Sleeps name := by
  obtain ⟨hdoze, hwaits⟩ := h
  have hne : name ≠ n := (awaits_giveUp.mp hdoze.awaits).2
  refine ⟨dozes_giveUp hdoze, ?_⟩
  rcases hwaits with ⟨x, hx, rfl, hs⟩ | ⟨hk, hn⟩
  · exact .inl ⟨x, (mem_dismiss.mp hx).1, rfl, hs⟩
  · exact .inr ⟨kept_giveUp ▸ hk, fun hwork => hn (isAtWork_dismiss.mpr ⟨hwork, hne⟩)⟩

theorem sleeps_release (h : t.release.Sleeps name) : t.Sleeps name := by
  obtain ⟨hdoze, hwaits⟩ := h
  rw [Waits, box_release] at hwaits
  rw [box_release] at hdoze
  obtain ⟨x, hx, hname, hs⟩ := hwaits.resolve_right fun hk => by cases hk.1
  refine ⟨hdoze, .inl ⟨x, (mem_of_mem_release hx).resolve_right fun hgoes => ?_, hname, hs⟩⟩
  rw [hs] at hgoes
  cases hgoes

/-- Who is kept slept before. -/
theorem sleeps_keep (hr : r ∈ t.receivers) (hs : r.stage = .asks)
    (h : (t.keep r.name).Sleeps name) : t.Sleeps name := by
  obtain ⟨hdoze, ⟨x, hx, hname, hx'⟩ | ⟨hk, -⟩⟩ := h
  · exact sleeps_release ⟨hdoze, .inl ⟨x, (mem_dismiss.mp hx).1, hname, hx'⟩⟩
  · have hdoze' : t.release.box.Dozes name := hdoze
    rw [box_release] at hdoze'
    exact ⟨hdoze', .inl ⟨r, hr, Option.some.inj hk, hs⟩⟩

theorem owed_keep (h : t.Orderly) (hr : r ∈ t.receivers) (howes : r.owes = false) :
    (t.keep r.name).owed = t.owed := by
  have hdismiss : (t.keep r.name).owed + t.release.box.called =
      t.release.owed + t.release.box.called :=
    owed_dismiss h.release (mem_release_of_mem hr) howes
  exact (Nat.add_right_cancel hdismiss).trans owed_release

namespace Patient

theorem of_sleeps (h : t.Patient)
    (hs : ∀ name, t'.Sleeps name → t.Sleeps name ∧
      t'.box.queue.items.length + t.owed ≤ t.box.queue.items.length + t'.owed)
    (hclosed : t'.box.queue.closed = true → t.box.queue.closed = true)
    (hcalls : t.callsForAll ≤ t'.callsForAll) : t'.Patient := by
  intro name hname
  obtain ⟨hsleeps, hitems⟩ := hs name hname
  obtain ⟨howed, hcall⟩ := h name hsleeps
  exact ⟨by omega, fun hc => Nat.lt_of_lt_of_le (hcall (hclosed hc)) hcalls⟩

/-- A turn that does not end in waiting takes as many actions as wake-ups at least. -/
theorem put (h : t.Patient) (ho : t.Orderly) (hr : r ∈ t.receivers) (hname : x.name = r.name)
    (hturn : t.box.Turn r.name box) (hs : x.stage ≠ .asks)
    (hdozes : ∀ name, box.Dozes name → t.box.Dozes name ∨ name = r.name)
    (hclosed : box.queue.closed = t.box.queue.closed)
    (hitems : box.queue.items.length + t.box.called + r.owes.toNat ≤
      t.box.queue.items.length + box.called + x.owes.toNat) : (t.put box x).Patient := by
  have hwork : t.IsAtWork x.name := hname ▸ List.mem_map_of_mem hr
  have howed : (t.put box x).owed + t.box.called + r.owes.toNat =
      t.owed + box.called + x.owes.toNat := owed_put ho hr hname
  rw [← hname] at hturn hdozes
  refine h.of_sleeps (fun name hsleeps => ⟨sleeps_put hwork hturn hs hdozes hsleeps, ?_⟩)
    (fun hc => hclosed ▸ hc) (Nat.le_refl _)
  have hbox : (t.put box x).box = box := rfl
  rw [hbox]
  omega

theorem add (h : t.Patient)
    (hs : r.stage = .asks → t.box.kept = some r.name ∧ ¬ t.IsAtWork r.name)
    (howes : r.owes = false) : (t.add r).Patient := by
  refine h.of_sleeps (fun name hname => ⟨sleeps_add hs hname, ?_⟩) id (Nat.le_refl _)
  rw [owed_add howes]
  exact Nat.le_refl _

theorem release (h : t.Patient) : t.release.Patient := by
  refine h.of_sleeps (fun name hname => ⟨sleeps_release hname, ?_⟩) ?_ ?_
  · rw [owed_release, box_release]
  · rw [box_release]
    exact id
  · rw [callsForAll_release]

/-- A receiver's next step leaves the others patient. -/
theorem works (h : t.Patient) (ho : t.Orderly) (hr : r ∈ t.receivers) (hw : t.Works r t') :
    t'.Patient := by
  have hwork : t.IsAtWork r.name := List.mem_map_of_mem hr
  have hdebt (hs : r.stage = .asks ∨ r.stage = .goes) : r.owes = false := by
    have hlooks := ho.debt r hr
    rcases hs with hs | hs <;> simpa [hs] using hlooks
  have hempty {n : ℕ} (hitems : t.box.queue.items = []) : t.box.queue.items.length ≤ n := by
    rw [hitems]
    exact Nat.zero_le n
  cases hw with
  | comes hs =>
    refine h.put ho hr rfl (.lineUp ho.line (ho.newcomer r hr hs)) (by simp)
      (fun _ => dozes_lineUp) ?_ ?_
    · rw [queue_lineUp]
    · rw [queue_lineUp, called_lineUp]
  | finds hs first queue hq =>
    obtain ⟨hitems, hclosed⟩ := ActionQueue.of_pop hq
    refine h.put ho hr rfl (.letGo ho.line queue r.name) (by simp) (fun _ => .inl) hclosed ?_
    have hone := r.owes.toNat_le
    have hlength : t.box.queue.items.length = queue.items.length + 1 := by
      rw [hitems, List.length_cons]
    have hcalled : ({ t.box with queue }.letGo r.name).called = t.box.called := rfl
    have hqueue : ({ t.box with queue }.letGo r.name).queue = queue := rfl
    rw [hcalled, hqueue, hlength, Bool.toNat_false]
    omega
  | ends hs hq =>
    -- The buffer is empty, whatever is on its way.
    intro name hname
    have hsleeps : t.Sleeps name :=
      sleeps_put (r := { r with owes := false, stage := .goes }) hwork (.letGo ho.line _ r.name)
        (by simp) (fun _ => .inl) hname
    exact ⟨hempty (ActionQueue.items_of_pop_eq_none hq), (h name hsleeps).2⟩
  | waits hs hq hopen =>
    refine fun name _ => ⟨hempty (ActionQueue.items_of_pop_eq_none hq), fun hc => ?_⟩
    exact absurd (hopen.symm.trans hc) (by decide)
  | stays hs =>
    have hbox : (t.keep r.name).box.queue = t.release.box.queue := rfl
    rw [box_release] at hbox
    refine h.of_sleeps (fun name hname => ⟨sleeps_keep hr hs hname, ?_⟩) (fun hc => hbox ▸ hc)
      (Nat.le_of_eq callsForAll_release.symm)
    rw [owed_keep ho hr (hdebt (.inl hs)), hbox]
  | leaves hs =>
    exact h.put ho hr rfl (.refl ho.line r.name) (by simp) (fun _ => .inl) rfl (Nat.le_refl _)
  | again hs =>
    have hcalled := called_remove (n := r.name) ho.line
    refine h.put ho hr rfl (.remove ho.line r.name) (by simp) (fun _ hn => .inl (dozes_remove hn))
      rfl ?_
    rw [hdebt (.inl hs), queue_remove, Bool.toNat_false]
    dsimp only
    omega
  | goes hs =>
    have hbox : (t.dismiss (t.box.giveUp r.name) r.name).box.queue = t.box.queue := queue_giveUp _ _
    refine h.of_sleeps (fun name hname => ⟨sleeps_giveUp hname, ?_⟩) (fun hc => hbox ▸ hc)
      (Nat.le_refl _)
    have howed : (t.dismiss (t.box.giveUp r.name) r.name).owed + t.box.called =
        t.owed + (t.box.giveUp r.name).called := owed_dismiss ho hr (hdebt (.inr hs))
    have hcalled : (t.box.giveUp r.name).called = t.box.called := called_giveUp ho.line hname.1
    rw [hbox]
    omega

/-- **Every step leaves those patient who sleep.** -/
theorem steps (h : t.Patient) (ho : t.Orderly) (hs : t.Steps t') : t'.Patient := by
  cases hs with
  | idle => exact h
  | accept a hopen =>
    refine h.of_sleeps (fun name hname => ⟨hname, ?_⟩) id (Nat.le_refl _)
    have hitems := ActionQueue.length_buffer t.box.queue (t.box.queue.ticket, a)
    simp only [owed, called, ActionQueue.issue]
    omega
  | discard => exact h
  | shut => exact fun name hname => ⟨(h name hname).1, fun _ => Nat.succ_pos _⟩
  | callOne calls hcalls =>
    have hsleeps (name : ℕ)
        (hname : ({ t with box := t.box.wakeOne, callsForOne := calls } : Traffic).Sleeps name) :
        t.Sleeps name := by
      refine ⟨dozes_wakeOne hname.1, hname.2.imp_right fun hk => ?_⟩
      exact ⟨kept_wakeOne ▸ hk.1, hk.2⟩
    refine h.of_sleeps (fun name hname => ⟨hsleeps name hname, ?_⟩) ?_ (Nat.le_refl _)
    · have hcalled := called_wakeOne (hsleeps name hname).1
      simp only [owed, queue_wakeOne]
      omega
    · rw [queue_wakeOne]
      exact id
  | callAll => exact fun name hname => absurd hname.1 not_dozes_wakeAll
  | come stays =>
    have hskip : { t with box := { t.box with nextName := t.box.nextName + 1 } }.Patient := h
    exact hskip.add (by simp) rfl
  | work r hr t' hw => exact h.works ho hr hw
  | poll name hk hn => exact h.add (fun _ => ⟨hk, hn⟩) rfl
  | forget => exact h.release

end Patient

/-! ### At rest -/

/-- The invariants hold along every run. -/
theorem steady_run (capacity : ℕ) (steps : List TrafficStep) :
    ((still (.empty capacity)).run steps).Orderly ∧
      ((still (.empty capacity)).run steps).Patient := by
  induction steps using List.reverseRecOn with
  | nil => exact ⟨.still_empty capacity, fun _ hname => by cases hname.1⟩
  | append_singleton steps s ih =>
    have hrun : (still (.empty capacity)).run (steps ++ [s]) =
        ((still (.empty capacity)).run steps).step s := List.foldl_concat ..
    rw [hrun]
    exact ⟨ih.1.steps (Traffic.steps _ s), ih.2.steps ih.1 (Traffic.steps _ s)⟩

end Traffic

namespace Mailbox

/-- A kept receiver sleeps for good reason, and finds at its next look what there is. -/
structure Attentive (m : Mailbox) : Prop where
  sleeps : ∀ name, m.kept = some name → m.signal? name = some .none →
    m.queue.items = [] ∧ m.queue.closed = false
  delivers : ∀ name ticket action rest, m.kept = some name →
    m.queue.items = (ticket, action) :: rest → m.poll.1 = some (.action ticket action)
  ends : ∀ name, m.kept = some name → m.queue.items = [] → m.queue.closed = true →
    m.poll.1 = some .closed

theorem poll_of_woken {name : ℕ} {m : Mailbox} (hk : m.kept = some name)
    (hs : m.signal? name ≠ some .none) : m.poll.1 = some ((m.remove name).receive name).1 := by
  simp [poll, hk]

/-- A receiver that sleeps for good reason finds what there is. -/
theorem attentive_of_sleeps {m : Mailbox}
    (h : ∀ name, m.kept = some name → m.signal? name = some .none →
      m.queue.items = [] ∧ m.queue.closed = false) : m.Attentive where
  sleeps := h
  delivers name ticket action rest hk hitems := by
    have hs : m.signal? name ≠ some .none := fun hs => by
      have hempty := (h name hk hs).1
      rw [hitems] at hempty
      cases hempty
    rw [poll_of_woken hk hs]
    simp [receive, look, ActionQueue.pop, hitems]
  ends name hk hitems hc := by
    have hs : m.signal? name ≠ some .none := fun hs => by
      have hopen := (h name hk hs).2
      rw [hc] at hopen
      cases hopen
    rw [poll_of_woken hk hs]
    simp [receive, look, ActionQueue.pop, hitems, hc]

end Mailbox

namespace Traffic

open Mailbox

variable {t : Traffic}

/-- Where nobody is at work, whoever waits is the kept receiver. While it sleeps no wake-up is on its
way. -/
theorem owed_of_atRest (ho : t.Orderly) (hrest : t.AtRest)
    (hs : ∀ name, t.box.kept = some name → t.box.signal? name = some .none) : t.owed = 0 := by
  obtain ⟨hreceivers, hone, -⟩ := hrest
  have hcalled : t.box.called = 0 := by
    refine List.countP_eq_zero.mpr fun w hw => ?_
    have hkept : t.box.kept = some w.name := by
      refine (ho.attended w.name (List.mem_map_of_mem hw)).resolve_left ?_
      rw [IsAtWork, hreceivers]
      exact List.not_mem_nil
    have hsig := (signal?_of_mem ho.line hw).symm.trans (hs w.name hkept)
    simp [Option.some.inj hsig]
  rw [owed, hone, hcalled, hreceivers]
  rfl

theorem attentive_of_atRest (ho : t.Orderly) (hp : t.Patient) (hrest : t.AtRest) :
    t.box.Attentive := by
  refine attentive_of_sleeps fun name hk hs => ?_
  have hwork : ¬ t.IsAtWork name := by
    rw [IsAtWork, hrest.1]
    exact List.not_mem_nil
  obtain ⟨hitems, hcall⟩ := hp name ⟨dozes_of_signal? hs, .inr ⟨hk, hwork⟩⟩
  have howed : t.owed = 0 :=
    owed_of_atRest ho hrest fun other hother => Option.some.inj (hother.symm.trans hk) ▸ hs
  refine ⟨List.length_eq_zero_iff.mp (Nat.le_zero.mp (howed ▸ hitems)), ?_⟩
  by_contra hclosed
  have hpos := hcall (Bool.not_eq_false _ ▸ hclosed)
  rw [hrest.2.2] at hpos
  exact Nat.lt_irrefl 0 hpos

/-- What is done in one go can be done in steps, as often as one likes. -/
theorem leads_performAll (capacity : ℕ) (requests : List MailboxRequest) :
    (still (.empty capacity)).Leads (still ((Mailbox.empty capacity).performAll requests)) := by
  induction requests using List.reverseRecOn with
  | nil => exact .refl _
  | append_singleton requests r ih =>
    have hperform : (Mailbox.empty capacity).performAll (requests ++ [r]) =
        ((Mailbox.empty capacity).performAll requests).perform r := List.foldl_concat ..
    have hfresh : ((Mailbox.empty capacity).performAll requests).Fresh := by
      obtain ⟨steps, hsteps⟩ := ih
      have ho := (steady_run capacity steps).1
      rw [hsteps] at ho
      exact ho.fresh
    rw [hperform]
    exact ih.trans (leads_perform hfresh r)

/-- **No wake-up is lost.** Receivers come, are kept, looked after and given up, actions are submitted
and the queue is closed, in steps of several at once and in any order:

* while a receiver that found nothing sleeps, there are no more actions in the buffer than wake-ups
  on their way, and a queue that is closed is about to wake everybody;
* where nobody is at work, a kept receiver that was not woken means that the buffer is empty and the
  queue is not closed, and otherwise the kept receiver's next look finds the oldest action, or the
  end;
* where everything is done in one go, one thing after the other, the same holds in between. -/
theorem no_wakeup_lost (capacity : ℕ) :
    (∀ steps, let t := (still (.empty capacity)).run steps
      (∀ name, t.Sleeps name → t.box.queue.items.length ≤ t.owed ∧
        (t.box.queue.closed = true → 0 < t.callsForAll)) ∧
      (t.AtRest → t.box.Attentive)) ∧
    ∀ requests, ((Mailbox.empty capacity).performAll requests).Attentive := by
  have hrest (steps : List TrafficStep) :
      ((still (.empty capacity)).run steps).AtRest →
        ((still (.empty capacity)).run steps).box.Attentive :=
    attentive_of_atRest (steady_run capacity steps).1 (steady_run capacity steps).2
  refine ⟨fun steps => ⟨(steady_run capacity steps).2, hrest steps⟩, fun requests => ?_⟩
  obtain ⟨steps, hsteps⟩ := leads_performAll capacity requests
  have h := hrest steps
  rw [hsteps] at h
  exact h ⟨rfl, rfl, rfl⟩

/-- A receiver is kept. Another one takes the action for which it was woken, so it looks in vain, and
is woken for the next action. -/
def overtaken : List MailboxRequest :=
  [.wait, .enqueue .stop, .receiveOnce, .poll, .enqueue (.start .default)]

theorem no_wakeup_lost_overtaken :
    let m := (Mailbox.empty 1).performAll overtaken
    m.kept = some 0 ∧ m.poll.1 = some (.action ⟨2⟩ (.start .default)) := by
  intro m
  have hattentive : m.Attentive := (no_wakeup_lost 1).2 overtaken
  exact ⟨by decide, hattentive.delivers 0 ⟨2⟩ _ [] (by decide) (by decide)⟩

/-- In between, a receiver may sleep in front of an action, whose wake-up is still to be made. -/
example :
    let t := (still (.empty 1)).run [.come true, .work 0, .work 0, .work 0, .submit .stop]
    t.box.kept = some 0 ∧ t.box.signal? 0 = some .none ∧ t.box.queue.items.length = 1 ∧
      t.owed = 1 := by
  decide

end Traffic

end CallWatch
