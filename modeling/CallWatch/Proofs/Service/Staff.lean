import CallWatch.Proofs.Service.Hosting

/-! # What can happen to the services

`Hosting.Moves` lists what can happen to the services and their observers, the *staff*, together with
the world around them, the start command and the record. `Staff.Orderly` is what all of it keeps: who
observes for whom, and that an observer goes on exactly as long as its service is not cancelled. -/

namespace CallWatch

/-! ### The cases -/

/-- The services and observers that there are, and how many there were. -/
structure Staff where
  instances : List CallService
  observers : List Observer
  services : Nat

namespace Staff

/-- A service was built. -/
def hire (t : Staff) : Staff :=
  { t with instances := t.instances ++ [⟨t.services, false, none⟩], services := t.services + 1 }

/-- A service began to observe. -/
def subscribe (t : Staff) (s : CallService) (ticket : Ticket) : Staff where
  instances := CallService.put s.number (some { s with observer := some t.services }) t.instances
  observers := t.observers ++ [⟨t.services, s.number, .startingAt ticket, s.cancelled⟩]
  services := t.services + 1

/-- A service ended, with everything that it began. -/
def dismiss (t : Staff) (k : Nat) (after : Option CallService) : Staff :=
  { t with
    instances := CallService.put k after t.instances
    observers := t.observers.map fun o => if o.service = k then { o with cancelled := true } else o }

/-- An observer with a number looked, or went away. -/
def putObserver (t : Staff) (n : Nat) (after : Option Observer) : Staff :=
  { t with observers := match after with
    | some o => t.observers.map fun p => if p.number = n then o else p
    | none => t.observers.filter (·.number != n) }

end Staff

namespace Hosting

/-- The services and observers that there are. -/
def staff (h : Hosting) : Staff := ⟨h.instances, h.machine.observers, h.machine.services⟩

/-- Everything that can happen to the world, the staff, the start command and the record. -/
inductive Moves (h : Hosting) : World → Staff → Option StartCommand → HostRecord → Prop
  /-- Nothing that concerns anybody. -/
  | same : Moves h h.world h.staff h.command h.record
  | around (m) (ha : h.world.allows m = true) (hr : m = .release → h.instances = []) :
      Moves h (h.world.after m) h.staff h.command h.record
  | build (hc : h.command = none) (hr : h.world.engine.released = false) :
      Moves h h.world h.staff.hire none h.record
  | begin (s action) (hs : s ∈ h.staff.instances) (hc : h.command = none) :
      Moves h h.world h.staff (some (.shown s.number action)) (h.record ++ [.shown s.number])
  | submit (k action) (hc : h.command = some (.shown k action)) :
      Moves h (h.world.after (.submit (action.getD (.start .default)))) h.staff
        (some (.submitted k h.world.engine.queue.ticket))
        (h.record ++ [.submitted k h.world.engine.queue.ticket])
  /-- The first subscription of a service. -/
  | subscribe (s ticket) (hs : s ∈ h.staff.instances)
      (hc : h.command = some (.submitted s.number ticket)) (ho : s.observer = none) :
      Moves h h.world (h.staff.subscribe s ticket) none h.record
  /-- A service that observes already. -/
  | subscribed (s ticket) (hs : s ∈ h.staff.instances)
      (hc : h.command = some (.submitted s.number ticket)) (ho : s.observer ≠ none) :
      Moves h h.world h.staff none h.record
  /-- A service is destroyed or dropped. -/
  | dismiss (s after) (hs : s ∈ h.staff.instances) (hc : h.command = none)
      (ha : ∀ s' ∈ after, s'.number = s.number ∧ s'.cancelled = true) :
      Moves h h.world (h.staff.dismiss s.number after) none (h.record ++ [.ended s.number])
  /-- An observer looks and goes on. -/
  | look (o) (ho : o ∈ h.staff.observers) (hc : o.cancelled = false) :
      Moves h h.world
        (h.staff.putObserver o.number (some
          { o with stream := (o.stream.poll h.world.engine.slot h.world.engine.slotGiven).2 }))
        h.command
        (h.record ++ ((o.stream.poll h.world.engine.slot h.world.engine.slotGiven).1.item?.toList.map
          (.mirrored o.service ·)))
  /-- An observer is at its end. -/
  | leave (o) (ho : o ∈ h.staff.observers)
      (hend : o.cancelled = true ∨ h.world.engine.slotGiven = false) :
      Moves h h.world (h.staff.putObserver o.number none) h.command h.record

end Hosting

/-! ### They are all -/

/-- A stream of decisions ends only when the slot is given up. -/
theorem DecisionStream.given_of_ended {d : DecisionStream} {slot : Slot} {given : Bool}
    (h : (d.poll slot given).1 = .ended) : given = false := by
  cases given with
  | false => rfl
  | true =>
    unfold poll at h
    split at h
    · split at h <;> simp at h
    · simp at h

namespace Hosting

/-- What becomes of the staff when an observer looks. -/
theorem staff_poll {h : Hosting} {o : Observer} (ho : h.machine.observer? o.number = some o)
    {after : Option Observer} {found : Option Published}
    (hs : o.step h.world.engine.slot h.world.engine.slotGiven = (after, found)) :
    (h.move (.poll o.number)).staff = h.staff.putObserver o.number after := by
  replace hs : o.step h.machine.engine.slot h.machine.engine.slotGiven = (after, found) := hs
  simp only [move, staff, Machine.stepObserver, ho, hs]
  cases found <;> rfl

theorem moves_poll (h : Hosting) (n : Nat) :
    h.Moves (h.move (.poll n)).world (h.move (.poll n)).staff (h.move (.poll n)).command
      (h.move (.poll n)).record := by
  rcases ho : h.machine.observer? n with _ | o
  · have hsame : h.move (.poll n) = h := by
      simp [move, Machine.stepObserver, passedOn, ho]
    rw [hsame]
    exact .same
  obtain ⟨hmem, rfl⟩ := mem_of_found ho
  have hworld : (h.move (.poll o.number)).world = h.world := by
    simp only [move, Machine.stepObserver, ho, world, Machine.world]
    split <;> rfl
  have hcommand : (h.move (.poll o.number)).command = h.command := rfl
  have hrecord : (h.move (.poll o.number)).record =
      h.record ++ (o.step h.world.engine.slot h.world.engine.slotGiven).2.toList.map
        (.mirrored o.service ·) := by
    simp only [move, passedOn, ho]
    rfl
  rw [hworld, hcommand, hrecord]
  rcases hc : o.cancelled with _ | _
  · have hlook := Moves.look o hmem hc
    rcases hpoll : o.stream.poll h.world.engine.slot h.world.engine.slotGiven with ⟨p | _ | _, d⟩
    · have hstep : o.step h.world.engine.slot h.world.engine.slotGiven =
          (some { o with stream := d }, some p) := by simp [Observer.step, hc, hpoll]
      rw [staff_poll ho hstep, hstep]
      simpa [hpoll, Look.item?] using hlook
    · have hstep : o.step h.world.engine.slot h.world.engine.slotGiven = (none, none) := by
        simp [Observer.step, hc, hpoll]
      have hgiven := DecisionStream.given_of_ended (congrArg Prod.fst hpoll)
      rw [staff_poll ho hstep, hstep]
      simpa using Moves.leave o hmem (.inr hgiven)
    · have hstep : o.step h.world.engine.slot h.world.engine.slotGiven =
          (some { o with stream := d }, none) := by simp [Observer.step, hc, hpoll]
      rw [staff_poll ho hstep, hstep]
      simpa [hpoll, Look.item?] using hlook
  · have hstep : o.step h.world.engine.slot h.world.engine.slotGiven = (none, none) := by
      simp [Observer.step, hc]
    rw [staff_poll ho hstep, hstep]
    simpa using Moves.leave o hmem (.inl hc)

/-- A call of a service is one of the cases if what it makes of the service is one. -/
theorem moves_call {h : Hosting} {k : Nat} {f : CallService → Machine → Machine}
    {command : Option StartCommand} {happened : HostRecord}
    (hcall : ∀ s, h.instance? k = some s → ∀ m, m = f s { h.machine with service := some s } →
      h.Moves (m.world h.chronicle) ⟨CallService.put k m.service h.instances, m.observers, m.services⟩
        command (h.record ++ happened)) :
    h.Moves (h.call k f command happened).world (h.call k f command happened).staff
      (h.call k f command happened).command (h.call k f command happened).record := by
  rcases hs : h.instance? k with _ | s
  · rw [call, hs]
    exact .same
  · rw [call_of_some hs]
    exact hcall s hs _ rfl

/-- **Everything that can happen is one of the cases.** -/
theorem moves {h : Hosting} (hn : (h.instances.map (·.number)).Nodup)
    (horch : h.machine.orchestrator = .engine) {m : HostMove} (ha : h.allows m = true) :
    h.Moves (h.move m).world (h.move m).staff (h.move m).command (h.move m).record := by
  have self {k s} (hs : h.instance? k = some s) :
      CallService.put k (some s) h.instances = h.instances := by
    obtain ⟨hmem, rfl⟩ := mem_of_found hs
    exact replaced_self hn hmem
  rcases m with m | _ | k | ⟨k, action⟩ | _ | _ | k | k | n
  · refine .around m ?_ ?_
    · cases m <;> first | rfl | exact ha
    · rintro rfl
      simpa [allows] using ha
  · have ⟨hc, hr⟩ : h.command = none ∧ h.machine.engine.released = false := by
      simpa [allows] using ha
    rw [show (h.move .build).command = none from hc]
    exact .build hc hr
  · have hc : h.command = none := by simpa [allows] using ha
    refine moves_call fun s hs m hm => ?_
    obtain rfl := hm
    have hsame := Moves.same (h := h)
    rw [hc] at hsame
    simp only [Machine.onCreate, self hs, List.append_nil]
    exact hsame
  · have hc : h.command = none := by simpa [allows] using ha
    refine moves_call fun s hs m hm => ?_
    obtain ⟨hmem, rfl⟩ := mem_of_found hs
    obtain rfl := hm
    simp only [Machine.showPlaceholder, Machine.tell, self hs]
    exact .begin s action hmem hc
  · rcases hc : h.command with _ | ⟨k, action⟩ | ⟨k, t⟩
    · simp only [move, hc]
      exact hc ▸ .same
    · simp only [move, hc, Machine.submit_of_engine horch]
      exact .submit k action hc
    · simp only [move, hc]
      exact hc ▸ .same
  · rcases hc : h.command with _ | ⟨k, action⟩ | ⟨k, t⟩
    · simp only [move, hc]
      exact hc ▸ .same
    · simp only [move, hc]
      exact hc ▸ .same
    · simp only [move, hc]
      refine moves_call fun s hs m hm => ?_
      obtain ⟨hmem, rfl⟩ := mem_of_found hs
      obtain rfl := hm
      rcases ho : s.observer with _ | n
      · simp only [Machine.observe, ho, List.append_nil]
        exact .subscribe s t hmem hc ho
      · simp only [Machine.observe, ho, List.append_nil, self hs]
        exact .subscribed s t hmem hc (by simp [ho])
  · have hc : h.command = none := by simpa [allows] using ha
    refine moves_call fun s hs m hm => ?_
    obtain ⟨hmem, rfl⟩ := mem_of_found hs
    obtain rfl := hm
    exact .dismiss s (some { s with cancelled := true, observer := none }) hmem hc
      (by rintro _ ⟨⟩; exact ⟨rfl, rfl⟩)
  · have hc : h.command = none := by simpa [allows] using ha
    refine moves_call fun s hs m hm => ?_
    obtain ⟨hmem, rfl⟩ := mem_of_found hs
    obtain rfl := hm
    exact .dismiss s none hmem hc (by simp)
  · exact moves_poll h n

end Hosting

/-! ### What the host is told -/

/-- The machine told the host this and changed nothing about who takes the actions. -/
structure Machine.Tells (m m' : Machine) (events : List HostEvent) : Prop where
  orchestrator : m'.orchestrator = m.orchestrator
  told : m'.told.map (·.2) = m.told.map (·.2) ++ events

namespace Machine

theorem Tells.quiet {m m' : Machine} (ho : m'.orchestrator = m.orchestrator)
    (ht : m'.told = m.told) : m.Tells m' [] := ⟨ho, by rw [ht, List.append_nil]⟩

theorem tells_observe (m : Machine) (s : CallService) (ticket : Ticket) :
    m.Tells (m.observe s ticket) [] := by
  unfold observe
  split <;> exact .quiet rfl rfl

theorem tells_dropService (m : Machine) : m.Tells m.dropService [] := by
  unfold dropService
  split <;> exact .quiet rfl rfl

/-- What an observer passes on is told. -/
theorem tells_stepObserver {m : Machine} {n : Nat} {o : Observer} (ho : m.observer? n = some o) :
    m.Tells (m.stepObserver n)
      ((o.step m.engine.slot m.engine.slotGiven).2.toList.map fun p => .ofResult p.result) := by
  rcases hs : o.step m.engine.slot m.engine.slotGiven with ⟨after, found⟩
  rw [stepObserver, ho]
  simp only [hs]
  rcases found with _ | p
  · exact .quiet rfl rfl
  · exact ⟨rfl, List.map_append⟩

end Machine

namespace Hosting

theorem tells_call {h : Hosting} {k : Nat} {f : CallService → Machine → Machine}
    {command : Option StartCommand} {happened : HostRecord}
    (hf : ∀ s (m : Machine), m.Tells (f s m) (happened.filterMap (·.event?))) :
    ∃ new, (h.call k f command happened).record = h.record ++ new ∧
      h.machine.Tells (h.call k f command happened).machine (new.filterMap (·.event?)) := by
  rcases hs : h.instance? k with _ | s
  · rw [call, hs]
    exact ⟨[], (List.append_nil _).symm, .quiet rfl rfl⟩
  · rw [call_of_some hs]
    have hcall := hf s { h.machine with service := some s }
    exact ⟨happened, rfl, hcall.orchestrator, hcall.told⟩

/-- **What the host is told is what is recorded.** -/
theorem tells_move {h : Hosting} (ho : h.machine.orchestrator = .engine) (m : HostMove) :
    ∃ new, (h.move m).record = h.record ++ new ∧
      h.machine.Tells (h.move m).machine (new.filterMap (·.event?)) := by
  have quiet {h' : Hosting} (hrecord : h'.record = h.record)
      (horch : h'.machine.orchestrator = h.machine.orchestrator)
      (htold : h'.machine.told = h.machine.told) : ∃ new, h'.record = h.record ++ new ∧
        h.machine.Tells h'.machine (new.filterMap (·.event?)) :=
    ⟨[], by rw [hrecord, List.append_nil], .quiet horch htold⟩
  rcases m with m | _ | k | ⟨k, action⟩ | _ | _ | k | k | n
  · exact quiet rfl rfl rfl
  · exact quiet rfl rfl rfl
  · exact tells_call fun s m => .quiet rfl rfl
  · exact tells_call fun s m => ⟨rfl, List.map_append⟩
  · rcases hc : h.command with _ | ⟨k, action⟩ | ⟨k, t⟩ <;> simp only [move, hc]
    · exact quiet rfl rfl rfl
    · rw [Machine.submit_of_engine ho]
      exact ⟨_, rfl, .quiet rfl rfl⟩
    · exact quiet rfl rfl rfl
  · rcases hc : h.command with _ | ⟨k, action⟩ | ⟨k, t⟩ <;> simp only [move, hc]
    · exact quiet rfl rfl rfl
    · exact quiet rfl rfl rfl
    · exact tells_call fun s m => m.tells_observe s t
  · exact tells_call fun s m => .quiet rfl rfl
  · exact tells_call fun s m => m.tells_dropService
  · rcases ho : h.machine.observer? n with _ | o
    · exact ⟨[], by simp [move, passedOn, ho], .quiet (by simp [move, Machine.stepObserver, ho])
        (by simp [move, Machine.stepObserver, ho])⟩
    · refine ⟨h.passedOn n, rfl, ?_⟩
      have htells := Machine.tells_stepObserver ho
      have hpassed : (h.passedOn n).filterMap (·.event?) =
          (o.step h.machine.engine.slot h.machine.engine.slotGiven).2.toList.map
            fun p => .ofResult p.result := by
        simp [passedOn, ho, List.filterMap_map, HostOccurrence.event?]
      rw [hpassed]
      exact htells

end Hosting

namespace CallService

variable {k : Nat} {after : Option CallService} {all : List CallService} {x : CallService}

theorem mem_put (h : x ∈ put k after all) : x ∈ after ∨ x ∈ all ∧ x.number ≠ k := by
  rcases after with _ | s
  · exact .inr (by simpa [put] using h)
  · rcases mem_replaced h with rfl | hx
    · exact .inl rfl
    · exact .inr hx

theorem mem_put_of_ne (after : Option CallService) (h : x ∈ all) (hne : x.number ≠ k) :
    x ∈ put k after all := by
  rcases after with _ | s
  · simp [put, h, hne]
  · exact List.mem_map.mpr ⟨x, h, by simp [hne]⟩

theorem mem_put_self {s : CallService} (h : x ∈ all) (hx : x.number = k) :
    s ∈ put k (some s) all := List.mem_map.mpr ⟨x, h, by simp [hx]⟩

/-- The numbers are as before, or one is missing. -/
theorem numbers_put (after : Option CallService) (all : List CallService)
    (h : ∀ s ∈ after, s.number = k) :
    ((put k after all).map (·.number)).Sublist (all.map (·.number)) := by
  rcases after with _ | s
  · exact List.filter_sublist.map _
  · exact numbers_replaced CallService.number (h s rfl) all ▸ List.Sublist.refl _

end CallService

/-! ### The order of the staff -/

namespace Staff

/-- What holds of the staff: numbers are given once, an observer is cancelled with its service, a
service that is not cancelled has one observer at most, and it has the one that it began. -/
structure Orderly (t : Staff) : Prop where
  services : (t.instances.map (·.number)).Nodup
  observers : (t.observers.map (·.number)).Nodup
  known : ∀ s ∈ t.instances, s.number < t.services
  knownObservers : ∀ o ∈ t.observers, o.number < t.services ∧ o.service < t.services
  loyal : ∀ o ∈ t.observers, ∀ s ∈ t.instances, s.number = o.service →
    o.cancelled = s.cancelled ∧ (s.cancelled = false → s.observer = some o.number)
  employed : ∀ o ∈ t.observers, o.cancelled = false → ∃ s ∈ t.instances, s.number = o.service
  attended : ∀ s ∈ t.instances, s.cancelled = false → ∀ n, s.observer = some n →
    ∃ o ∈ t.observers, o.number = n ∧ o.service = s.number

namespace Orderly

variable {t : Staff}

theorem hire (h : t.Orderly) : t.hire.Orderly where
  services := by
    rw [Staff.hire, List.map_append, List.nodup_append]
    refine ⟨h.services, List.nodup_singleton _, ?_⟩
    rintro _ hk _ hnew rfl
    obtain ⟨s, hs, hk⟩ := List.mem_map.mp hk
    obtain rfl := List.mem_singleton.mp hnew
    exact Nat.ne_of_lt (h.known s hs) hk
  observers := h.observers
  known s hs := by
    rcases List.mem_append.mp hs with hs | hs
    · exact Nat.lt_succ_of_lt (h.known s hs)
    · obtain rfl := List.mem_singleton.mp hs
      exact Nat.lt_succ_self _
  knownObservers o ho := (h.knownObservers o ho).imp Nat.lt_succ_of_lt Nat.lt_succ_of_lt
  loyal o ho s hs hk := by
    rcases List.mem_append.mp hs with hs | hs
    · exact h.loyal o ho s hs hk
    · obtain rfl := List.mem_singleton.mp hs
      exact absurd hk.symm (Nat.ne_of_lt (h.knownObservers o ho).2)
  employed o ho hc := (h.employed o ho hc).imp fun _ => And.imp_left (List.mem_append_left _)
  attended s hs hc n hn := by
    rcases List.mem_append.mp hs with hs | hs
    · exact h.attended s hs hc n hn
    · obtain rfl := List.mem_singleton.mp hs
      cases hn

/-- The services after one of them began to observe. -/
theorem mem_subscribe {s x : CallService} {ticket : Ticket}
    (hx : x ∈ (t.subscribe s ticket).instances) :
    x = { s with observer := some t.services } ∨ x ∈ t.instances ∧ x.number ≠ s.number :=
  mem_replaced hx

theorem mem_subscribe_of_mem {s x : CallService} (hs : s ∈ t.instances) (hx : x ∈ t.instances)
    (ticket : Ticket) : ∃ y ∈ (t.subscribe s ticket).instances, y.number = x.number := by
  by_cases hxs : x.number = s.number
  · exact ⟨_, CallService.mem_put_self hs rfl, hxs.symm⟩
  · exact ⟨x, CallService.mem_put_of_ne (some _) hx hxs, rfl⟩

theorem subscribe (h : t.Orderly) {s : CallService} (hs : s ∈ t.instances)
    (ho : s.observer = none) (ticket : Ticket) : (t.subscribe s ticket).Orderly where
  services := h.services.sublist
    (CallService.numbers_put (some { s with observer := some t.services }) _
      (by rintro _ ⟨⟩; rfl))
  observers := by
    rw [Staff.subscribe, List.map_append, List.nodup_append]
    refine ⟨h.observers, List.nodup_singleton _, ?_⟩
    rintro _ hk _ hnew rfl
    obtain ⟨o, ho, hk⟩ := List.mem_map.mp hk
    obtain rfl := List.mem_singleton.mp hnew
    exact Nat.ne_of_lt (h.knownObservers o ho).1 hk
  known x hx := by
    rcases mem_subscribe hx with rfl | ⟨hx, -⟩
    · exact Nat.lt_succ_of_lt (h.known s hs)
    · exact Nat.lt_succ_of_lt (h.known x hx)
  knownObservers o ho := by
    rcases List.mem_append.mp ho with ho | ho
    · exact (h.knownObservers o ho).imp Nat.lt_succ_of_lt Nat.lt_succ_of_lt
    · obtain rfl := List.mem_singleton.mp ho
      exact ⟨Nat.lt_succ_self _, Nat.lt_succ_of_lt (h.known s hs)⟩
  loyal o hmem x hx hk := by
    rcases List.mem_append.mp hmem with hmem | hmem <;>
      rcases mem_subscribe hx with rfl | ⟨hx, hne⟩
    · -- an observer that was there belongs to a service that is cancelled
      obtain ⟨hcancelled, hown⟩ := h.loyal o hmem s hs hk
      exact ⟨hcancelled, fun hc => absurd (ho ▸ hown hc) (by simp)⟩
    · exact h.loyal o hmem x hx hk
    · obtain rfl := List.mem_singleton.mp hmem
      exact ⟨rfl, fun _ => rfl⟩
    · obtain rfl := List.mem_singleton.mp hmem
      exact absurd hk hne
  employed o hmem hc := by
    rcases List.mem_append.mp hmem with hmem | hmem
    · obtain ⟨x, hx, hk⟩ := h.employed o hmem hc
      obtain ⟨y, hy, hyk⟩ := mem_subscribe_of_mem hs hx ticket
      exact ⟨y, hy, hyk.trans hk⟩
    · obtain rfl := List.mem_singleton.mp hmem
      exact mem_subscribe_of_mem hs hs ticket
  attended x hx hc n hn := by
    rcases mem_subscribe hx with rfl | ⟨hx, -⟩
    · cases hn
      exact ⟨_, List.mem_append_right _ List.mem_cons_self, rfl, rfl⟩
    · exact (h.attended x hx hc n hn).imp fun _ => And.imp_left (List.mem_append_left _)

/-- An observer after a service ended is one that was there, cancelled if it is of that service. -/
theorem mem_dismiss {k : Nat} {after : Option CallService} {o : Observer}
    (ho : o ∈ (t.dismiss k after).observers) :
    ∃ p ∈ t.observers, p.number = o.number ∧ p.service = o.service ∧ p.stream = o.stream ∧
      (o.service = k → o.cancelled = true) ∧ (o.service ≠ k → o = p) := by
  obtain ⟨p, hp, rfl⟩ := List.mem_map.mp ho
  refine ⟨p, hp, ?_⟩
  by_cases hk : p.service = k <;> simp [hk]

theorem dismiss (h : t.Orderly) {s : CallService} (hs : s ∈ t.instances)
    {after : Option CallService} (ha : ∀ x ∈ after, x.number = s.number ∧ x.cancelled = true) :
    (t.dismiss s.number after).Orderly where
  services := h.services.sublist (CallService.numbers_put after _ fun x hx => (ha x hx).1)
  observers := by
    have hnumbers : (t.dismiss s.number after).observers.map (·.number) = t.observers.map (·.number) := by
      rw [Staff.dismiss, List.map_map]
      refine List.map_congr_left fun o _ => ?_
      by_cases ho : o.service = s.number <;> simp [ho]
    exact hnumbers ▸ h.observers
  known x hx := by
    rcases CallService.mem_put hx with hx | ⟨hx, -⟩
    · exact (ha x hx).1 ▸ h.known s hs
    · exact h.known x hx
  knownObservers o ho := by
    obtain ⟨p, hp, hnumber, hservice, -⟩ := mem_dismiss ho
    rw [← hnumber, ← hservice]
    exact h.knownObservers p hp
  loyal o ho x hx hk := by
    obtain ⟨p, hp, -, -, -, hcancelled, hkept⟩ := mem_dismiss ho
    rcases CallService.mem_put hx with hx | ⟨hx, hne⟩
    · obtain ⟨hnumber, hc⟩ := ha x hx
      exact ⟨(hcancelled (hk ▸ hnumber)).trans hc.symm, fun hc' => absurd hc (by simp [hc'])⟩
    · obtain rfl := hkept (hk ▸ hne)
      exact h.loyal o hp x hx hk
  employed o ho hc := by
    obtain ⟨p, hp, -, -, -, hcancelled, hkept⟩ := mem_dismiss ho
    have hne : o.service ≠ s.number := fun hk => by simp [hcancelled hk] at hc
    obtain rfl := hkept hne
    obtain ⟨x, hx, hk⟩ := h.employed o hp hc
    exact ⟨x, CallService.mem_put_of_ne after hx (hk ▸ hne), hk⟩
  attended x hx hc n hn := by
    rcases CallService.mem_put hx with hx | ⟨hx, hne⟩
    · simp [(ha x hx).2] at hc
    · obtain ⟨o, ho, hnumber, hservice⟩ := h.attended x hx hc n hn
      exact ⟨o, List.mem_map.mpr ⟨o, ho, by simp [hservice, hne]⟩, hnumber, hservice⟩

theorem look (h : t.Orderly) {o o' : Observer} (ho : o ∈ t.observers)
    (hnumber : o'.number = o.number) (hservice : o'.service = o.service)
    (hcancelled : o'.cancelled = o.cancelled) :
    (t.putObserver o.number (some o')).Orderly where
  services := h.services
  observers := by
    rw [Staff.putObserver]
    exact (numbers_replaced Observer.number hnumber t.observers) ▸ h.observers
  known := h.known
  knownObservers p hp := by
    rcases mem_replaced hp with rfl | ⟨hp, -⟩
    · rw [hnumber, hservice]
      exact h.knownObservers o ho
    · exact h.knownObservers p hp
  loyal p hp s hs hk := by
    rcases mem_replaced hp with rfl | ⟨hp, -⟩
    · rw [hnumber, hcancelled]
      exact h.loyal o ho s hs (hk.trans hservice)
    · exact h.loyal p hp s hs hk
  employed p hp hc := by
    rcases mem_replaced hp with rfl | ⟨hp, -⟩
    · rw [hservice]
      exact h.employed o ho (hcancelled ▸ hc)
    · exact h.employed p hp hc
  attended s hs hc n hn := by
    obtain ⟨p, hp, hpn, hps⟩ := h.attended s hs hc n hn
    by_cases hpo : p.number = o.number
    · obtain rfl := List.inj_on_of_nodup_map h.observers hp ho hpo
      exact ⟨o', List.mem_map.mpr ⟨p, hp, by simp⟩, hnumber.trans hpn, hservice.trans hps⟩
    · exact ⟨p, List.mem_map.mpr ⟨p, hp, by simp [hpo]⟩, hpn, hps⟩

theorem leave (h : t.Orderly) {o : Observer} (ho : o ∈ t.observers)
    (hend : o.cancelled = true ∨ t.instances = []) : (t.putObserver o.number none).Orderly where
  services := h.services
  observers := h.observers.sublist (List.filter_sublist.map _)
  known := h.known
  knownObservers p hp := h.knownObservers p (List.mem_of_mem_filter hp)
  loyal p hp := h.loyal p (List.mem_of_mem_filter hp)
  employed p hp := h.employed p (List.mem_of_mem_filter hp)
  attended s hs hc n hn := by
    obtain ⟨p, hp, hpn, hps⟩ := h.attended s hs hc n hn
    refine ⟨p, List.mem_filter.mpr ⟨hp, ?_⟩, hpn, hps⟩
    -- the observer that goes away is not the one of a service that is there and not cancelled
    rw [bne_iff_ne]
    intro hpo
    obtain rfl := List.inj_on_of_nodup_map h.observers hp ho hpo
    rcases hend with hend | hend
    · rw [(h.loyal p hp s hs hps.symm).1, hc] at hend
      cases hend
    · exact absurd (hend ▸ hs : s ∈ []) (List.not_mem_nil)

end Orderly

end Staff

end CallWatch
