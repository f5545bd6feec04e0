import CallWatch.Proofs.Engine.Publishing
import Mathlib.Algebra.GroupWithZero.Nat
import Mathlib.Data.List.DropRight

/-! # Bursts of actions

A burst is a number of actions that are accepted while the controller, which was waiting with an
empty queue, does not come to go on. The queue keeps the last of them, as many as it has room for.
The controller then processes exactly these, in order. Every stop among them is published once, and
nothing else is published except what the pipeline of the last action sends, if that is a start.

* `Fills`: what holds while the burst comes in.
* `Digests`: what holds while the controller works it off.
* `toil`: what is left to do for the controller, which goes down with its steps and those of the
  pipelines that it waits for. -/

namespace CallWatch

open Chronicle

/-- **A buffer that held the last of a line holds the last of the longer line.** -/
theorem ActionQueue.items_buffer_eq_rtake {q : ActionQueue} {line : List (Ticket × Action)}
    (hc : 1 ≤ q.capacity) (h : q.items = line.rtake q.capacity) (item : Ticket × Action) :
    (q.buffer item).items = (line ++ [item]).rtake q.capacity := by
  obtain ⟨n, hn⟩ : ∃ n, q.capacity = n + 1 := ⟨q.capacity - 1, by omega⟩
  have hlen : q.items.length = min line.length (n + 1) := by
    rw [h, hn, List.rtake, List.length_drop]
    omega
  have hkept : (if q.capacity ≤ q.items.length then q.items.drop 1 else q.items) = line.rtake n := by
    split
    · next hle =>
      have hstart : line.length - (n + 1) + 1 = line.length - n := by omega
      rw [h, hn, List.rtake, List.rtake, List.drop_drop, hstart]
    · next hle =>
      have hstart : line.length - (n + 1) = line.length - n := by omega
      rw [h, hn, List.rtake, List.rtake, hstart]
  rw [buffer, hkept, hn, List.rtake_concat_succ]

/-! ### While the burst comes in -/

/-- While the burst comes in the controller does not go on, and the engine is not told to end. -/
def World.duringBurst (_ : World) (m : Move) : Prop :=
  m ≠ .go .controller ∧ m ≠ .stop ∧ m ≠ .release

/-- The controller waits and the queue has the last of what was accepted. -/
structure Engine.Fills (e : Engine) (c : Chronicle) : Prop where
  listening : e.controller = .listening
  opened : e.queue.closed = false
  room : 1 ≤ e.queue.capacity
  items : e.queue.items = c.accepted.rtake e.queue.capacity
  unprocessed : c.processed = []
  unpublished : c.published = []

/-- What accepts nothing leaves the burst as it is. -/
theorem Engine.Fills.of_eq {e e' : Engine} {c c' : Chronicle} (h : e.Fills c)
    (hcon : e'.controller = e.controller) (hqueue : e'.queue = e.queue) (hacc : accepted c' = [])
    (hproc : processed c' = []) (hpub : published c' = []) : e'.Fills (c ++ c') := by
  constructor
  case listening =>
    rw [hcon, h.listening]
  case opened =>
    rw [hqueue, h.opened]
  case room =>
    rw [hqueue]
    exact h.room
  case items =>
    rw [hqueue, accepted_append, hacc, List.append_nil, h.items]
  case unprocessed =>
    rw [processed_append, hproc, h.unprocessed]
    rfl
  case unpublished =>
    rw [published_append, hpub, h.unpublished]
    rfl

theorem World.Moves.fills {w w' : World} {m : Move} {happened : List Occurrence} {c : Chronicle}
    (h : w.engine.Fills c) (hm : w.duringBurst m) (hstep : w.Moves m w' happened) :
    w'.engine.Fills (c ++ happened.map (w.now, ·)) := by
  obtain ⟨hgo, hstop, hrelease⟩ := hm
  cases hstep with
  | outside _ e' _ hout =>
    cases hout with
    | same => exact h.of_eq rfl rfl rfl rfl rfl
    | accept _ a _ hcl =>
      constructor
      · exact h.listening
      · exact h.opened
      · exact h.room
      · rw [accepted_append]
        exact ActionQueue.items_buffer_eq_rtake h.room h.items _
      · rw [processed_append, h.unprocessed]; rfl
      · rw [published_append, h.unpublished]; rfl
    | discard a hcl =>
      rw [h.opened] at hcl
      cases hcl
    | start hc =>
      rw [h.listening] at hc
      cases hc
    | stop _ _ hm => exact absurd hm (by simp [hstop, hrelease])
  | control => exact absurd rfl hgo
  | pipeline _ _ _ _ _ _ _ hsteps =>
    obtain ⟨hproc, hpub, hacc⟩ := hsteps.readings w.now
    exact h.of_eq rfl rfl hacc hproc hpub
  | _ => exact h.of_eq rfl rfl rfl rfl rfl

/-! ### While the controller works it off -/

/-- After the burst nothing is asked of the engine. -/
def World.afterBurst (_ : World) (m : Move) : Prop := m.isRequest = false

/-- The tickets of the stops in a line of actions. -/
def stopTickets (line : List (Ticket × Action)) : List Ticket :=
  (line.filter fun item => item.2 = .stop).map (·.1)

/-- The stop that the controller took and will publish once the previous pipeline is gone. -/
def Engine.awaitedStop (e : Engine) : List Ticket :=
  match e.controller with
  | .retiring _ (.handle t .stop) => [t]
  | _ => []

/-- What is published behind the stops comes when all is processed, for the last action, which is a
start, and from the pipeline that was begun for it. -/
def Trailing (kept : List (Ticket × Action)) (c : Chronicle)
    (later : List (Published × Option Nat)) : Prop :=
  later ≠ [] → c.processed = kept ∧ ∃ t how, kept.getLast? = some (t, .start how) ∧
    ∀ x ∈ later, x.1.ticket = t ∧ ∃ g n, x.2 = some g ∧ (n, .began g t) ∈ c

/-- What was published of the actions that were kept: one stop for each stop that was processed,
apart from one that still waits, and what may trail behind them. -/
def Unfolds (kept : List (Ticket × Action)) (c : Chronicle) (awaited : List Ticket) : Prop :=
  ∃ stops later, c.published = stops ++ later ∧
    stops.map (·.1.ticket) ++ awaited = stopTickets c.processed ∧
    (∀ x ∈ stops, x = stopPublication x.1.seq x.1.ticket) ∧ Trailing kept c later

/-- The controller works off the actions that were kept. -/
structure Engine.Digests (kept : List (Ticket × Action)) (e : Engine) (c : Chronicle) : Prop where
  attends : e.controller = .listening ∨ ∃ g errand, e.controller = .retiring g errand ∧ errand ≠ .leave
  opened : e.queue.closed = false
  running : e.shutdown = false
  line : c.processed ++ e.queue.items = kept
  unfolds : Unfolds kept c e.awaitedStop

theorem stopTickets_append (line line' : List (Ticket × Action)) :
    stopTickets (line ++ line') = stopTickets line ++ stopTickets line' := by
  simp [stopTickets]

theorem Engine.awaitedStop_of_listening {e : Engine} (h : e.controller = .listening) :
    e.awaitedStop = [] := by
  simp [awaitedStop, h]

theorem Engine.awaitedStop_of_retiring {e : Engine} {g : Nat} {errand : Errand}
    (h : e.controller = .retiring g errand) (hne : ∀ t, errand ≠ .handle t .stop) :
    e.awaitedStop = [] := by
  unfold awaitedStop
  split
  · next t hc =>
    rw [h] at hc
    cases hc
    exact absurd rfl (hne t)
  · rfl

/-! ### What unfolds -/

section Unfolds

variable {kept : List (Ticket × Action)} {c : Chronicle}

/-- More may happen as long as nothing is published. -/
theorem Unfolds.quiet {awaited awaited' : List Ticket} (h : Unfolds kept c awaited) (c' : Chronicle)
    (hpub : published c' = []) (hproc : processed c' = [] ∨ c.processed ≠ kept)
    (hawaited : awaited' = awaited ++ stopTickets (processed c')) :
    Unfolds kept (c ++ c') awaited' := by
  obtain ⟨stops, later, heq, htickets, hplain, htrail⟩ := h
  refine ⟨stops, later, ?_, ?_, hplain, fun hne => ?_⟩
  · rw [published_append, hpub, List.append_nil, heq]
  · rw [hawaited, ← List.append_assoc, htickets, processed_append, stopTickets_append]
  · obtain ⟨hall, t, how, hlast, hfrom⟩ := htrail hne
    refine ⟨?_, t, how, hlast, fun x hx => ?_⟩
    · rw [processed_append, hproc.resolve_right (absurd hall), List.append_nil, hall]
    · obtain ⟨ht, g, n, hg, hn⟩ := hfrom x hx
      exact ⟨ht, g, n, hg, List.mem_append_left _ hn⟩

/-- Nothing trails unless everything is processed and the last action is a start. -/
theorem Trailing.eq_nil {later : List (Published × Option Nat)} (h : Trailing kept c later)
    (hstop : c.processed = kept → ∃ t, kept.getLast? = some (t, .stop)) : later = [] := by
  by_contra hlater
  obtain ⟨hall, t, how, hlast, -⟩ := h hlater
  obtain ⟨t', hlast'⟩ := hstop hall
  rw [hlast] at hlast'
  cases hlast'

/-- The stop that was waited for is published. -/
theorem Unfolds.stop {t : Ticket} (h : Unfolds kept c [t])
    (hstop : c.processed = kept → ∃ t, kept.getLast? = some (t, .stop)) (now seq : Nat) :
    Unfolds kept (c ++ [(now, .published (stopPublication seq t).1 none)]) [] := by
  obtain ⟨stops, later, heq, htickets, hplain, htrail⟩ := h
  obtain rfl := htrail.eq_nil hstop
  rw [List.append_nil] at heq
  refine ⟨stops ++ [stopPublication seq t], [], ?_, ?_, ?_, fun h => absurd rfl h⟩
  · rw [published_append, heq, List.append_nil]; rfl
  · rw [processed_append, List.append_nil, List.map_append]
    simpa [processed, stopPublication] using htickets
  · intro x hx
    rcases List.mem_append.mp hx with hx | hx
    · exact hplain x hx
    · obtain rfl := List.mem_singleton.mp hx
      rfl

/-- The pipeline of the last action sent something that is published. -/
theorem Unfolds.trail (h : Unfolds kept c []) (hall : c.processed = kept) {t : Ticket}
    {how : StartAction} (hlast : kept.getLast? = some (t, .start how)) {g n : Nat}
    (hbegan : (n, .began g t) ∈ c) {p : Published} (hp : p.ticket = t) (now : Nat) :
    Unfolds kept (c ++ [(now, .published p (some g))]) [] := by
  obtain ⟨stops, later, heq, htickets, hplain, htrail⟩ := h
  refine ⟨stops, later ++ [(p, some g)], ?_, ?_, hplain, fun _ => ⟨?_, t, how, hlast, ?_⟩⟩
  · rw [published_append, heq, List.append_assoc]; rfl
  · rw [processed_append, htickets]; exact congrArg _ (List.append_nil _).symm
  · rw [processed_append, hall]; exact List.append_nil _
  · intro x hx
    rcases List.mem_append.mp hx with hx | hx
    · obtain ⟨-, t', how', hlast', hfrom⟩ := htrail (List.ne_nil_of_mem hx)
      rw [hlast] at hlast'
      cases hlast'
      obtain ⟨ht, g', n', hg', hn'⟩ := hfrom x hx
      exact ⟨ht, g', n', hg', List.mem_append_left _ hn'⟩
    · obtain rfl := List.mem_singleton.mp hx
      exact ⟨hp, g, n, rfl, List.mem_append_left _ hbegan⟩

end Unfolds

namespace Engine

/-- When the burst is in, the controller has all that was kept before it. -/
theorem Fills.digests {e : Engine} {c : Chronicle} (h : e.Fills c) (hs : e.shutdown = false) :
    e.Digests e.queue.items c := by
  refine ⟨.inl h.listening, h.opened, hs, by rw [h.unprocessed]; rfl, [], [], ?_, ?_, ?_, ?_⟩
  · exact h.unpublished
  · rw [awaitedStop_of_listening h.listening, h.unprocessed]; rfl
  · exact fun x hx => absurd hx List.not_mem_nil
  · exact fun h => absurd rfl h

end Engine

namespace Engine.Digests

variable {kept : List (Ticket × Action)} {e : Engine} {c : Chronicle}

/-- What leaves the queue and the controller as they are and publishes nothing keeps the work. -/
theorem of_eq (h : e.Digests kept c) {e' : Engine} {c' : Chronicle}
    (hcon : e'.controller = e.controller) (hqueue : e'.queue = e.queue)
    (hshut : e'.shutdown = e.shutdown) (hproc : processed c' = []) (hpub : published c' = []) :
    e'.Digests kept (c ++ c') := by
  have hawaited : e'.awaitedStop = e.awaitedStop := by simp [awaitedStop, hcon]
  constructor
  case attends =>
    rw [hcon]
    exact h.attends
  case opened =>
    rw [hqueue, h.opened]
  case running =>
    rw [hshut, h.running]
  case line =>
    rw [processed_append, hproc, List.append_nil, hqueue, h.line]
  case unfolds =>
    refine h.unfolds.quiet c' hpub (.inl hproc) ?_
    rw [hawaited, hproc]
    exact (List.append_nil _).symm

/-- The action that is taken next is one that was kept, so not everything is processed. -/
theorem processed_ne (h : e.Digests kept c) {item : Ticket × Action}
    {rest : List (Ticket × Action)} (hq : e.queue.items = item :: rest) : c.processed ≠ kept := by
  intro heq
  have hline := h.line
  rw [hq, heq] at hline
  simpa using congrArg List.length hline

/-- An action was taken. -/
theorem line_take (h : e.Digests kept c) {t : Ticket} {a : Action}
    {rest : List (Ticket × Action)} (hq : e.queue.items = (t, a) :: rest) {c' : Chronicle}
    (hproc : processed c' = [(t, a)]) : processed (c ++ c') ++ rest = kept := by
  rw [processed_append, hproc, List.append_assoc, ← h.line, hq]
  rfl

/-- No action was taken. -/
theorem line_keep (h : e.Digests kept c) {c' : Chronicle} (hproc : processed c' = []) :
    processed (c ++ c') ++ e.queue.items = kept := by
  rw [processed_append, hproc, List.append_nil, h.line]

/-- Since the burst something was processed exactly if the last action processed is one of it. -/
theorem lastProcessed_eq {base : Chronicle} (hne : c.processed ≠ []) :
    Chronicle.lastProcessed (base ++ c) = c.processed.getLast? := by
  rw [Chronicle.lastProcessed, processed_append, List.getLast?_append_of_ne_nil _ hne]

theorem controls (hkept : kept ≠ []) (h : e.Digests kept c) {base : Chronicle}
    (hacc : e.Accounts (base ++ c)) {e' : Engine} {happened : List Occurrence}
    (hstep : e.Controls e' happened) (now : Nat) :
    e'.Digests kept (c ++ happened.map (now, ·)) := by
  -- Everything is processed when the controller comes to listen to the pipelines.
  have emptied (hq : e.queue.items = []) : c.processed = kept := by
    have hline := h.line
    rwa [hq, List.append_nil] at hline
  have received {active : ActivePipeline} (hq : e.queue.items = [])
      (hcur : e.current = some active) :
      ∃ how n, kept.getLast? = some (active.ticket, .start how) ∧
        (n, .began active.generation active.ticket) ∈ c := by
    have hall := emptied hq
    have hne : c.processed ≠ [] := hall ▸ hkept
    obtain ⟨⟨how, hlast⟩, -, ⟨n, hn⟩, -⟩ := hacc.active active hcur
    rw [lastProcessed_eq hne, hall] at hlast
    rw [recent_append_of_processed_ne_nil _ hne] at hn
    exact ⟨how, n, hlast, mem_of_mem_recent hn⟩
  cases hstep with
  | idle => exact h.of_eq rfl rfl rfl rfl rfl
  | drop => exact h.of_eq rfl rfl rfl rfl rfl
  | pass o rest active d hc hs hq hch hcur hg hr =>
    obtain ⟨how, n, hlast, hn⟩ := received hq hcur
    refine ⟨.inl hc, h.opened, hs, h.line_keep rfl, ?_⟩
    have hunfolds := h.unfolds
    rw [awaitedStop_of_listening hc] at hunfolds
    rw [awaitedStop_of_listening (e := (e.withChannel rest).announce _ _) hc]
    exact hunfolds.trail (emptied hq) hlast hn rfl now
  | fail o rest active error hc hs hq hch hcur hg hr =>
    obtain ⟨how, n, hlast, hn⟩ := received hq hcur
    refine ⟨.inr ⟨_, _, rfl, by simp⟩, h.opened, hs, h.line_keep rfl, ?_⟩
    have hunfolds := h.unfolds
    rw [awaitedStop_of_listening hc] at hunfolds
    exact hunfolds.trail (emptied hq) hlast hn rfl now
  | leave active hc hend =>
    rcases hend with hs | ⟨-, hcl⟩
    · rw [h.running] at hs; cases hs
    · rw [h.opened] at hcl; cases hcl
  | quit hc hend =>
    rcases hend with hs | ⟨-, hcl⟩
    · rw [h.running] at hs; cases hs
    · rw [h.opened] at hcl; cases hcl
  | take active t a rest hc hs hq hcur =>
    refine ⟨.inr ⟨_, _, rfl, by simp⟩, h.opened, hs, h.line_take hq rfl, ?_⟩
    refine h.unfolds.quiet _ rfl (.inr (h.processed_ne hq)) ?_
    rw [awaitedStop_of_listening hc]
    cases a <;> rfl
  | takeStop t rest hc hs hq hcur =>
    refine ⟨.inl hc, h.opened, hs, h.line_take hq rfl, ?_⟩
    have htaken : Unfolds kept (c ++ [(now, .processed t .stop)]) [t] := by
      refine h.unfolds.quiet _ rfl (.inr (h.processed_ne hq)) ?_
      rw [awaitedStop_of_listening hc]
      rfl
    have hpublished := htaken.stop (fun hall => ⟨t, by simp [← hall, processed]⟩) now (e.seq + 1)
    rw [List.append_assoc] at hpublished
    rw [awaitedStop_of_listening (e := (e.withoutFirst rest).announce _ _) hc]
    exact hpublished
  | takeStart t how rest hc hs hq hcur =>
    have hc' : ((e.withoutFirst rest).begin t how).controller = .listening := by
      cases how <;> exact hc
    have hqueue : ((e.withoutFirst rest).begin t how).queue = (e.withoutFirst rest).queue := by
      cases how <;> rfl
    refine ⟨.inl hc', ?_, ?_, ?_, ?_⟩
    · rw [hqueue]; exact h.opened
    · cases how <;> exact hs
    · rw [hqueue]; exact h.line_take hq rfl
    · refine h.unfolds.quiet _ rfl (.inr (h.processed_ne hq)) ?_
      rw [awaitedStop_of_listening hc, awaitedStop_of_listening hc']
      rfl
  | handleStop g t hc hg =>
    refine ⟨.inl rfl, h.opened, h.running, h.line_keep rfl, ?_⟩
    have hawaited : e.awaitedStop = [t] := by simp [awaitedStop, hc]
    have hunfolds := h.unfolds
    rw [hawaited] at hunfolds
    refine hunfolds.stop (fun hall => ⟨t, ?_⟩) now (e.seq + 1)
    obtain ⟨hlast, -⟩ := hacc.handles t .stop ⟨g, hc⟩
    rwa [lastProcessed_eq (hall ▸ hkept), hall] at hlast
  | handleStart g t how hc hg =>
    have hc' : (e.listening.begin t how).controller = .listening := by cases how <;> rfl
    have hqueue : (e.listening.begin t how).queue = e.queue := by cases how <;> rfl
    refine ⟨.inl hc', ?_, ?_, ?_, ?_⟩
    · rw [hqueue, h.opened]
    · cases how <;> exact h.running
    · rw [hqueue]; exact h.line_keep rfl
    · refine h.unfolds.quiet _ rfl (.inl rfl) ?_
      rw [awaitedStop_of_retiring hc (by simp), awaitedStop_of_listening hc']
      rfl
  | resume g hc hg =>
    refine ⟨.inl rfl, h.opened, h.running, h.line_keep rfl, ?_⟩
    refine h.unfolds.quiet _ rfl (.inl rfl) ?_
    rw [awaitedStop_of_retiring hc (by simp)]
    rfl
  | finish g hc hg =>
    rcases h.attends with hc' | ⟨g', errand, hc', hne⟩
    · rw [hc] at hc'; cases hc'
    · rw [hc] at hc'
      cases hc'
      exact absurd rfl hne

end Engine.Digests

/-! ### What is left to do -/

/-- The steps that a cancelled pipeline needs to its end. -/
def Pipeline.stepsLeft (p : Pipeline) : Nat :=
  match p.phase with
  | .spawned => 2
  | _ => 1

/-- What is left to do for the controller and for the pipelines that it waits for. -/
def Engine.toil (e : Engine) : Nat :=
  4 * e.queue.items.length + match e.controller with
    | .retiring .. => 1 + (e.pipelines.map (·.stepsLeft)).sum
    | _ => 0

/-- Steps of the controller and of pipelines. -/
def World.ownSteps (_ : World) (m : Move) : Prop := m = .go .controller ∨ ∃ g, m = .go (.pipeline g)

namespace Engine

theorem toil_of_listening {e : Engine} (h : e.controller = .listening) :
    e.toil = 4 * e.queue.items.length := by
  simp [toil, h]

theorem toil_of_retiring {e : Engine} {g : Nat} {errand : Errand}
    (h : e.controller = .retiring g errand) :
    e.toil = 4 * e.queue.items.length + (1 + (e.pipelines.map (·.stepsLeft)).sum) := by
  simp [toil, h]

/-- Waiting for the end of a pipeline costs less than an action. -/
theorem toil_dismiss_lt {e : Engine} (ho : e.Orderly) (active : ActivePipeline) (errand : Errand) :
    (e.dismiss active errand).toil < 4 * (e.queue.items.length + 1) := by
  rw [toil_of_retiring (e := e.dismiss active errand) rfl]
  have hsum : ((e.dismiss active errand).pipelines.map (·.stepsLeft)).sum ≤ 2 := by
    have hsingle := ho.single
    rcases hps : e.pipelines with _ | ⟨p, _ | ⟨q, ps⟩⟩
    · simp [dismiss, cancel, hps]
    · simp only [dismiss, cancel, hps, List.map_cons, List.map_nil, List.sum_cons, List.sum_nil]
      unfold Pipeline.stepsLeft
      split <;> omega
    · simp [hps] at hsingle
  have hqueue : (e.dismiss active errand).queue = e.queue := rfl
  rw [hqueue]
  omega

/-- Taking an action is progress. -/
theorem toil_take_lt {e e' : Engine} {happened : List Occurrence} (ho : e.Orderly)
    (hc : e.controller = .listening) (hs : e.shutdown = false) (hq : e.queue.items ≠ [])
    (hstep : e.Controls e' happened) : e'.toil < e.toil := by
  rw [toil_of_listening hc]
  cases hstep with
  | idle hready => exact absurd hready (by simp [controllerReady, hc, hq])
  | drop _ _ _ _ hq' => exact absurd hq' hq
  | pass _ _ _ _ _ _ hq' => exact absurd hq' hq
  | fail _ _ _ _ _ _ hq' => exact absurd hq' hq
  | leave _ _ hend => exact absurd hend (by simp [hs, hq])
  | quit _ hend => exact absurd hend (by simp [hs, hq])
  | take active t a rest _ _ hq' =>
    have ho' : (e.withoutFirst rest).Orderly := ho.of_eq rfl rfl rfl rfl
    rw [hq', List.length_cons]
    exact toil_dismiss_lt ho' active _
  | takeStop t rest _ _ hq' =>
    rw [toil_of_listening (e := (e.withoutFirst rest).announce _ _) hc, hq', List.length_cons]
    have hitems : ((e.withoutFirst rest).announce t (.ok (.stop .actionStopCalled))).queue.items =
      rest := rfl
    rw [hitems]
    omega
  | takeStart t how rest _ _ hq' =>
    have hc' : ((e.withoutFirst rest).begin t how).controller = .listening := by
      cases how <;> exact hc
    have hitems : ((e.withoutFirst rest).begin t how).queue.items = rest := by cases how <;> rfl
    rw [toil_of_listening hc', hitems, hq', List.length_cons]
    omega
  | handleStop _ _ hc' => rw [hc] at hc'; cases hc'
  | handleStart _ _ _ hc' => rw [hc] at hc'; cases hc'
  | resume _ hc' => rw [hc] at hc'; cases hc'
  | finish _ hc' => rw [hc] at hc'; cases hc'

/-- Doing an errand once the pipeline is gone is progress. -/
theorem toil_perform_lt {e e' : Engine} {happened : List Occurrence} {g : Nat} {errand : Errand}
    (hc : e.controller = .retiring g errand) (hg : e.isAlive g = false)
    (hstep : e.Controls e' happened) : e'.toil < e.toil := by
  have hlt {e' : Engine} (hc' : e'.controller = .listening ∨ e'.controller = .ended)
      (hqueue : e'.queue = e.queue) : e'.toil < e.toil := by
    rw [toil_of_retiring hc, toil]
    rcases hc' with hc' | hc' <;> simp only [hc', hqueue] <;> omega
  have listening (hc' : e.controller = .listening) : False := by rw [hc] at hc'; cases hc'
  cases hstep with
  | idle hready => exact absurd hready (by simp [controllerReady, hc, hg])
  | drop _ _ hc' => exact (listening hc').elim
  | pass _ _ _ _ hc' => exact (listening hc').elim
  | fail _ _ _ _ hc' => exact (listening hc').elim
  | leave _ hc' => exact (listening hc').elim
  | quit hc' => exact (listening hc').elim
  | take _ _ _ _ hc' => exact (listening hc').elim
  | takeStop _ _ hc' => exact (listening hc').elim
  | takeStart _ _ _ hc' => exact (listening hc').elim
  | handleStop => exact hlt (.inl rfl) rfl
  | handleStart _ _ how => exact hlt (.inl (by cases how <;> rfl)) (by cases how <;> rfl)
  | resume => exact hlt (.inl rfl) rfl
  | finish => exact hlt (.inr rfl) rfl

/-- A cancelled pipeline that goes on makes progress to its end. -/
theorem toil_advance_lt {e : Engine} {s : Surroundings} {held : AccountRef → Bool}
    {g : Nat} {errand : Errand} {p p' : Pipeline} {happened : List Occurrence}
    {output : Option PipelineOutput} (hc : e.controller = .retiring g errand)
    (hps : e.pipelines = [p]) (hcan : p.cancelled = true) (hp : p.phase ≠ .finished)
    (hstep : p.Steps s held p' happened output) : (e.advancePipeline p' output).toil < e.toil := by
  rw [toil_of_retiring hc, toil_of_retiring (e := e.advancePipeline p' output) hc]
  have hqueue : (e.advancePipeline p' output).queue = e.queue := rfl
  rw [hqueue, hps]
  cases hstep with
  | begin hspawned =>
    simp [advancePipeline, putPipeline, hps, Pipeline.stepsLeft, hspawned]
  | abort =>
    have hleft : 1 ≤ p.stepsLeft := by unfold Pipeline.stepsLeft; split <;> omega
    simp [advancePipeline, putPipeline, hps, Pipeline.finish]
    omega
  | stay h => exact absurd h hp
  | consume _ _ _ h => rw [hcan] at h; cases h
  | loseSession _ h => rw [hcan] at h; cases h
  | look _ _ _ h => rw [hcan] at h; cases h
  | fire h => rw [hcan] at h; cases h
  | resolve _ h => rw [hcan] at h; cases h
  | gather _ h => rw [hcan] at h; cases h
  | send _ h => rw [hcan] at h; cases h
  | sendLast _ h => rw [hcan] at h; cases h

end Engine

namespace World

variable {kept : List (Ticket × Action)} {c : Chronicle}

theorem Moves.digests {w w' : World} {m : Move} {happened : List Occurrence} {base : Chronicle}
    (hkept : kept ≠ []) (h : w.engine.Digests kept c) (hacc : w.engine.Accounts (base ++ c))
    (hm : w.afterBurst m) (hstep : w.Moves m w' happened) :
    w'.engine.Digests kept (c ++ happened.map (w.now, ·)) := by
  cases hstep with
  | outside _ e' _ hout =>
    have hrequest : m.isRequest = true := by
      cases hout with
      | same _ hm => exact hm
      | accept _ _ hm => rcases hm with rfl | rfl <;> rfl
      | discard => rfl
      | start => rfl
      | stop _ _ hm => rcases hm with rfl | rfl <;> rfl
    rw [afterBurst, hrequest] at hm
    cases hm
  | control e' _ _ hcon => exact h.controls hkept hacc hcon w.now
  | pipeline _ _ _ _ _ _ _ hsteps =>
    obtain ⟨hproc, hpub, -⟩ := hsteps.readings w.now
    exact h.of_eq rfl rfl rfl hproc hpub
  | _ => exact h.of_eq rfl rfl rfl rfl rfl

/-- As long as something is left to do, the controller or a pipeline can go on and leaves less. -/
theorem exists_progress {w : World} (ho : w.engine.Orderly) (h : w.engine.Digests kept c)
    (hleft : c.processed ≠ kept ∨ w.engine.awaitedStop ≠ []) :
    ∃ m, w.ownSteps m ∧ w.allows m = true ∧ (w.move m).engine.toil < w.engine.toil := by
  rcases h.attends with hc | ⟨g, errand, hc, -⟩
  · have hq : w.engine.queue.items ≠ [] := by
      intro hq
      have hline := h.line
      rw [hq, List.append_nil] at hline
      rcases hleft with hleft | hleft
      · exact hleft hline
      · exact hleft (Engine.awaitedStop_of_listening hc)
    have hready : w.engine.controllerReady = true := by
      simp [Engine.controllerReady, hc, hq]
    exact ⟨.go .controller, .inl rfl, hready, Engine.toil_take_lt ho hc h.running hq w.engine.controls⟩
  · rcases hps : w.engine.pipelines with _ | ⟨p, ps⟩
    · have hg : w.engine.isAlive g = false := by simp [Engine.isAlive, hps]
      have hready : w.engine.controllerReady = true := by simp [Engine.controllerReady, hc, hg]
      exact ⟨.go .controller, .inl rfl, hready, Engine.toil_perform_lt hc hg w.engine.controls⟩
    · have hmem : p ∈ w.engine.pipelines := by simp [hps]
      replace hps := ho.pipelines_eq hmem
      have hcan := (ho.retiring g errand hc).2.2 p hmem
      have hp : w.engine.pipeline? p.generation = some p := by simp [Engine.pipeline?, hps]
      have hready : w.allows (.go (.pipeline p.generation)) = true := by
        simp [allows, Engine.isReady, Engine.pipelineReady, hp,
          Pipeline.isReady_of_cancelled hcan (ho.unfinished p hmem)]
      refine ⟨.go (.pipeline p.generation), .inr ⟨_, rfl⟩, hready, ?_⟩
      have hmove : (w.move (.go (.pipeline p.generation))).engine = w.engine.advancePipeline
          (p.step w.surroundings w.engine.holds).1 (p.step w.surroundings w.engine.holds).2.1 :=
        Engine.stepPipeline_eq hp w.surroundings
      rw [hmove]
      exact Engine.toil_advance_lt hc hps hcan (ho.unfinished p hmem) (p.steps _ _)

/-- The controller and the pipelines that it waits for work off whatever is left. -/
theorem exists_finished {config : EngineConfig} (w : World) (hkept : kept ≠ []) (n : Nat) :
    ∀ v c, v.engine.toil = n → Reached config v → v.chronicle = w.chronicle ++ c →
      v.engine.Digests kept c → ∃ v', Leads ownSteps v v' ∧ (v'.since w).processed = kept ∧
        v'.engine.awaitedStop = [] := by
  induction n using Nat.strong_induction_on with
  | _ n ih =>
    intro v c hn hv hc h
    by_cases hleft : c.processed ≠ kept ∨ v.engine.awaitedStop ≠ []
    · obtain ⟨m, hm, hallows, hlt⟩ := exists_progress hv.orderly h hleft
      have hstep : Leads ownSteps v (v.after m) := .single ⟨m, hm, hallows, rfl⟩
      have hafter : v.afterBurst m := by
        rcases hm with rfl | ⟨g, rfl⟩ <;> rfl
      obtain ⟨hc', h'⟩ := Leads.keeps_since (R := fun e c => e.Digests kept c) w
        (fun v m v' happened c hv hc hm hmoves h => hmoves.digests hkept h (hc ▸ hv.accounts) hm)
        hv hc h (.single ⟨m, hafter, hallows, rfl⟩)
      obtain ⟨v', hl, hdone⟩ := ih _ (hn ▸ hlt) (v.after m) _ rfl
        (hv.trans (Leads.mono (fun _ _ _ => trivial) hstep)) hc' h'
      exact ⟨v', hstep.trans hl, hdone⟩
    · simp only [not_or, not_not] at hleft
      exact ⟨v, .refl, (since_eq hc).symm ▸ hleft.1, hleft.2⟩

/-- What the queue has room for of the actions that were accepted since an earlier world: the last of
them, and one at least. -/
def keptSince (config : EngineConfig) (w' w : World) : List (Ticket × Action) :=
  (w'.since w).accepted.rtake (max config.queueCapacity 1)

/-- **The burst law.** While the controller waits with an empty queue a burst of actions is
accepted. From then on the controller processes the last of them, as many as the queue has room for,
in order; what is published is one stop for each stop among those that were processed, apart from
one that waits for the end of the previous pipeline, and behind them only what is sent by the
pipeline begun for the last action, if that is a start. When nobody can go on all of them are
processed, and the controller and the pipelines alone bring that about. -/
theorem Reached.burst_law {config : EngineConfig} {w w₁ w₂ : World} (hw : Reached config w)
    (hlisten : w.engine.controller = .listening) (hempty : w.engine.queue.items = [])
    (hopen : w.engine.queue.closed = false) (hduring : Leads duringBurst w w₁)
    (hburst : (w₁.since w).accepted ≠ []) (hafter : Leads afterBurst w₁ w₂) :
    (w₂.since w).processed <+: keptSince config w₁ w ∧
      Unfolds (keptSince config w₁ w) (w₂.since w) w₂.engine.awaitedStop ∧
      (w₂.AtRest → (w₂.since w).processed = keptSince config w₁ w ∧ w₂.engine.awaitedStop = []) ∧
      ∃ w₃, Leads ownSteps w₂ w₃ ∧ (w₃.since w).processed = keptSince config w₁ w ∧
        w₃.engine.awaitedStop = [] := by
  have hroom : 1 ≤ w.engine.queue.capacity := by
    rw [hw.tuned.capacity]
    exact Nat.le_max_right _ _
  have hfirst : w.engine.Fills [] :=
    ⟨hlisten, hopen, hroom, by rw [hempty]; simp [accepted, List.rtake], rfl, rfl⟩
  obtain ⟨hc₁, hfills⟩ := Leads.keeps_since (R := fun e c => e.Fills c) w
    (fun _ _ _ _ _ _ _ hm hstep h => hstep.fills h hm) hw (List.append_nil _).symm hfirst hduring
  have hw₁ : Reached config w₁ := hw.trans (Leads.mono (fun _ _ _ => trivial) hduring)
  have hkept : w₁.engine.queue.items = keptSince config w₁ w := by
    rw [hfills.items, hw₁.tuned.capacity, keptSince]
  have hne : keptSince config w₁ w ≠ [] := by
    have hlen := List.length_pos_iff.mpr hburst
    refine List.ne_nil_of_length_pos ?_
    rw [keptSince, List.rtake, List.length_drop]
    omega
  have hs₁ : w₁.engine.shutdown = false := by rw [← hw₁.tuned.closed, hfills.opened]
  have hdigests := hfills.digests hs₁
  rw [hkept] at hdigests
  obtain ⟨hc₂, hdigests₂⟩ := Leads.keeps_since
    (R := fun e c => e.Digests (keptSince config w₁ w) c) w
    (fun v m v' happened c hv hc hm hmoves h => hmoves.digests hne h (hc ▸ hv.accounts) hm)
    hw₁ hc₁ hdigests hafter
  have hw₂ : Reached config w₂ := hw₁.trans (Leads.mono (fun _ _ _ => trivial) hafter)
  refine ⟨⟨_, hdigests₂.line⟩, hdigests₂.unfolds, fun hrest => ?_,
    exists_finished w hne _ w₂ _ rfl hw₂ hc₂ hdigests₂⟩
  rcases hdigests₂.attends with hc | ⟨g, errand, hc, -⟩
  · have hready := hrest .controller (by simp [Engine.tasks])
    have hq : w₂.engine.queue.items = [] := by
      by_contra hq
      simp [Engine.isReady, Engine.controllerReady, hc, hq] at hready
    have hline := hdigests₂.line
    rw [hq, List.append_nil] at hline
    exact ⟨hline, Engine.awaitedStop_of_listening hc⟩
  · exact absurd hrest (not_atRest_of_retiring hw₂.orderly hc)

/-- A start whose pipeline follows the session. -/
def started : List Move :=
  [.start, .submit (.start .default), .go .controller, .go (.pipeline 1)]

/-- A burst of four. -/
def burstOfFour : List Move :=
  [.submit .stop, .submit (.start .default), .trySubmit .stop, .submit (.start .default)]

theorem burst_law_burstOfFour :
    let config : EngineConfig := ⟨2, 200, false⟩
    let w := (new config).run started
    keptSince config (w.run burstOfFour) w = [(⟨4⟩, .stop), (⟨5⟩, .start .default)] ∧
      ∃ w₃, Leads ownSteps (w.run burstOfFour) w₃ ∧
        (w₃.since w).processed = keptSince config (w.run burstOfFour) w ∧
        w₃.engine.awaitedStop = [] := by
  have hduring (v) (m) (hm : m ∈ burstOfFour) : duringBurst v m := by
    simp only [burstOfFour, List.mem_cons, List.not_mem_nil, or_false] at hm
    rcases hm with rfl | rfl | rfl | rfl <;> simp [duringBurst]
  refine ⟨rfl, ?_⟩
  exact (Reached.burst_law (reached_run (by decide)) rfl rfl rfl (leads_run hduring (by decide))
    (by decide) .refl).2.2.2

end World

end CallWatch
