import CallWatch.Proofs.Service.Staff

/-! # What the host gets to see

A service passes decisions on for its first start command and for later actions, in order, none of
them twice, and none any more once it is destroyed. Each start command shows one placeholder, before
anything that comes of its action. While a service observes and nothing is left for it to see, what
it passed on last is what stands in the slot, unless that is empty or from before its time. -/

namespace CallWatch

open Chronicle HostRecord

/-! ### The record -/

/-- How the staff agrees with the record: a service is cancelled when its end is recorded, one that
does not observe yet has submitted nothing but what it is about to observe, and each placeholder is
followed by the submission of its start command. -/
structure Recorded (t : Staff) (c : Option StartCommand) (r : HostRecord) : Prop where
  numbers : ∀ x ∈ r, x.number < t.services
  ended : ∀ s ∈ t.instances, s.cancelled = true ↔ .ended s.number ∈ r
  waiting : ∀ s ∈ t.instances, s.cancelled = false → s.observer = none →
    r.firstTicket s.number = c.bind (·.ticketOf? s.number) ∧ r.mirroredFor s.number = []
  placeholders : r.filter (·.ofCommand) =
    (r.submissions.flatMap fun x => [.shown x.1, .submitted x.1 x.2]) ++ (c.map (·.open?)).getD []

namespace Recorded

variable {h : Hosting} {w : World} {t : Staff} {c : Option StartCommand} {r : HostRecord}

/-- The service that is about to submit an action is one that there was. -/
theorem number_lt {k : Nat} {action : Option Action}
    (hrec : Recorded t (some (.shown k action)) r) : k < t.services := by
  have hmem : .shown k ∈ r.filter (·.ofCommand) := by
    rw [hrec.placeholders]
    exact List.mem_append_right _ List.mem_cons_self
  exact hrec.numbers _ (List.mem_of_mem_filter hmem)

/-- What is recorded of others, and no submission, leaves a service that waits as it is. -/
theorem waiting_append (hrec : Recorded t c r) {s : CallService} (hs : s ∈ t.instances)
    (hc : s.cancelled = false) (ho : s.observer = none) {happened : HostRecord}
    (hnone : submissions happened = []) (hothers : mirroredFor happened s.number = []) :
    firstTicket (r ++ happened) s.number = c.bind (·.ticketOf? s.number) ∧
      mirroredFor (r ++ happened) s.number = [] := by
  rw [firstTicket_append_of_submissions_eq_nil r hnone, mirroredFor_append, hothers,
    List.append_nil]
  exact hrec.waiting s hs hc ho

/-- What is no part of a start command leaves the placeholders as they are. -/
theorem placeholders_append (hrec : Recorded t c r) {happened : HostRecord}
    (hquiet : happened.filter (·.ofCommand) = []) (hnone : submissions happened = []) :
    (r ++ happened).filter (·.ofCommand) =
      ((submissions (r ++ happened)).flatMap fun x => [.shown x.1, .submitted x.1 x.2]) ++
        (c.map (·.open?)).getD [] := by
  rw [List.filter_append, hquiet, List.append_nil, submissions_append, hnone, List.append_nil]
  exact hrec.placeholders

theorem moves (hrec : Recorded h.staff h.command h.record) (ho : h.staff.Orderly)
    (hm : h.Moves w t c r) : Recorded t c r := by
  cases hm with
  | same => exact hrec
  | around => exact hrec
  | build hc =>
    rw [hc] at hrec
    have hnew (x) (hx : x ∈ h.record) : x.number ≠ h.staff.services :=
      Nat.ne_of_lt (hrec.numbers x hx)
    constructor
    case numbers => exact fun x hx => Nat.lt_succ_of_lt (hrec.numbers x hx)
    case ended =>
      intro s hs
      rcases List.mem_append.mp hs with hs | hs
      · exact hrec.ended s hs
      · obtain rfl := List.mem_singleton.mp hs
        exact iff_of_false Bool.false_ne_true fun hx => hnew _ hx rfl
    case waiting =>
      intro s hs hsc hso
      rcases List.mem_append.mp hs with hs | hs
      · exact hrec.waiting s hs hsc hso
      · obtain rfl := List.mem_singleton.mp hs
        exact eq_none_of_number_ne hnew
    case placeholders => exact hrec.placeholders
  | begin s action hs hc =>
    rw [hc] at hrec
    constructor
    case numbers =>
      exact List.forall_mem_append.mpr
        ⟨hrec.numbers, List.forall_mem_singleton.mpr (ho.known s hs)⟩
    case ended => exact fun x hx => by simpa using hrec.ended x hx
    case waiting => exact fun x hx hxc hxo => hrec.waiting_append hx hxc hxo rfl rfl
    case placeholders =>
      rw [List.filter_append, hrec.placeholders, submissions_append]
      simp [submissions, StartCommand.open?, HostOccurrence.ofCommand]
  | submit k action hc =>
    rw [hc] at hrec
    constructor
    case numbers =>
      exact List.forall_mem_append.mpr
        ⟨hrec.numbers, List.forall_mem_singleton.mpr hrec.number_lt⟩
    case ended => exact fun x hx => by simpa using hrec.ended x hx
    case waiting =>
      intro x hx hxc hxo
      obtain ⟨hnone, hmirrored⟩ := hrec.waiting x hx hxc hxo
      rw [firstTicket_append_submitted, hnone, mirroredFor_append, hmirrored]
      exact ⟨rfl, rfl⟩
    case placeholders =>
      rw [List.filter_append, hrec.placeholders, submissions_append]
      simp [submissions, StartCommand.open?, HostOccurrence.ofCommand]
  | subscribe s ticket hs hc hso =>
    rw [hc] at hrec
    constructor
    case numbers => exact fun x hx => Nat.lt_succ_of_lt (hrec.numbers x hx)
    case ended =>
      intro x hx
      rcases Staff.Orderly.mem_subscribe hx with rfl | ⟨hx, -⟩
      · exact hrec.ended s hs
      · exact hrec.ended x hx
    case waiting =>
      intro x hx hxc hxo
      rcases Staff.Orderly.mem_subscribe hx with rfl | ⟨hx, hne⟩
      · cases hxo
      · obtain ⟨hnone, hmirrored⟩ := hrec.waiting x hx hxc hxo
        exact ⟨hnone.trans (if_neg (Ne.symm hne)), hmirrored⟩
    case placeholders => exact hrec.placeholders
  | subscribed s ticket hs hc hso =>
    rw [hc] at hrec
    refine ⟨hrec.numbers, hrec.ended, fun x hx hxc hxo => ?_, hrec.placeholders⟩
    have hne : s.number ≠ x.number := by
      intro hk
      obtain rfl := List.inj_on_of_nodup_map ho.services hs hx hk
      exact hso hxo
    obtain ⟨hnone, hmirrored⟩ := hrec.waiting x hx hxc hxo
    exact ⟨hnone.trans (if_neg hne), hmirrored⟩
  | dismiss s after hs hc ha =>
    rw [hc] at hrec
    constructor
    case numbers =>
      exact List.forall_mem_append.mpr
        ⟨hrec.numbers, List.forall_mem_singleton.mpr (ho.known s hs)⟩
    case ended =>
      intro x hx
      rcases CallService.mem_put hx with hx | ⟨hx, hne⟩
      · obtain ⟨hk, hxc⟩ := ha x hx
        exact iff_of_true hxc (by simp [hk])
      · simpa [hne] using hrec.ended x hx
    case waiting =>
      intro x hx hxc hxo
      rcases CallService.mem_put hx with hx | ⟨hx, hne⟩
      · simp [(ha x hx).2] at hxc
      · exact hrec.waiting_append hx hxc hxo rfl rfl
    case placeholders => exact hrec.placeholders_append rfl rfl
  | look o hmem hc =>
    generalize (o.stream.poll h.world.engine.slot h.world.engine.slotGiven).1.item? = found
    have hnone : submissions (found.toList.map (.mirrored o.service ·)) = [] := by
      cases found <;> rfl
    constructor
    case numbers =>
      refine List.forall_mem_append.mpr ⟨hrec.numbers, List.forall_mem_map.mpr fun p _ => ?_⟩
      exact (ho.knownObservers o hmem).2
    case ended => exact fun x hx => by simpa using hrec.ended x hx
    case waiting =>
      intro x hx hxc hxo
      refine hrec.waiting_append hx hxc hxo hnone ?_
      -- the service of an observer that is not cancelled observes
      have hne : o.service ≠ x.number := fun hk => by
        simp [(ho.loyal o hmem x hx hk.symm).2 hxc] at hxo
      cases found <;> simp [mirroredFor, hne]
    case placeholders => exact hrec.placeholders_append (by cases found <;> rfl) hnone
  | leave => exact ⟨hrec.numbers, hrec.ended, hrec.waiting, hrec.placeholders⟩

end Recorded

/-! ### What was passed on -/

/-- What the observers made of the publications: each of them follows the slot for the first start
command of its service, what was passed on for a service are publications for that action and later
ones, nothing is passed on for a service that has ended, and nothing for an action before it was
submitted. -/
structure Observed (slot : Slot) (ps : List Published) (t : Staff) (r : HostRecord) : Prop where
  follows : ∀ o ∈ t.observers, o.cancelled = false →
    r.firstTicket o.service = some o.stream.since ∧
      o.stream.Follows slot ps (r.mirroredFor o.service)
  mirrored : ∀ k, (r.mirroredFor k).Sublist
    (ps.filter fun p => (r.firstTicket k).any (· ≤ p.ticket))
  silent : r.Pairwise fun x y => ∀ k p, x = .ended k → y ≠ .mirrored k p
  timely : r.Pairwise fun x y => ∀ j p k t, x = .mirrored j p → y = .submitted k t → p.ticket < t

namespace Observed

variable {slot slot' : Slot} {ps new : List Published} {t t' : Staff} {r : HostRecord}

/-- The slot turns and no observer looks. -/
theorem turns (h : Observed slot ps t r) (hslot : slot.Shows ps) (hturn : slot.Turns slot' new) :
    Observed slot' (ps ++ new) t r where
  follows o ho hc := (h.follows o ho hc).imp_right fun hf => hf.turns hslot hturn
  mirrored k := (h.mirrored k).trans (by rw [List.filter_append]; exact List.sublist_append_left _ _)
  silent := h.silent
  timely := h.timely

/-- Who observes does not get more. -/
theorem of_observers (h : Observed slot ps t r)
    (hsub : ∀ o ∈ t'.observers, o.cancelled = false → o ∈ t.observers) : Observed slot ps t' r :=
  ⟨fun o ho hc => h.follows o (hsub o ho hc) hc, h.mirrored, h.silent, h.timely⟩

theorem mem_publications (h : Observed slot ps t r) {k : Nat} {p : Published}
    (hp : .mirrored k p ∈ r) : p ∈ ps :=
  List.mem_of_mem_filter ((h.mirrored k).subset (mem_mirroredFor.mpr hp))

/-- Something is recorded that is neither passed on nor submitted. -/
theorem note (h : Observed slot ps t r) {x : HostOccurrence} (hsub : submissions [x] = [])
    (hmirrored : ∀ k p, x ≠ .mirrored k p) : Observed slot ps t (r ++ [x]) := by
  have hfirst (k) : firstTicket (r ++ [x]) k = firstTicket r k :=
    firstTicket_append_of_submissions_eq_nil r hsub k
  have hfor (k) : mirroredFor (r ++ [x]) k = mirroredFor r k := by
    cases x with
    | mirrored j p => exact absurd rfl (hmirrored j p)
    | _ => simp [mirroredFor]
  refine ⟨fun o ho hc => ?_, fun k => ?_, ?_, ?_⟩
  · rw [hfirst, hfor]
    exact h.follows o ho hc
  · rw [hfirst, hfor]
    exact h.mirrored k
  · refine List.pairwise_append.mpr ⟨h.silent, List.pairwise_singleton _ _, fun y _ z hz k p _ => ?_⟩
    exact List.mem_singleton.mp hz ▸ hmirrored k p
  · refine List.pairwise_append.mpr ⟨h.timely, List.pairwise_singleton _ _, ?_⟩
    rintro y - z hz j p k t' - rfl
    obtain rfl := List.mem_singleton.mp hz
    cases hsub

/-- An action is submitted, with a ticket that comes after everything published so far. -/
theorem submit (h : Observed slot ps t r) {k : Nat} {ticket : Ticket}
    (hlater : ∀ p ∈ ps, p.ticket < ticket) : Observed slot ps t (r ++ [.submitted k ticket]) := by
  have hfor (j) : mirroredFor (r ++ [.submitted k ticket]) j = mirroredFor r j := by
    simp [mirroredFor]
  refine ⟨fun o ho hc => ?_, fun j => ?_, ?_, ?_⟩
  · obtain ⟨hfirst, hfollows⟩ := h.follows o ho hc
    rw [firstTicket_append_submitted, hfirst, hfor]
    exact ⟨rfl, hfollows⟩
  · rw [hfor, firstTicket_append_submitted]
    have hold := h.mirrored j
    rcases hfirst : firstTicket r j with _ | since
    · rw [hfirst] at hold
      have hnil : mirroredFor r j = [] := by simpa using hold
      rw [hnil]
      exact List.nil_sublist _
    · rwa [hfirst] at hold
  · refine List.pairwise_append.mpr ⟨h.silent, List.pairwise_singleton _ _, ?_⟩
    rintro y - z hz j p - rfl
    cases List.mem_singleton.mp hz
  · refine List.pairwise_append.mpr ⟨h.timely, List.pairwise_singleton _ _, ?_⟩
    rintro y hy z hz j p k' t' rfl rfl
    cases List.mem_singleton.mp hz
    exact hlater p (h.mem_publications hy)

/-- A service begins to observe. -/
theorem subscribe (h : Observed slot ps t r) {s : CallService} {ticket : Ticket}
    (hnew : s.cancelled = false →
      r.firstTicket s.number = some ticket ∧ r.mirroredFor s.number = []) :
    Observed slot ps (t.subscribe s ticket) r := by
  refine ⟨fun o ho hc => ?_, h.mirrored, h.silent, h.timely⟩
  rcases List.mem_append.mp ho with ho | ho
  · exact h.follows o ho hc
  · obtain rfl := List.mem_singleton.mp ho
    obtain ⟨hfirst, hnone⟩ := hnew hc
    refine ⟨hfirst, ?_⟩
    rw [hnone]
    exact .start ticket slot ps

/-- An observer looks and passes on what it finds. -/
theorem look (h : Observed slot ps t r) (ht : t.Orderly) {c : Option StartCommand}
    (hrec : Recorded t c r) (hslot : slot.Shows ps) (given : Bool) {o : Observer}
    (ho : o ∈ t.observers) (hc : o.cancelled = false) :
    Observed slot ps
      (t.putObserver o.number (some { o with stream := (o.stream.poll slot given).2 }))
      (r ++ (o.stream.poll slot given).1.item?.toList.map (.mirrored o.service ·)) := by
  obtain ⟨hfirst, hfollows⟩ := h.follows o ho hc
  have hpoll := hfollows.poll hslot given
  have hsince := o.stream.since_poll slot given
  generalize (o.stream.poll slot given).1.item? = found at hpoll
  generalize (o.stream.poll slot given).2 = d at hpoll hsince
  set happened : HostRecord := found.toList.map (.mirrored o.service ·) with hhappened
  have hfirst' (k) : firstTicket (r ++ happened) k = firstTicket r k :=
    firstTicket_append_of_submissions_eq_nil r (by cases found <;> rfl) k
  have hfor : mirroredFor (r ++ happened) o.service = mirroredFor r o.service ++ found.toList := by
    rw [mirroredFor_append]
    cases found <;> simp [hhappened, mirroredFor]
  have hothers {k} (hne : o.service ≠ k) : mirroredFor (r ++ happened) k = mirroredFor r k := by
    rw [mirroredFor_append]
    cases found <;> simp [hhappened, mirroredFor, hne]
  obtain ⟨s, hs, hservice⟩ := ht.employed o ho hc
  obtain ⟨hcancelled, hown⟩ := ht.loyal o ho s hs hservice
  rw [hc] at hcancelled
  refine ⟨fun q hq hqc => ?_, fun k => ?_, ?_, ?_⟩
  · rcases mem_replaced hq with rfl | ⟨hq, hne⟩
    · rw [hfirst', hfor, hsince]
      exact ⟨hfirst, hpoll⟩
    · -- another observer that is not cancelled is one of another service
      have hne' : o.service ≠ q.service := fun hk => hne <| by
        have hown' := (ht.loyal q hq s hs (hservice.trans hk)).2 hcancelled.symm
        exact Option.some.inj (hown'.symm.trans (hown hcancelled.symm))
      rw [hfirst', hothers hne']
      exact h.follows q hq hqc
  · rw [hfirst']
    by_cases hk : o.service = k
    · subst hk
      rw [hfor, hfirst]
      simpa [hsince] using hpoll.sublist
    · rw [hothers hk]
      exact h.mirrored k
  · refine List.pairwise_append.mpr ⟨h.silent, by cases found <;> simp [hhappened], ?_⟩
    rintro _ hx y hy k p rfl rfl
    obtain ⟨p', -, heq⟩ := List.mem_map.mp hy
    cases heq
    -- the service of the observer has not ended
    have hended := (hrec.ended s hs).mpr (hservice ▸ hx)
    rw [← hcancelled] at hended
    cases hended
  · refine List.pairwise_append.mpr ⟨h.timely, by cases found <;> simp [hhappened], ?_⟩
    rintro _ - y hy j p k t' - rfl
    obtain ⟨p', -, heq⟩ := List.mem_map.mp hy
    cases heq

end Observed

/-! ### All along a run -/

namespace Hosting

/-- Everything that holds all along a run of the services. -/
structure Sound (config : EngineConfig) (h : Hosting) : Prop where
  reached : World.Reached config h.world
  orchestrator : h.machine.orchestrator = .engine
  told : h.machine.told.map (·.2) = h.record.filterMap (·.event?)
  given : h.staff.instances ≠ [] → h.world.engine.released = false
  staff : h.staff.Orderly
  recorded : Recorded h.staff h.command h.record
  observed : Observed h.world.engine.slot h.world.chronicle.publications h.staff h.record

variable {config : EngineConfig} {h : Hosting} {w : World} {t : Staff} {c : Option StartCommand}
  {r : HostRecord}

theorem Sound.new (config : EngineConfig) : (Hosting.new config).Sound config where
  reached := .refl
  orchestrator := rfl
  told := rfl
  given hne := absurd rfl hne
  staff := by constructor <;> simp [Hosting.new, Hosting.staff, Machine.new]
  recorded := by constructor <;> simp [Hosting.new, Hosting.staff, Machine.new, submissions]
  observed := by constructor <;> simp [Hosting.new, Hosting.staff, Machine.new, mirroredFor]

theorem Moves.reached (hm : h.Moves w t c r) (hr : World.Reached config h.world) :
    World.Reached config w := by
  cases hm with
  | around m ha => exact hr.tail ⟨m, trivial, ha, rfl⟩
  | submit k action => exact hr.tail ⟨_, trivial, rfl, rfl⟩
  | _ => exact hr

theorem Moves.given (hm : h.Moves w t c r)
    (hg : h.staff.instances ≠ [] → h.world.engine.released = false) :
    t.instances ≠ [] → w.engine.released = false := by
  have kept {s : CallService} (hs : s ∈ h.staff.instances) : h.world.engine.released = false :=
    hg (List.ne_nil_of_mem hs)
  intro hne
  cases hm with
  | around m ha hr => exact (World.released_move ha fun hm => hne (hr hm)).trans (hg hne)
  | build _ hr => exact hr
  | submit => exact hg hne
  | subscribe s _ hs => exact kept hs
  | dismiss s _ hs => exact kept hs
  | _ => exact hg hne

theorem Sound.orderly (hs : h.Sound config) (hm : h.Moves w t c r) : t.Orderly := by
  cases hm with
  | build => exact hs.staff.hire
  | subscribe s ticket hmem _ ho => exact hs.staff.subscribe hmem ho ticket
  | dismiss s after hmem _ ha => exact hs.staff.dismiss hmem ha
  | look o hmem => exact hs.staff.look hmem rfl rfl rfl
  | leave o hmem hend =>
    refine hs.staff.leave hmem (hend.imp_right fun hgiven => ?_)
    by_contra hne
    simp [Engine.slotGiven, hs.given hne] at hgiven
  | _ => exact hs.staff

theorem Sound.observe (hs : h.Sound config) (hm : h.Moves w t c r) :
    Observed w.engine.slot w.chronicle.publications t r := by
  have hshows := hs.reached.shows
  have around {m : Move} (ha : h.world.allows m = true) :
      Observed (h.world.after m).engine.slot (h.world.after m).chronicle.publications h.staff
        h.record := by
    rw [World.after, publications_append]
    exact hs.observed.turns hshows (World.moves ha).slot
  cases hm with
  | same => exact hs.observed
  | around m ha => exact around ha
  | build => exact hs.observed.of_observers fun _ ho _ => ho
  | begin => exact hs.observed.note rfl (by simp)
  | submit k action hc =>
    refine (around rfl).submit fun p hp => ?_
    have hquiet := ((h.world.engine.outside_submit (action.getD (.start .default))).readings
      h.world.now).2
    rw [World.after, publications_append, World.occurrences,
      publications_of_published_eq_nil hquiet, List.append_nil] at hp
    exact hs.reached.publication_lt hp
  | subscribe s ticket hmem hc ho =>
    refine hs.observed.subscribe fun hsc => ?_
    obtain ⟨hfirst, hnone⟩ := hs.recorded.waiting s hmem hsc ho
    exact ⟨by simpa [hc, StartCommand.ticketOf?] using hfirst, hnone⟩
  | subscribed => exact hs.observed
  | dismiss s after hmem _ ha =>
    refine (hs.observed.note rfl (by simp)).of_observers fun o ho hc => ?_
    obtain ⟨p, hp, -, -, -, hcancelled, hkept⟩ := Staff.Orderly.mem_dismiss ho
    rw [hkept fun hk => by simp [hcancelled hk] at hc]
    exact hp
  | look o hmem hc => exact hs.observed.look hs.staff hs.recorded hshows _ hmem hc
  | leave o => exact hs.observed.of_observers fun _ ho _ => List.mem_of_mem_filter ho

theorem Sound.move (hs : h.Sound config) {m : HostMove} (ha : h.allows m = true) :
    (h.move m).Sound config := by
  have hm := moves hs.staff.services hs.orchestrator ha
  obtain ⟨new, hrecord, htells⟩ := tells_move hs.orchestrator m
  exact {
    reached := hm.reached hs.reached
    orchestrator := htells.orchestrator.trans hs.orchestrator
    told := by rw [htells.told, hrecord, hs.told, List.filterMap_append]
    given := hm.given hs.given
    staff := hs.orderly hm
    recorded := hs.recorded.moves hs.staff hm
    observed := hs.observe hm }

theorem Reached.sound (hr : Reached config h) : h.Sound config := by
  induction hr with
  | refl => exact .new config
  | tail _ hstep ih =>
    obtain ⟨m, ha, rfl⟩ := hstep
    exact ih.move ha

/-! ### Mirroring -/

/-- A service that submitted an action and has not ended has one observer, or is about to have
one. -/
theorem Sound.observers (hs : h.Sound config) {s : CallService} (hmem : s ∈ h.instances)
    (hlive : .ended s.number ∉ h.record) {first : Ticket}
    (hfirst : h.record.firstTicket s.number = some first) :
    (∃ o, h.machine.observers.filter (·.service = s.number) = [o]) ∨
      h.command = some (.submitted s.number first) := by
  have hc : s.cancelled = false := by
    rw [← Bool.not_eq_true, hs.recorded.ended s hmem]
    exact hlive
  rcases hn : s.observer with _ | n
  · right
    have hwaiting := (hs.recorded.waiting s hmem hc hn).1
    rw [hfirst] at hwaiting
    obtain ⟨x, hx, hticket⟩ := Option.bind_eq_some_iff.mp hwaiting.symm
    rcases x with _ | ⟨j, ticket⟩
    · cases hticket
    · obtain ⟨rfl, rfl⟩ : j = s.number ∧ ticket = first := by
        simpa [StartCommand.ticketOf?] using hticket
      exact hx
  · left
    obtain ⟨o, ho, rfl, hservice⟩ := hs.staff.attended s hmem hc n hn
    have hnodup : (h.machine.observers.filter (·.service = s.number)).Nodup :=
      hs.staff.observers.of_map.filter _
    refine ⟨o, List.perm_singleton.mp
      ((List.perm_ext_iff_of_nodup hnodup (List.nodup_singleton o)).mpr fun x => ?_)⟩
    rw [List.mem_filter, List.mem_singleton, decide_eq_true_iff]
    constructor
    · rintro ⟨hx, hxs⟩
      have hown := (hs.staff.loyal x hx s hmem hxs.symm).2 hc
      exact List.inj_on_of_nodup_map hs.staff.observers hx ho (Option.some.inj (hown.symm.trans hn))
    · rintro rfl
      exact ⟨ho, hservice⟩

/-- An observer that has nothing to see passed on what stands in the slot, unless that is nothing or
too old for its service. -/
theorem Sound.idle (hs : h.Sound config) {o : Observer} (ho : o ∈ h.machine.observers)
    (hidle : o.isReady h.machine.engine.slot h.machine.engine.slotGiven = false) :
    ∃ first, h.record.firstTicket o.service = some first ∧
      (h.machine.engine.slot.value = none ∨
        (∃ p, h.machine.engine.slot.value = some p ∧ p.ticket < first) ∨
        ∃ p, h.machine.engine.slot.value = some p ∧
          (h.record.mirroredFor o.service).getLast? = some p) := by
  simp only [Observer.isReady, Bool.or_eq_false_iff] at hidle
  obtain ⟨⟨hc, hstale⟩, -⟩ := hidle
  obtain ⟨hfirst, hfollows⟩ := hs.observed.follows o ho hc
  exact ⟨o.stream.since, hfirst, hfollows.settled hstale⟩

/-- **Services mirror decisions.** However calls of the host, steps of the engine and looks of the
observers follow each other, over any number of services that share an engine:
what the host is told is the placeholders and the decisions that the record says; what is passed on
for a service is, in order and without repetition, some of the publications for its first start
command and later actions; nothing is passed on for a service after its end, whatever is still
started on it; each start command shows one placeholder and then submits its action, and before that
nothing is passed on for this action or a later one; a service that has not ended is observed by one
observer from its first start command on; and whenever an observer has nothing to see, the slot is
empty, or holds a decision from before its service's first start command, or the one that was passed
on last. -/
theorem Reached.mirrors (hr : Reached config h) :
    World.Reached config h.world ∧
    h.machine.told.map (·.2) = h.record.filterMap (·.event?) ∧
    (∀ k, (h.record.mirroredFor k).Sublist
        (h.chronicle.publications.filter fun p => (h.record.firstTicket k).any (· ≤ p.ticket)) ∧
      (h.record.mirroredFor k).Pairwise fun p q => p.seq < q.seq) ∧
    (h.record.Pairwise fun x y => ∀ k p, x = .ended k → y ≠ .mirrored k p) ∧
    (h.record.filter (·.ofCommand) =
        (h.record.submissions.flatMap fun x => [.shown x.1, .submitted x.1 x.2]) ++
          (h.command.map (·.open?)).getD [] ∧
      h.record.Pairwise fun x y => ∀ j p k t, x = .mirrored j p → y = .submitted k t →
        p.ticket < t) ∧
    (∀ s ∈ h.instances, .ended s.number ∉ h.record →
      ∀ first, h.record.firstTicket s.number = some first →
        (∃ o, h.machine.observers.filter (·.service = s.number) = [o]) ∨
          h.command = some (.submitted s.number first)) ∧
    ∀ o ∈ h.machine.observers,
      o.isReady h.machine.engine.slot h.machine.engine.slotGiven = false →
      ∃ first, h.record.firstTicket o.service = some first ∧
        (h.machine.engine.slot.value = none ∨
          (∃ p, h.machine.engine.slot.value = some p ∧ p.ticket < first) ∨
          ∃ p, h.machine.engine.slot.value = some p ∧
            (h.record.mirroredFor o.service).getLast? = some p) := by
  have hs := hr.sound
  have hordered (k) : (h.record.mirroredFor k).Pairwise fun p q => p.seq < q.seq :=
    hs.reached.publications_ascend.sublist ((hs.observed.mirrored k).trans List.filter_sublist)
  exact ⟨hs.reached, hs.told, fun k => ⟨hs.observed.mirrored k, hordered k⟩, hs.observed.silent,
    ⟨hs.recorded.placeholders, hs.observed.timely⟩,
    fun _ hmem hlive _ hfirst => hs.observers hmem hlive hfirst, fun _ => hs.idle⟩

/-- A run of two services. The first one is told to stop, and the engine decides before it observes;
it is destroyed, and started once more in vain. The second one finds that decision in the slot, which
is not for it; then it is told to stop, too. -/
def twoServices : List HostMove :=
  [.around .start, .build, .create 0, .begin 0 (some .stop), .submit, .around (.go .controller),
    .subscribe, .poll 1, .destroy 0, .begin 0 none, .submit, .subscribe, .poll 2,
    .build, .create 3, .begin 3 none, .submit, .subscribe, .poll 4, .begin 3 (some .stop), .submit,
    .subscribe, .around (.go .controller), .around (.go .controller),
    .around (.go (.pipeline 1)), .around (.go (.pipeline 1)), .around (.go .controller),
    .around (.go .controller), .around (.go (.pipeline 2)), .around (.go (.pipeline 2)),
    .around (.go .controller), .poll 4]

theorem mirrors_twoServices :
    Reached default ((new default).run twoServices) ∧
    ((new default).run twoServices).record =
      [.shown 0, .submitted 0 ⟨1⟩, .mirrored 0 (stopPublication 1 ⟨1⟩).1, .ended 0,
        .shown 0, .submitted 0 ⟨2⟩, .shown 3, .submitted 3 ⟨3⟩,
        .shown 3, .submitted 3 ⟨4⟩, .mirrored 3 (stopPublication 2 ⟨4⟩).1] ∧
    ∃ o, ((new default).run twoServices).machine.observers.filter (·.service = 3) = [o] := by
  have hr : Reached default ((new default).run twoServices) := reached_run .refl (by decide)
  have hrecord : ((new default).run twoServices).record =
      [.shown 0, .submitted 0 ⟨1⟩, .mirrored 0 (stopPublication 1 ⟨1⟩).1, .ended 0,
        .shown 0, .submitted 0 ⟨2⟩, .shown 3, .submitted 3 ⟨3⟩,
        .shown 3, .submitted 3 ⟨4⟩, .mirrored 3 (stopPublication 2 ⟨4⟩).1] := rfl
  have hone := (Reached.mirrors hr).2.2.2.2.2.1 ⟨3, false, some 4⟩
    (List.mem_cons_of_mem _ List.mem_cons_self) (by rw [hrecord]; simp) ⟨3⟩ rfl
  exact ⟨hr, hrecord, hone.resolve_right (by rintro ⟨⟩)⟩

end Hosting

end CallWatch
