import CallWatch.Proofs.Engine.Order

/-! # What is published

Publications are numbered one after the other, and every one is for the action that was processed
last: of a stop there is exactly one, of a start there are decisions of the pipeline that was begun
for it, and a failure is the last of them. What other pipelines sent is never published.

`Accounts e c` ties the engine to its chronicle. The controller is at one of three points: it waits
to handle the action that it took, it follows the pipeline of a start, or it has nothing to publish
until the next action. -/

namespace CallWatch

open Chronicle

/-! ### Readings of single moves -/

theorem Pipeline.Steps.readings {s : Surroundings} {held : AccountRef → Bool} {p p' : Pipeline}
    {happened : List Occurrence} {output : Option PipelineOutput}
    (h : p.Steps s held p' happened output) (now : Nat) :
    processed (happened.map (now, ·)) = [] ∧ published (happened.map (now, ·)) = [] ∧
      accepted (happened.map (now, ·)) = [] := by
  have decided (d : Option Decision) :
      processed ((d.toList.map fun d => Occurrence.decided p.generation d).map (now, ·)) = [] ∧
      published ((d.toList.map fun d => Occurrence.decided p.generation d).map (now, ·)) = [] ∧
      accepted ((d.toList.map fun d => Occurrence.decided p.generation d).map (now, ·)) = [] := by
    cases d <;> exact ⟨rfl, rfl, rfl⟩
  cases h with
  | consume item => exact decided (p.decided? s held)
  | look => exact decided _
  | resolve => exact decided _
  | _ => exact ⟨rfl, rfl, rfl⟩

/-- A pipeline sends under its own generation, and that is noted. -/
theorem Pipeline.Steps.emitted {s : Surroundings} {held : AccountRef → Bool} {p p' : Pipeline}
    {happened : List Occurrence} {output : Option PipelineOutput}
    (h : p.Steps s held p' happened output) :
    ∀ o ∈ output, o.generation = p.generation ∧ .emitted o.generation o.result ∈ happened := by
  cases h with
  | send => rintro o ⟨⟩; exact ⟨rfl, List.mem_cons_self⟩
  | sendLast => rintro o ⟨⟩; exact ⟨rfl, List.mem_cons_self⟩
  | _ => rintro o ⟨⟩

theorem Engine.Outside.readings {e e' : Engine} {m : Move} {happened : List Occurrence}
    (h : e.Outside m e' happened) (now : Nat) :
    processed (happened.map (now, ·)) = [] ∧ published (happened.map (now, ·)) = [] := by
  cases h <;> exact ⟨rfl, rfl⟩

/-! ### The account of the engine -/

/-- The controller took an action and waits for the end of a pipeline before it handles it. -/
def Engine.Handles (e : Engine) (t : Ticket) (a : Action) : Prop :=
  ∃ g, e.controller = .retiring g (.handle t a)

/-- The publication of a stop that was asked for. -/
def stopPublication (seq : Nat) (t : Ticket) : Published × Option Nat :=
  (⟨seq, t, .ok (.stop .actionStopCalled)⟩, none)

/-- A publication with its source is for the action that was processed last: a stop that was asked
for, or something that the newest pipeline sent, which was begun for that action. -/
def Engine.IsCurrent (e : Engine) (c : Chronicle) (x : Published × Option Nat) : Prop :=
  match x.2 with
  | none => c.lastProcessed = some (x.1.ticket, .stop) ∧ x = stopPublication x.1.seq x.1.ticket
  | some g => (∃ how, c.lastProcessed = some (x.1.ticket, .start how)) ∧ g = e.generation ∧
      (∃ n, (n, .began g x.1.ticket) ∈ c.recent) ∧ ∃ n, (n, .emitted g x.1.result) ∈ c

/-- How the engine agrees with its chronicle. -/
structure Engine.Accounts (e : Engine) (c : Chronicle) : Prop where
  /-- Tickets ascend from the action processed first to the one that waits last. -/
  ascending : (c.processed ++ e.queue.items).Pairwise fun x y => x.1.number < y.1.number
  issued : ∀ x ∈ c.processed ++ e.queue.items, x.1.number < e.queue.nextTicket
  seqs : c.published.map (·.1.seq) = List.range' 1 e.seq
  ordered : c.published.Pairwise fun x y => x.1.ticket ≤ y.1.ticket
  bounded : ∀ x ∈ c.published, ∃ l, c.lastProcessed = some l ∧ x.1.ticket ≤ l.1
  recent : ∀ l, c.lastProcessed = some l → c.recent.published = c.publishedFor l.1
  isCurrent : ∀ x ∈ c.recent.published, e.IsCurrent c x
  handles : ∀ t a, e.Handles t a → c.lastProcessed = some (t, a) ∧ c.publishedFor t = []
  active : ∀ active, e.current = some active →
    (∃ how, c.lastProcessed = some (active.ticket, .start how)) ∧
    active.generation = e.generation ∧
    (∃ n, (n, .began active.generation active.ticket) ∈ c.recent) ∧
    ∀ x ∈ c.publishedFor active.ticket, ∃ d, x.1.result = .ok d
  stops : ∀ t, (t, .stop) ∈ c.processed →
    e.Handles t .stop ∨ ∃ n, c.publishedFor t = [stopPublication n t]
  failures : ∀ t, ∀ x ∈ (c.publishedFor t).dropLast, ∃ d, x.1.result = .ok d
  sent : ∀ o ∈ e.channel, ∃ n, (n, .emitted o.generation o.result) ∈ c

namespace Engine.Accounts

theorem new (config : EngineConfig) : (Engine.new config).Accounts [] where
  ascending := by simp [Engine.new, processed]
  issued := by simp [Engine.new, processed]
  seqs := rfl
  ordered := by simp [published]
  bounded := by simp [published]
  recent := by simp [lastProcessed, processed]
  isCurrent := by simp [Chronicle.recent, published]
  handles := by simp [Handles, Engine.new]
  active := by simp [Engine.new]
  stops := by simp [processed]
  failures := by simp [publishedFor, published]
  sent := by simp [Engine.new]

variable {e : Engine} {c : Chronicle}

/-- What publishes nothing and processes nothing keeps the account, if the queue keeps its order and
the controller stays where it is as far as publishing goes. -/
theorem of_quiet (h : e.Accounts c) (e' : Engine) (c' : Chronicle) (hproc : processed c' = [])
    (hpub : published c' = []) (hseq : e'.seq = e.seq) (hgen : e'.generation = e.generation)
    (hcon : ∀ t a, e'.Handles t a ↔ e.Handles t a)
    (hcur : ∀ active, e'.current = some active → e.current = some active)
    (hasc : (c.processed ++ e'.queue.items).Pairwise fun x y => x.1.number < y.1.number)
    (hiss : ∀ x ∈ c.processed ++ e'.queue.items, x.1.number < e'.queue.nextTicket)
    (hsent : ∀ o ∈ e'.channel, ∃ n, (n, .emitted o.generation o.result) ∈ c ++ c') :
    e'.Accounts (c ++ c') := by
  have hlast := lastProcessed_append_of_processed_eq_nil c hproc
  have hrecent := recent_append_of_processed_eq_nil c hproc
  have hfor := publishedFor_append_of_published_eq_nil c hpub
  have hbegan {g t} (h : ∃ n, (n, Occurrence.began g t) ∈ c.recent) :
      ∃ n, (n, Occurrence.began g t) ∈ Chronicle.recent (c ++ c') := by
    rw [hrecent]
    exact h.imp fun n hn => List.mem_append_left _ hn
  constructor
  case ascending =>
    rw [processed_append, hproc, List.append_nil]
    exact hasc
  case issued =>
    rw [processed_append, hproc, List.append_nil]
    exact hiss
  case seqs =>
    rw [published_append, hpub, List.append_nil, hseq]
    exact h.seqs
  case ordered =>
    rw [published_append, hpub, List.append_nil]
    exact h.ordered
  case bounded =>
    rw [published_append, hpub, List.append_nil, hlast]
    exact h.bounded
  case recent =>
    intro l hl
    rw [hrecent, published_append, hpub, List.append_nil, hfor]
    exact h.recent l (hlast ▸ hl)
  case isCurrent =>
    intro x hx
    rw [hrecent, published_append, hpub, List.append_nil] at hx
    have hx' := h.isCurrent x hx
    unfold IsCurrent at hx' ⊢
    split at hx' <;> rw [hlast]
    · exact hx'
    · obtain ⟨hl, hg, hb, n, hn⟩ := hx'
      exact ⟨hl, by rw [hgen, hg], hbegan hb, n, List.mem_append_left _ hn⟩
  case handles =>
    intro t a ht
    rw [hlast, hfor]
    exact h.handles t a ((hcon t a).mp ht)
  case active =>
    intro active ha
    obtain ⟨hl, hg, hb, hok⟩ := h.active active (hcur active ha)
    rw [hlast, hfor]
    exact ⟨hl, by rw [hgen, hg], hbegan hb, hok⟩
  case stops =>
    intro t ht
    rw [processed_append, hproc, List.append_nil] at ht
    rw [hfor]
    exact (h.stops t ht).imp_left (hcon t .stop).mpr
  case failures =>
    intro t
    rw [hfor]
    exact h.failures t
  case sent =>
    exact hsent

theorem mem_publishedFor {c : Chronicle} {t : Ticket} {x : Published × Option Nat} :
    x ∈ c.publishedFor t ↔ x ∈ c.published ∧ x.1.ticket = t := by
  simp [publishedFor]

/-- Everything published so far is for an action before the one that is taken next. -/
theorem lt_of_published (h : e.Accounts c) {t : Ticket} {a : Action}
    {rest : List (Ticket × Action)} (hq : e.queue.items = (t, a) :: rest)
    {x : Published × Option Nat} (hx : x ∈ c.published) : x.1.ticket.number < t.number := by
  obtain ⟨l, hl, hle⟩ := h.bounded x hx
  have hasc := h.ascending
  rw [hq, List.pairwise_append] at hasc
  exact Nat.lt_of_le_of_lt hle
    (hasc.2.2 l (List.mem_of_getLast? hl) (t, a) List.mem_cons_self)

/-- A ticket was processed with one action only. -/
theorem action_unique (h : e.Accounts c) {t : Ticket} {a b : Action} (ha : (t, a) ∈ c.processed)
    (hb : (t, b) ∈ c.processed) : a = b := by
  have hasc := (List.pairwise_append.mp h.ascending).1
  obtain ⟨i, hi, hia⟩ := List.getElem_of_mem ha
  obtain ⟨j, hj, hjb⟩ := List.getElem_of_mem hb
  rw [List.pairwise_iff_getElem] at hasc
  rcases Nat.lt_trichotomy i j with hij | rfl | hij
  · have := hasc i j hi hj hij
    rw [hia, hjb] at this
    exact absurd this (Nat.lt_irrefl _)
  · rw [hia] at hjb
    exact congrArg (·.2) hjb
  · have := hasc j i hj hi hij
    rw [hia, hjb] at this
    exact absurd this (Nat.lt_irrefl _)

/-- Taking an action that is to be handled once the previous pipeline is gone. -/
theorem take (h : e.Accounts c) (e' : Engine) {t : Ticket} {a : Action}
    {rest : List (Ticket × Action)}
    (hq : e.queue.items = (t, a) :: rest) (hfree : ∀ t a, ¬ e.Handles t a)
    (hitems : e'.queue.items = rest) (hnext : e'.queue.nextTicket = e.queue.nextTicket)
    (hseq : e'.seq = e.seq) (hcur : e'.current = none) {g : Nat}
    (hcon : e'.controller = .retiring g (.handle t a)) (hch : e'.channel = e.channel) (now : Nat) :
    e'.Accounts (c ++ [(now, .processed t a)]) := by
  have hproc : processed (c ++ [(now, .processed t a)]) = processed c ++ [(t, a)] := by
    rw [processed_append]; rfl
  have hpub : published (c ++ [(now, .processed t a)]) = published c := by
    rw [published_append]; exact List.append_nil _
  have hfor (t') : publishedFor (c ++ [(now, .processed t a)]) t' = publishedFor c t' :=
    publishedFor_append_of_published_eq_nil c rfl t'
  have hlast := lastProcessed_append_processed c [] now t a rfl
  have hrecent := recent_append_processed c [] now t a rfl
  have hnone : publishedFor c t = [] := by
    refine List.eq_nil_iff_forall_not_mem.mpr fun x hx => ?_
    obtain ⟨hx', rfl⟩ := mem_publishedFor.mp hx
    exact Nat.lt_irrefl _ (h.lt_of_published hq hx')
  have hall : processed (c ++ [(now, .processed t a)]) ++ e'.queue.items =
      processed c ++ e.queue.items := by
    rw [hproc, hitems, hq, List.append_assoc, List.singleton_append]
  have hhandles {t' a'} (ht : e'.Handles t' a') : t' = t ∧ a' = a := by
    obtain ⟨g', hg'⟩ := ht
    rw [hcon] at hg'
    cases hg'
    exact ⟨rfl, rfl⟩
  constructor
  case ascending =>
    rw [hall]
    exact h.ascending
  case issued =>
    rw [hall, hnext]
    exact h.issued
  case seqs =>
    rw [hpub, hseq]
    exact h.seqs
  case ordered =>
    rw [hpub]
    exact h.ordered
  case bounded =>
    intro x hx
    rw [hpub] at hx
    exact ⟨(t, a), hlast, Nat.le_of_lt (h.lt_of_published hq hx)⟩
  case recent =>
    intro l hl
    rw [hlast] at hl
    cases hl
    rw [hrecent, hfor, hnone]
    rfl
  case isCurrent =>
    rw [hrecent]
    intro x hx
    cases hx
  case handles =>
    intro t' a' ht
    obtain ⟨rfl, rfl⟩ := hhandles ht
    exact ⟨hlast, by rw [hfor, hnone]⟩
  case active =>
    intro active ha
    rw [hcur] at ha
    cases ha
  case stops =>
    intro t' ht
    rw [hproc] at ht
    rcases List.mem_append.mp ht with ht | ht
    · rw [hfor]
      exact .inr ((h.stops t' ht).resolve_left (hfree t' _))
    · cases List.mem_singleton.mp ht
      exact .inl ⟨g, hcon⟩
  case failures =>
    intro t'
    rw [hfor]
    exact h.failures t'
  case sent =>
    intro o ho
    rw [hch] at ho
    exact (h.sent o ho).imp fun n hn => List.mem_append_left _ hn

/-- Publishing something for the action processed last. -/
theorem announce (h : e.Accounts c) (e' : Engine) {t : Ticket} {a : Action} (r : DecisionResult)
    (source : Option Nat) (hlast : c.lastProcessed = some (t, a))
    (hok : ∀ x ∈ c.publishedFor t, ∃ d, x.1.result = .ok d)
    (hqueue : e'.queue = e.queue) (hseq : e'.seq = e.seq + 1) (hgen : e'.generation = e.generation)
    (hcon : ∀ t a, ¬ e'.Handles t a) (hcon' : ∀ t' a', e.Handles t' a' → t' = t)
    (hcur : ∀ active, e'.current = some active →
      e.current = some active ∧ active.ticket = t ∧ ∃ d, r = .ok d)
    (hsource : e.IsCurrent c (⟨e.seq + 1, t, r⟩, source))
    (hstop : a = .stop → c.publishedFor t = [])
    (hch : ∀ o ∈ e'.channel, o ∈ e.channel) (now : Nat) :
    e'.Accounts (c ++ [(now, .published ⟨e.seq + 1, t, r⟩ source)]) := by
  set x : Published × Option Nat := (⟨e.seq + 1, t, r⟩, source) with hx
  set c' := c ++ [(now, Occurrence.published ⟨e.seq + 1, t, r⟩ source)] with hc'
  have hproc : processed c' = processed c := by
    rw [hc', processed_append]; exact List.append_nil _
  have hpub : published c' = published c ++ [x] := by
    rw [hc', published_append]; rfl
  have hfor : publishedFor c' t = publishedFor c t ++ [x] := by
    simp [publishedFor, hpub, hx]
  have hforne {t'} (hne : t' ≠ t) : publishedFor c' t' = publishedFor c t' := by
    simp [publishedFor, hpub, hx, Ne.symm hne]
  have hlast' : c'.lastProcessed = c.lastProcessed :=
    lastProcessed_append_of_processed_eq_nil c rfl
  have hrecent : c'.recent = c.recent ++ [(now, .published ⟨e.seq + 1, t, r⟩ source)] :=
    recent_append_of_processed_eq_nil c rfl
  have hgrow {y} (hy : e.IsCurrent c y) : e'.IsCurrent c' y := by
    unfold IsCurrent at hy ⊢
    split at hy <;> rw [hlast']
    · exact hy
    · obtain ⟨hl, hg, ⟨n, hn⟩, m, hm⟩ := hy
      exact ⟨hl, by rw [hgen, hg], ⟨n, hrecent ▸ List.mem_append_left _ hn⟩, m,
        List.mem_append_left _ hm⟩
  constructor
  case ascending =>
    rw [hproc, hqueue]
    exact h.ascending
  case issued =>
    rw [hproc, hqueue]
    exact h.issued
  case seqs =>
    rw [hpub, hseq, List.map_append, h.seqs, List.range'_1_concat]
    simp [hx, Nat.add_comm]
  case ordered =>
    rw [hpub, List.pairwise_append]
    refine ⟨h.ordered, List.pairwise_singleton _ _, fun y hy z hz => ?_⟩
    obtain rfl := List.mem_singleton.mp hz
    obtain ⟨l, hl, hle⟩ := h.bounded y hy
    rw [hlast] at hl
    cases hl
    exact hle
  case bounded =>
    intro y hy
    rw [hpub] at hy
    rw [hlast']
    rcases List.mem_append.mp hy with hy | hy
    · exact h.bounded y hy
    · obtain rfl := List.mem_singleton.mp hy
      exact ⟨(t, a), hlast, Nat.le_refl _⟩
  case recent =>
    intro l hl
    rw [hlast', hlast] at hl
    cases hl
    rw [hrecent, published_append, h.recent _ hlast, hfor]
    rfl
  case isCurrent =>
    intro y hy
    rw [hrecent, published_append] at hy
    rcases List.mem_append.mp hy with hy | hy
    · exact hgrow (h.isCurrent y hy)
    · obtain rfl := List.mem_singleton.mp hy
      exact hgrow hsource
  case handles =>
    exact fun t' a' ht => absurd ht (hcon t' a')
  case active =>
    intro active ha
    obtain ⟨ha, rfl, hd⟩ := hcur active ha
    obtain ⟨hl, hg, ⟨n, hn⟩, -⟩ := h.active active ha
    refine ⟨hlast' ▸ hl, by rw [hgen, hg], ⟨n, hrecent ▸ List.mem_append_left _ hn⟩, ?_⟩
    intro y hy
    rw [hfor] at hy
    rcases List.mem_append.mp hy with hy | hy
    · exact hok y hy
    · obtain rfl := List.mem_singleton.mp hy
      exact hd
  case stops =>
    intro t' ht
    rw [hproc] at ht
    refine .inr ?_
    by_cases hne : t' = t
    · subst hne
      obtain rfl := h.action_unique (List.mem_of_getLast? hlast) ht
      rw [hfor, hstop rfl, List.nil_append]
      have hst := hsource
      unfold IsCurrent at hst
      split at hst
      · exact ⟨_, by rw [← hst.2]⟩
      · obtain ⟨⟨how, hl⟩, -⟩ := hst
        rw [hlast] at hl
        cases hl
    · rw [hforne hne]
      exact (h.stops t' ht).resolve_left fun hh => hne (hcon' t' _ hh)
  case failures =>
    intro t' y hy
    by_cases hne : t' = t
    · subst hne
      rw [hfor, List.dropLast_concat] at hy
      exact hok y hy
    · rw [hforne hne] at hy
      exact h.failures t' y hy
  case sent =>
    intro o ho
    exact (h.sent o (hch o ho)).imp fun n hn => List.mem_append_left _ hn

/-- Beginning the pipeline of a start that was to be handled. -/
theorem begin (h : e.Accounts c) (e' : Engine) {t : Ticket} {how : StartAction}
    (ht : e.Handles t (.start how))
    (hqueue : e'.queue = e.queue) (hseq : e'.seq = e.seq)
    (hgen : e'.generation = e.generation + 1) (hcon : ∀ t a, ¬ e'.Handles t a)
    (hcur : e'.current = some ⟨e.generation + 1, t⟩) (hch : e'.channel = e.channel) (now : Nat) :
    e'.Accounts (c ++ [(now, .began (e.generation + 1) t)]) := by
  obtain ⟨hlast, hnone⟩ := h.handles t _ ht
  obtain ⟨g, hg⟩ := ht
  have hproc : processed (c ++ [(now, .began (e.generation + 1) t)]) = processed c := by
    rw [processed_append]; exact List.append_nil _
  have hpub : published (c ++ [(now, .began (e.generation + 1) t)]) = published c := by
    rw [published_append]; exact List.append_nil _
  have hfor (t') : publishedFor (c ++ [(now, .began (e.generation + 1) t)]) t' =
      publishedFor c t' := publishedFor_append_of_published_eq_nil c rfl t'
  have hlast' : Chronicle.lastProcessed (c ++ [(now, .began (e.generation + 1) t)]) =
      c.lastProcessed := lastProcessed_append_of_processed_eq_nil c rfl
  have hrecent : Chronicle.recent (c ++ [(now, .began (e.generation + 1) t)]) =
      c.recent ++ [(now, .began (e.generation + 1) t)] :=
    recent_append_of_processed_eq_nil c rfl
  have hpubrecent : published (Chronicle.recent (c ++ [(now, .began (e.generation + 1) t)])) =
      c.publishedFor t := by
    rw [hrecent, published_append, h.recent _ hlast]; exact List.append_nil _
  constructor
  case ascending =>
    rw [hproc, hqueue]
    exact h.ascending
  case issued =>
    rw [hproc, hqueue]
    exact h.issued
  case seqs =>
    rw [hpub, hseq]
    exact h.seqs
  case ordered =>
    rw [hpub]
    exact h.ordered
  case bounded =>
    rw [hpub, hlast']
    exact h.bounded
  case recent =>
    intro l hl
    rw [hlast', hlast] at hl
    cases hl
    rw [hpubrecent, hfor]
  case isCurrent =>
    rw [hpubrecent, hnone]
    intro x hx
    cases hx
  case handles =>
    exact fun t' a' ht => absurd ht (hcon t' a')
  case active =>
    intro active ha
    rw [hcur] at ha
    cases ha
    rw [hlast', hfor, hnone]
    exact ⟨⟨how, hlast⟩, hgen.symm, ⟨now, by rw [hrecent]; simp⟩, by simp⟩
  case stops =>
    intro t' ht
    rw [hproc] at ht
    rw [hfor]
    refine .inr ((h.stops t' ht).resolve_left ?_)
    rintro ⟨g', hg'⟩
    rw [hg] at hg'
    cases hg'
  case failures =>
    intro t'
    rw [hfor]
    exact h.failures t'
  case sent =>
    intro o ho
    rw [hch] at ho
    exact (h.sent o ho).imp fun n hn => List.mem_append_left _ hn

/-! ### The account is kept -/

/-- The controller is at nothing that it still has to handle. -/
theorem not_handles_of_ne {e : Engine} (h : ∀ g errand, e.controller ≠ .retiring g errand)
    (t : Ticket) (a : Action) : ¬ e.Handles t a := by
  rintro ⟨g, hg⟩
  exact h g _ hg

/-- Publishing a stop that was to be handled. -/
theorem handleStop (h : e.Accounts c) (e' : Engine) {t : Ticket} (ht : e.Handles t .stop)
    (hqueue : e'.queue = e.queue) (hseq : e'.seq = e.seq + 1) (hgen : e'.generation = e.generation)
    (hcon : ∀ t a, ¬ e'.Handles t a) (hcur : e'.current = none) (hch : e'.channel = e.channel)
    (now : Nat) :
    e'.Accounts
      (c ++ [(now, .published (e.nextPublication t (.ok (.stop .actionStopCalled))) none)]) := by
  obtain ⟨hlast, hnone⟩ := h.handles t _ ht
  obtain ⟨g, hg⟩ := ht
  refine h.announce e' _ none hlast (by simp [hnone]) hqueue hseq hgen hcon ?_ ?_ ⟨hlast, rfl⟩
    (fun _ => hnone) (fun o ho => hch ▸ ho) now
  · rintro t' a' ⟨g', hg'⟩
    rw [hg] at hg'
    cases hg'
    rfl
  · intro active ha
    rw [hcur] at ha
    cases ha

/-- Publishing what the current pipeline sent. -/
theorem receive (h : e.Accounts c) (e' : Engine) {active : ActivePipeline} {o : PipelineOutput}
    {rest : List PipelineOutput} (hc : e.controller = .listening) (hch : e.channel = o :: rest)
    (hcur : e.current = some active) (hg : active.generation = o.generation)
    (hqueue : e'.queue = e.queue) (hseq : e'.seq = e.seq + 1) (hgen : e'.generation = e.generation)
    (hcon : ∀ t a, ¬ e'.Handles t a) (hchannel : e'.channel = rest)
    (hcur' : ∀ active', e'.current = some active' →
      e.current = some active' ∧ ∃ d, o.result = .ok d) (now : Nat) :
    e'.Accounts (c ++ [(now,
      .published (e.nextPublication active.ticket o.result) (some active.generation))]) := by
  obtain ⟨⟨how, hlast⟩, hgen', hbegan, hok⟩ := h.active active hcur
  refine h.announce e' _ (some active.generation) hlast hok hqueue hseq hgen hcon ?_ ?_ ?_
    (by simp) ?_ now
  · exact fun t a ht => absurd ht (not_handles_of_ne (by simp [hc]) t a)
  · intro active' ha
    obtain ⟨ha, hd⟩ := hcur' active' ha
    rw [hcur] at ha
    cases ha
    exact ⟨hcur, rfl, hd⟩
  · refine ⟨⟨how, hlast⟩, hgen', hbegan, ?_⟩
    rw [hg]
    exact h.sent o (hch ▸ List.mem_cons_self)
  · intro o' ho'
    rw [hchannel] at ho'
    rw [hch]
    exact List.mem_cons_of_mem _ ho'

/-- The state between taking an action and handling it, which the controller passes at once if there
is no pipeline to wait for. -/
def pausing (e : Engine) (rest : List (Ticket × Action)) (t : Ticket) (a : Action) : Engine :=
  { e.withoutFirst rest with current := none, controller := .retiring e.generation (.handle t a) }

theorem controls (h : e.Accounts c) (ho : e.Orderly) {e' : Engine} {happened : List Occurrence}
    (hstep : e.Controls e' happened) (now : Nat) :
    e'.Accounts (c ++ happened.map (now, ·)) := by
  have listening (hc : e.controller = .listening) (t : Ticket) (a : Action) : ¬ e.Handles t a :=
    not_handles_of_ne (by simp [hc]) t a
  have paused {t a rest} (hc : e.controller = .listening) (hq : e.queue.items = (t, a) :: rest) :
      (pausing e rest t a).Accounts (c ++ [(now, .processed t a)]) :=
    h.take (pausing e rest t a) hq (listening hc) rfl rfl rfl rfl rfl rfl now
  have quiet (e' : Engine) (hqueue : e'.queue = e.queue) (hseq : e'.seq = e.seq)
      (hgen : e'.generation = e.generation) (hcon : ∀ t a, e'.Handles t a ↔ e.Handles t a)
      (hcur : ∀ active, e'.current = some active → e.current = some active)
      (hch : ∀ o ∈ e'.channel, o ∈ e.channel) : e'.Accounts (c ++ []) := by
    refine h.of_quiet e' [] rfl rfl hseq hgen hcon hcur ?_ ?_ ?_
    · rw [hqueue]; exact h.ascending
    · rw [hqueue]; exact h.issued
    · intro o ho
      rw [List.append_nil]
      exact h.sent o (hch o ho)
  cases hstep with
  | idle => exact quiet e rfl rfl rfl (fun _ _ => Iff.rfl) (fun _ ha => ha) (fun _ ho => ho)
  | drop o rest hc hs hq hch =>
    exact quiet _ rfl rfl rfl (fun _ _ => Iff.rfl) (fun _ ha => ha)
      (fun o' ho => hch ▸ List.mem_cons_of_mem _ ho)
  | pass o rest active d hc hs hq hch hcur hg hr =>
    have := h.receive ((e.withChannel rest).announce active.ticket (.ok d)) hc hch hcur hg rfl
      rfl rfl (listening hc) rfl (fun active' ha => ⟨ha, d, hr⟩) now
    rwa [hr] at this
  | fail o rest active error hc hs hq hch hcur hg hr =>
    have := h.receive
      (((e.withChannel rest).announce active.ticket (.error error)).dismiss active .listen) hc
      hch hcur hg rfl rfl rfl (by rintro t a ⟨g, hg⟩; cases hg) rfl (by simp [dismiss]) now
    rwa [hr] at this
  | leave active hc hend hcur =>
    refine quiet _ rfl rfl rfl (fun t a => ?_) (by simp [dismiss]) (fun _ ho => ho)
    exact iff_of_false (by rintro ⟨g, hg⟩; cases hg) (listening hc t a)
  | quit hc hend hcur =>
    refine quiet _ rfl rfl rfl (fun t a => ?_) (fun _ ha => ha) (fun _ ho => ho)
    exact iff_of_false (by rintro ⟨g, hg⟩; cases hg) (listening hc t a)
  | take active t a rest hc hs hq hcur =>
    exact h.take ((e.withoutFirst rest).dismiss active (.handle t a)) hq (listening hc) rfl rfl rfl
      rfl rfl rfl now
  | takeStop t rest hc hs hq hcur =>
    have : ((e.withoutFirst rest).announce t (.ok (.stop .actionStopCalled))).Accounts
        (c ++ [(now, .processed t .stop)] ++ [(now,
          .published (e.nextPublication t (.ok (.stop .actionStopCalled))) none)]) :=
      (paused hc hq).handleStop
      ((e.withoutFirst rest).announce t (.ok (.stop .actionStopCalled))) ⟨_, rfl⟩ rfl rfl rfl
      (listening hc) hcur rfl now
    simpa [List.append_assoc] using this
  | takeStart t how rest hc hs hq hcur =>
    have : ((e.withoutFirst rest).begin t how).Accounts (c ++ [(now, .processed t (.start how))]
        ++ [(now, .began (e.generation + 1) t)]) :=
      (paused hc hq).begin ((e.withoutFirst rest).begin t how) ⟨_, rfl⟩
      (by cases how <;> rfl) (by cases how <;> rfl) (by cases how <;> rfl)
      (by cases how <;> exact listening hc) (by cases how <;> rfl) (by cases how <;> rfl) now
    simpa [List.append_assoc] using this
  | handleStop g t hc =>
    exact h.handleStop (e.listening.announce t (.ok (.stop .actionStopCalled))) ⟨g, hc⟩ rfl rfl rfl
      (by rintro t a ⟨g, hg⟩; cases hg) (ho.retiring _ _ hc).1 rfl now
  | handleStart g t how hc =>
    exact h.begin (e.listening.begin t how) ⟨g, hc⟩ (by cases how <;> rfl)
      (by cases how <;> rfl) (by cases how <;> rfl)
      (by cases how <;> (rintro t a ⟨g, hg⟩; cases hg)) (by cases how <;> rfl)
      (by cases how <;> rfl) now
  | resume g hc =>
    refine quiet _ rfl rfl rfl (fun t a => ?_) (fun _ ha => ha) (fun _ ho => ho)
    refine iff_of_false (by rintro ⟨g, hg⟩; cases hg) ?_
    rintro ⟨g', hg'⟩
    rw [hc] at hg'
    cases hg'
  | finish g hc =>
    refine quiet _ rfl rfl rfl (fun t a => ?_) (fun _ ha => ha) (fun _ ho => ho)
    refine iff_of_false (by rintro ⟨g, hg⟩; cases hg) ?_
    rintro ⟨g', hg'⟩
    rw [hc] at hg'
    cases hg'

/-- What is done from outside keeps the account: a new action is the last in line. -/
theorem outside (h : e.Accounts c) {e' : Engine} {m : Move} {happened : List Occurrence}
    (hstep : e.Outside m e' happened) (now : Nat) : e'.Accounts (c ++ happened.map (now, ·)) := by
  obtain ⟨hproc, hpub⟩ := hstep.readings now
  have quiet (e' : Engine) (happened : List Occurrence)
      (hproc : processed (happened.map (now, ·)) = [])
      (hpub : published (happened.map (now, ·)) = []) (hitems : e'.queue.items = e.queue.items)
      (hnext : e.queue.nextTicket ≤ e'.queue.nextTicket) (hseq : e'.seq = e.seq)
      (hgen : e'.generation = e.generation) (hcon : ∀ t a, e'.Handles t a ↔ e.Handles t a)
      (hcur : e'.current = e.current) (hch : e'.channel = e.channel) :
      e'.Accounts (c ++ happened.map (now, ·)) := by
    refine h.of_quiet e' _ hproc hpub hseq hgen hcon (by simp [hcur]) ?_ ?_ ?_
    · rw [hitems]; exact h.ascending
    · rw [hitems]
      exact fun x hx => Nat.lt_of_lt_of_le (h.issued x hx) hnext
    · intro o ho
      rw [hch] at ho
      exact (h.sent o ho).imp fun n hn => List.mem_append_left _ hn
  cases hstep with
  | same => exact quiet e [] rfl rfl rfl (Nat.le_refl _) rfl rfl (fun _ _ => Iff.rfl) rfl rfl
  | accept _ a _ hcl =>
    set kept := if e.queue.capacity ≤ e.queue.items.length then e.queue.items.drop 1
      else e.queue.items with hkept
    have hsub : (c.processed ++ kept).Sublist (c.processed ++ e.queue.items) := by
      refine (List.Sublist.refl _).append ?_
      rw [hkept]
      split
      · exact List.drop_sublist _ _
      · exact List.Sublist.refl _
    have hlt : ∀ x ∈ c.processed ++ kept, x.1.number < e.queue.nextTicket :=
      fun x hx => h.issued x (hsub.subset hx)
    refine h.of_quiet { e with queue := (e.queue.buffer (e.queue.ticket, a)).issue } _ hproc hpub rfl
      rfl (fun _ _ => Iff.rfl) (fun _ ha => ha) ?_ ?_
      (fun o ho => (h.sent o ho).imp fun n hn => List.mem_append_left _ hn)
    · rw [ActionQueue.issue, ActionQueue.buffer, ← hkept, ← List.append_assoc, List.pairwise_append]
      refine ⟨h.ascending.sublist hsub, List.pairwise_singleton _ _, fun x hx y hy => ?_⟩
      obtain rfl := List.mem_singleton.mp hy
      exact hlt x hx
    · rw [ActionQueue.issue, ActionQueue.buffer, ← hkept, ← List.append_assoc]
      intro x hx
      rcases List.mem_append.mp hx with hx | hx
      · exact Nat.lt_succ_of_lt (hlt x hx)
      · obtain rfl := List.mem_singleton.mp hx
        exact Nat.lt_succ_self _
  | discard =>
    exact quiet { e with queue := e.queue.issue } [] rfl rfl rfl (Nat.le_succ _) rfl rfl
      (fun _ _ => Iff.rfl) rfl rfl
  | start hc =>
    refine quiet { e with controller := .listening } [] rfl rfl rfl (Nat.le_refl _) rfl rfl
      (fun t a => ?_) rfl rfl
    exact iff_of_false (not_handles_of_ne (by simp) t a) (not_handles_of_ne (by simp [hc]) t a)
  | stop _ released =>
    exact quiet { e with queue := e.queue.close, shutdown := true, released } [] rfl rfl rfl
      (Nat.le_refl _) rfl rfl (fun _ _ => Iff.rfl) rfl rfl

end Engine.Accounts

namespace World

/-- What was sent is noted, whatever else a pipeline does. -/
theorem Moves.accounts {w w' : World} {m : Move} {happened : List Occurrence}
    (ho : w.engine.Orderly) (h : w.engine.Accounts w.chronicle) (hstep : w.Moves m w' happened) :
    (w'.noting w.now happened).engine.Accounts (w'.noting w.now happened).chronicle := by
  cases hstep with
  | outside _ e' _ hout => exact h.outside hout w.now
  | store => simpa [noting] using h
  | arrange => simpa [noting] using h
  | pass => simpa [noting] using h
  | control e' _ _ hcon => exact h.controls ho hcon w.now
  | pipeline g p p' _ output hp _ hsteps =>
    obtain ⟨hproc, hpub, -⟩ := hsteps.readings w.now
    refine h.of_quiet (w.engine.advancePipeline p' output) _ hproc hpub rfl rfl
      (fun _ _ => Iff.rfl) (fun _ ha => ha) h.ascending h.issued fun o ho => ?_
    rcases List.mem_append.mp ho with ho | ho
    · exact (h.sent o ho).imp fun n hn => List.mem_append_left _ hn
    · obtain ⟨-, hemitted⟩ := hsteps.emitted o (Option.mem_toList.mp ho)
      exact ⟨w.now, List.mem_append_right _ (List.mem_map_of_mem hemitted)⟩
  | answering =>
    exact h.of_quiet _ [] rfl rfl rfl rfl (fun _ _ => Iff.rfl) (fun _ ha => ha) h.ascending h.issued
      (fun o ho => (h.sent o ho).imp fun n hn => List.mem_append_left _ hn)

theorem Reached.accounts {config : EngineConfig} {w : World} (h : Reached config w) :
    w.engine.Accounts w.chronicle :=
  Leads.keeps_reached (I := fun w => w.engine.Accounts w.chronicle)
    (fun _ _ _ _ hw hacc _ hstep => hstep.accounts hw.orderly hacc) .refl h (.new config)

/-! ### Every publication -/

/-- What happened so far warrants a publication: the action that was processed last is the one that
it is for, and that is a stop, or a start whose pipeline was begun since and sent the result. -/
def Warranted (c : Chronicle) (p : Published) : Option Nat → Prop
  | none => c.lastProcessed = some (p.ticket, .stop) ∧ p.result = .ok (.stop .actionStopCalled)
  | some g => (∃ how, c.lastProcessed = some (p.ticket, .start how)) ∧
      (∃ n, (n, .began g p.ticket) ∈ c.recent) ∧ ∃ n, (n, .emitted g p.result) ∈ c

/-- A publication is the last thing that happens in a move. -/
theorem Moves.published_dropLast {w w' : World} {m : Move} {happened : List Occurrence}
    (hstep : w.Moves m w' happened) (now : Nat) :
    published (happened.map (now, ·)).dropLast = [] := by
  have sub {c : Chronicle} (h : published c = []) : published c.dropLast = [] :=
    List.eq_nil_iff_forall_not_mem.mpr fun x hx => by
      have := ((List.dropLast_sublist c).filterMap _).subset hx
      rw [show List.filterMap _ c = [] from h] at this
      cases this
  cases hstep with
  | outside _ _ _ hout => exact sub (hout.readings now).2
  | store => rfl
  | arrange => rfl
  | pass => rfl
  | control e' _ _ hcon => cases hcon <;> rfl
  | pipeline _ _ _ _ _ _ _ hsteps => exact sub (hsteps.readings now).2.1
  | answering => rfl

/-- What the account says of a publication, told without the publication itself. -/
theorem warranted_of_isCurrent {e : Engine} {c : Chronicle} {n : Nat} {p : Published}
    {source : Option Nat}
    (h : e.IsCurrent (c ++ [(n, .published p source)]) (p, source)) : Warranted c p source := by
  have hlast : Chronicle.lastProcessed (c ++ [(n, .published p source)]) = c.lastProcessed :=
    lastProcessed_append_of_processed_eq_nil c rfl
  have hrecent : Chronicle.recent (c ++ [(n, .published p source)]) =
      c.recent ++ [(n, .published p source)] := recent_append_of_processed_eq_nil c rfl
  rcases source with _ | g
  · obtain ⟨hl, hp⟩ := h
    exact ⟨hlast ▸ hl, congrArg (·.1.result) hp⟩
  · obtain ⟨hl, -, ⟨k, hk⟩, m, hm⟩ := h
    refine ⟨hlast ▸ hl, ⟨k, ?_⟩, m, ?_⟩
    · simpa [hrecent] using hk
    · simpa using hm

theorem Moves.warranted {w w' : World} {m : Move} {happened : List Occurrence}
    (h : EveryPublication (fun before _ => Warranted before) w.chronicle)
    (hacc : w'.engine.Accounts (w.chronicle ++ happened.map (w.now, ·)))
    (hstep : w.Moves m w' happened) :
    EveryPublication (fun before _ => Warranted before)
      (w.chronicle ++ happened.map (w.now, ·)) := by
  refine h.append fun before n p source later hsplit => ?_
  have hlater : later = [] := by
    by_contra hne
    have hmem : (p, source) ∈ published (happened.map (w.now, ·)).dropLast := by
      rw [hsplit, List.dropLast_append_of_ne_nil (List.cons_ne_nil _ _),
        List.dropLast_cons_of_ne_nil hne, published_append]
      exact List.mem_append_right _ List.mem_cons_self
    rw [hstep.published_dropLast] at hmem
    cases hmem
  subst hlater
  rw [hsplit, ← List.append_assoc] at hacc
  refine warranted_of_isCurrent (hacc.isCurrent _ ?_)
  rw [recent_append_of_processed_eq_nil _ rfl, published_append]
  exact List.mem_append_right _ List.mem_cons_self

theorem Reached.warranted {config : EngineConfig} {w : World} (h : Reached config w) :
    EveryPublication (fun before _ => Warranted before) w.chronicle := by
  refine Leads.keeps_reached
    (I := fun w => EveryPublication (fun before _ => Warranted before) w.chronicle) ?_ .refl h
    (.nil _)
  intro w m w' happened hw hi _ hstep
  have hacc : w'.engine.Accounts (w.chronicle ++ happened.map (w.now, ·)) := by
    rw [← hstep.chronicle_noting]
    exact hstep.accounts hw.orderly hw.accounts
  rw [hstep.chronicle_noting]
  exact hstep.warranted hi hacc

/-- **Publications are safe.** In every run and in every order of its moves:
publications are numbered one after the other and never go back to an earlier action; each is for the
action processed last before it, and comes from the pipeline begun for that action if it is a start;
a stop that was processed is published exactly once, or waits for the end of the previous pipeline,
which somebody brings on; and for each action a failure is the last publication. -/
theorem Reached.publications_safe {config : EngineConfig} {w : World} (h : Reached config w) :
    (w.chronicle.published.map (·.1.seq) = List.range' 1 w.engine.seq ∧
      w.chronicle.published.Pairwise fun x y => x.1.ticket ≤ y.1.ticket) ∧
    EveryPublication (fun before _ => Warranted before) w.chronicle ∧
    (∀ l, w.chronicle.lastProcessed = some l →
      w.chronicle.recent.published = w.chronicle.publishedFor l.1) ∧
    (∀ t, (t, .stop) ∈ w.chronicle.processed →
      (∃ n, w.chronicle.publishedFor t = [stopPublication n t]) ∨
        w.chronicle.publishedFor t = [] ∧ w.chronicle.lastProcessed = some (t, .stop) ∧
          (∃ g, w.engine.controller = .retiring g (.handle t .stop)) ∧ ¬ w.AtRest) ∧
    ∀ t, ∀ x ∈ (w.chronicle.publishedFor t).dropLast, ∃ d, x.1.result = .ok d := by
  have hacc := h.accounts
  refine ⟨⟨hacc.seqs, hacc.ordered⟩, h.warranted, hacc.recent, fun t ht => ?_, hacc.failures⟩
  rcases hacc.stops t ht with hh | hn
  · obtain ⟨hlast, hnone⟩ := hacc.handles t _ hh
    obtain ⟨g, hg⟩ := hh
    exact .inr ⟨hnone, hlast, ⟨g, hg⟩, not_atRest_of_retiring h.orderly hg⟩
  · exact .inl hn

/-- A run in which a start is followed by a stop before its pipeline has decided anything. -/
def startThenStop : List Move :=
  [.start, .submit (.start .default), .go .controller, .go (.pipeline 1), .submit .stop,
    .go .controller, .go (.pipeline 1), .go .controller]

theorem publications_safe_startThenStop :
    Reached default ((new default).run startThenStop) ∧
    ((new default).run startThenStop).chronicle.published = [stopPublication 1 ⟨2⟩] ∧
    EveryPublication (fun before _ => Warranted before)
      ((new default).run startThenStop).chronicle :=
  have h : Reached default ((new default).run startThenStop) := reached_run (by decide)
  ⟨h, rfl, (Reached.publications_safe h).2.1⟩

end World

end CallWatch
