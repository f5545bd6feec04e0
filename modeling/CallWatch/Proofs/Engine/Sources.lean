import CallWatch.Proofs.Growth
import Mathlib.Data.List.Forall2

/-! # What a pipeline knows of the calls

The lists that a pipeline combines are live lists of the store, apart from one that is empty and
ends at once. Each is as it was set up, or `Caught`: it has shown its list, which is still the newest
unless the store changed since. A look that finds no failure leaves every list caught with what the
store has now; and when a look would find nothing, the joined lists are those of the store. -/

namespace CallWatch

/-! ### Lists side by side -/

section SideBySide

variable {α β : Type} {R : α → β → Prop} {l : List α} {l' : List β}

theorem exists_of_mem_right (h : List.Forall₂ R l l') {y : β} (hy : y ∈ l') : ∃ x ∈ l, R x y := by
  induction h with
  | nil => cases hy
  | @cons x y' l l' hr _ ih =>
    rcases List.mem_cons.mp hy with rfl | hy
    · exact ⟨x, List.mem_cons_self, hr⟩
    · obtain ⟨x', hmem, hr'⟩ := ih hy
      exact ⟨x', List.mem_cons_of_mem _ hmem, hr'⟩

theorem exists_of_mem_left (h : List.Forall₂ R l l') {x : α} (hx : x ∈ l) : ∃ y ∈ l', R x y :=
  exists_of_mem_right (R := flip R) (.flip h) hx

end SideBySide

namespace CallSource

/-- A list as it was set up: a live one, or an empty one that ends. -/
structure IsNew (s : CallSource) : Prop where
  ended : s.ended = false
  latest : s.latest = none
  feed : (∃ place, s.feed = .live place none) ∨ s.feed = .script [.ok []]

/-- The source after it showed the list of the store at some version, or after it ended. -/
inductive Caught (store : Store) (new : CallSource) : CallSource → Prop
  | live (place version calls) (hfeed : new.feed = .live place none)
      (hseen : (store.live place).ShowedAt version (.ok calls)) :
      Caught store new
        { new with feed := .live place (some version), latest := some (new.shown calls) }
  | nothing (hfeed : new.feed = .script [.ok []]) :
      Caught store new { new with feed := .script [], ended := true, latest := some [] }

theorem Caught.grows {store store' : Store} {new s : CallSource} (h : Caught store new s)
    (hg : store.Grows store') : Caught store' new s := by
  cases h with
  | live place version calls hfeed hseen =>
    exact .live place version calls hfeed (hseen.grows (hg.lists place))
  | nothing hfeed => exact .nothing hfeed

theorem Caught.latest_isSome {store : Store} {new s : CallSource} (h : Caught store new s) :
    s.latest.isSome = true := by
  cases h <;> rfl

/-- The lists of a user in the store, as a source shows them. -/
def nowShown (store : Store) (new : CallSource) : List Notification :=
  match new.feed with
  | .live place _ =>
    match (store.live place).value with
    | .ok calls => new.shown calls
    | .error _ => []
  | _ => []

/-- The lists that were shown last, joined. -/
def joined (sources : List CallSource) : List Notification := (sources.filterMap (·.latest)).flatten

section Look

variable {store : Store} {held : AccountRef → Bool}

/-- The lists of this account are given to whoever follows them. -/
def IsGiven (store : Store) (held : AccountRef → Bool) (s : CallSource) : Prop :=
  ∀ place seen, s.feed = .live place seen → (store.lists held).given place = true

theorem shown_nil (s : CallSource) : s.shown [] = [] := by
  rcases h : s.only with _ | c <;> simp [shown, h]

/-- What is there to be taken from a live source that is given. -/
theorem load_live {s : CallSource} {place : AccountRef × ListName} {seen : Option Nat}
    (hfeed : s.feed = .live place seen) (hgiven : (store.lists held).given place = true) :
    s.load (store.lists held) =
      ⟨⟨if seen = some (store.live place).version then []
        else [(store.live place).value.map s.shown], false⟩, s.ended, s.latest⟩ := by
  have hvalue : (store.lists held).value place = store.live place := rfl
  simp only [load, hfeed, Feed.inbox, hvalue, hgiven, Live.inbox, Inbox.map]
  split <;> rfl

/-- The source after a look at a live list that showed everything. -/
theorem store_live {s : CallSource} {place : AccountRef × ListName} {seen : Option Nat}
    (hfeed : s.feed = .live place seen) (hended : s.ended = false)
    (latest : Option (List Notification)) :
    s.store (store.lists held) ⟨⟨[], false⟩, false, latest⟩ =
      { s with feed := .live place (some (store.live place).version), latest := latest } := by
  obtain ⟨userId, displayName, only, feed, ended, latest'⟩ := s
  cases hfeed
  cases hended
  rfl

/-- A look at a live list fails, or finds what the store has now if that was not seen. -/
theorem drain_live {new s : CallSource} (place : AccountRef × ListName) (seen : Option Nat)
    (latest : Option (List Notification)) (hfeed : new.feed = .live place none)
    (hnew : new.ended = false) (hs : s = { new with feed := .live place seen, latest := latest })
    (hlatest : seen = some (store.live place).version →
      ∃ calls, (store.live place).value = .ok calls ∧ latest = some (new.shown calls))
    (hgiven : (store.lists held).given place = true) (changed : Bool) :
    (∃ e after, Combined.drain changed (s.load (store.lists held)) = (.failed e, after)) ∨
      ∃ after, Combined.drain changed (s.load (store.lists held)) =
          (.on (changed || (s.load (store.lists held)).stirs), after) ∧
        Caught store new (s.store (store.lists held) after) := by
  have hfeed' : s.feed = .live place seen := by rw [hs]
  have hended : s.ended = false := by rw [hs]; exact hnew
  have hshown : s.shown = new.shown := by rw [hs]; rfl
  rw [load_live hfeed' hgiven, hended, hshown]
  by_cases hseen : seen = some (store.live place).version
  · obtain ⟨calls, hvalue, hcalls⟩ := hlatest hseen
    refine .inr ⟨⟨⟨[], false⟩, false, s.latest⟩, ?_, ?_⟩
    · simp [hseen, Combined.drain, Source.splitFailure, Source.stirs, Inbox.stirs]
    · rw [store_live hfeed' hended, hs, hcalls]
      exact .live place _ calls hfeed ⟨Nat.le_refl _, fun _ => hvalue⟩
  · rcases hvalue : (store.live place).value with e | calls
    · refine .inl ⟨e, ⟨⟨[], false⟩, false, s.latest⟩, ?_⟩
      simp [hseen, Combined.drain, Source.splitFailure, Except.map]
    · refine .inr ⟨⟨⟨[], false⟩, false, some (new.shown calls)⟩, ?_, ?_⟩
      · simp [hseen, Combined.drain, Source.splitFailure, Except.map, Source.stirs, Inbox.stirs]
      · rw [store_live hfeed' hended, hs]
        exact .live place _ calls hfeed ⟨Nat.le_refl _, fun _ => hvalue⟩

/-- **A look at one source** fails, or leaves it caught with what the store has now; it finds
something exactly if the source stirs. -/
theorem drain_spec {new s : CallSource} (hnew : new.IsNew) (hs : s = new ∨ Caught store new s)
    (hgiven : IsGiven store held s) (changed : Bool) :
    (∃ e after, Combined.drain changed (s.load (store.lists held)) = (.failed e, after)) ∨
      ∃ after, Combined.drain changed (s.load (store.lists held)) =
          (.on (changed || (s.load (store.lists held)).stirs), after) ∧
        Caught store new (s.store (store.lists held) after) := by
  rcases hs with rfl | hs
  · rcases hnew.feed with ⟨place, hfeed⟩ | hfeed
    · refine drain_live place none none hfeed hnew.ended ?_ (by simp) (hgiven place none hfeed) changed
      obtain ⟨userId, displayName, only, feed, ended, latest⟩ := s
      cases hfeed
      cases hnew.latest
      rfl
    · refine .inr ⟨⟨⟨[], true⟩, true, some []⟩, ?_, ?_⟩
      · simp [load, hfeed, hnew.ended, hnew.latest, Feed.inbox, Inbox.map, Except.map, shown_nil,
          Combined.drain, Source.splitFailure, Source.stirs, Inbox.stirs]
      · have hstore : s.store (store.lists held) ⟨⟨[], true⟩, true, some []⟩ =
            { s with feed := .script [], ended := true, latest := some [] } := by
          simp [CallSource.store, hnew.ended, hfeed, Feed.leave]
        rw [hstore]
        exact .nothing hfeed
  · cases hs with
    | live place version calls hfeed hseen =>
      exact drain_live place (some version) (some (new.shown calls)) hfeed hnew.ended rfl
        (fun h => ⟨calls, hseen.2 (Option.some.inj h), rfl⟩) (hgiven place _ rfl) changed
    | nothing hfeed =>
      set s : CallSource := { new with feed := .script [], ended := true, latest := some [] } with hs
      have hstore : s.store (store.lists held) (s.load (store.lists held)) = s := by
        simp [CallSource.store, load, hs]
      refine .inr ⟨s.load (store.lists held), ?_, ?_⟩
      · simp [load, hs, Combined.drain, Source.stirs]
      · rw [hstore]
        exact .nothing hfeed

/-! ### A look at all of them -/

/-- The sources of a combination, each as it was set up or caught. -/
def Known (store : Store) : List CallSource → List CallSource → Prop :=
  List.Forall₂ fun new s => s = new ∨ Caught store new s

/-- The sources of a combination after they all showed their lists. -/
def AllCaught (store : Store) : List CallSource → List CallSource → Prop :=
  List.Forall₂ (Caught store)

theorem AllCaught.known {news sources : List CallSource} (h : AllCaught store news sources) :
    Known store news sources :=
  h.imp fun _ _ => .inr

theorem AllCaught.grows {store' : Store} {news sources : List CallSource}
    (h : AllCaught store news sources) (hg : store.Grows store') : AllCaught store' news sources :=
  h.imp fun _ _ hs => hs.grows hg

theorem AllCaught.latest_isSome {news sources : List CallSource}
    (h : AllCaught store news sources) (s : CallSource) (hs : s ∈ sources) :
    s.latest.isSome = true := by
  induction h with
  | nil => cases hs
  | cons hcaught _ ih =>
    rcases List.mem_cons.mp hs with rfl | hs
    · exact hcaught.latest_isSome
    · exact ih hs

/-- The sources after a look at all of them. -/
def storeAll (board : Board (AccountRef × ListName) Listing) (sources : List CallSource)
    (after : List Source) : List CallSource :=
  List.zipWith (fun s a => s.store board a) sources after

/-- A look at all sources fails, or leaves them caught with what the store has now. -/
theorem drainAll_spec {news sources : List CallSource} (hnew : ∀ new ∈ news, new.IsNew)
    (hs : Known store news sources) (hgiven : ∀ s ∈ sources, IsGiven store held s)
    (changed : Bool) :
    (∃ e after, Combined.drainAll changed (sources.map (·.load (store.lists held))) =
        (.failed e, after)) ∨
      ∃ after, Combined.drainAll changed (sources.map (·.load (store.lists held))) =
          (.on (changed || (sources.map (·.load (store.lists held))).any (·.stirs)), after) ∧
        AllCaught store news (storeAll (store.lists held) sources after) ∧
        after.length = sources.length := by
  induction hs generalizing changed with
  | nil => exact .inr ⟨[], by simp [Combined.drainAll], .nil, rfl⟩
  | @cons new s news sources hs _ ih =>
    rw [List.forall_mem_cons] at hnew hgiven
    rw [List.map_cons, Combined.drainAll]
    rcases drain_spec hnew.1 hs hgiven.1 changed with ⟨e, after, heq⟩ | ⟨after, heq, hcaught⟩
    · exact .inl ⟨e, _, by rw [heq]⟩
    · rw [heq]
      rcases ih hnew.2 hgiven.2 (changed || (s.load (store.lists held)).stirs) with
        ⟨e, rest, hrest⟩ | ⟨rest, hrest, hall, hlen⟩
      · exact .inl ⟨e, after :: rest, by simp only [hrest]⟩
      · refine .inr ⟨after :: rest, ?_, .cons hcaught hall, by simp [hlen]⟩
        simp only [hrest, List.any_cons, Bool.or_assoc]

theorem latest_storeAll (board : Board (AccountRef × ListName) Listing)
    {sources : List CallSource} {after : List Source} (h : after.length = sources.length) :
    (storeAll board sources after).map (·.latest) = after.map (·.latest) := by
  induction sources generalizing after with
  | nil =>
    obtain rfl := List.length_eq_zero_iff.mp h
    rfl
  | cons s sources ih =>
    rcases after with _ | ⟨a, after⟩
    · cases h
    · have hrest : (storeAll board sources after).map (·.latest) = after.map (·.latest) :=
        ih (by simpa using h)
      simp only [storeAll, List.zipWith_cons_cons, List.map_cons] at hrest ⊢
      rw [hrest]
      rfl

theorem joined_eq {sources : List CallSource} {after : List Source}
    (h : sources.map (·.latest) = after.map (·.latest)) : joined sources = Combined.joined after := by
  have hsources : sources.filterMap (·.latest) = (sources.map (·.latest)).filterMap id := by
    rw [List.filterMap_map]; rfl
  have hafter : after.filterMap (·.latest) = (after.map (·.latest)).filterMap id := by
    rw [List.filterMap_map]; rfl
  rw [joined, Combined.joined, hsources, hafter, h]

/-- **A look at the calls when something stirs** fails, or finds what the store has now. -/
theorem poll_spec {news sources : List CallSource} (hnew : ∀ new ∈ news, new.IsNew)
    (hs : Known store news sources) (hgiven : ∀ s ∈ sources, IsGiven store held s)
    (hstirs : (sources.map (·.load (store.lists held))).any (·.stirs) = true) :
    (∃ e, (poll (store.lists held) sources).1 = .failed e) ∨
      AllCaught store news (poll (store.lists held) sources).2 ∧
        (poll (store.lists held) sources).1 = .lists (joined (poll (store.lists held) sources).2) := by
  rcases drainAll_spec hnew hs hgiven false with ⟨e, after, heq⟩ | ⟨after, heq, hall, hlen⟩
  · refine .inl ⟨e, ?_⟩
    rw [poll, Combined.poll, heq]
  · refine .inr ?_
    have hlatest := latest_storeAll (store.lists held) hlen
    have hsome : after.all (·.latest.isSome) = true := by
      rw [List.all_eq_true]
      intro a ha
      have hmem : a.latest ∈ (storeAll (store.lists held) sources after).map (·.latest) :=
        hlatest ▸ List.mem_map_of_mem ha
      obtain ⟨s, hs, heq⟩ := List.mem_map.mp hmem
      rw [← heq]
      exact hall.latest_isSome s hs
    have hpoll : poll (store.lists held) sources =
        (.lists (Combined.joined after), storeAll (store.lists held) sources after) := by
      rw [poll, Combined.poll, heq, hstirs]
      simp [hsome, storeAll]
    rw [hpoll]
    refine ⟨hall, ?_⟩
    rw [joined_eq hlatest]

/-- Only a source that ended is caught at its end, with a list. -/
theorem latest_of_ended {new s : CallSource} (hnew : new.IsNew) (hs : s = new ∨ Caught store new s)
    (hended : s.ended = true) : s.latest.isSome = true := by
  rcases hs with rfl | hs
  · rw [hnew.ended] at hended
    cases hended
  · exact hs.latest_isSome

theorem ended_of_live {new s : CallSource} (hnew : new.IsNew) {place : AccountRef × ListName}
    (hfeed : new.feed = .live place none) (hs : s = new ∨ Caught store new s) :
    s.ended = false := by
  rcases hs with rfl | hs
  · exact hnew.ended
  · cases hs with
    | live => exact hnew.ended
    | nothing hfeed' => rw [hfeed] at hfeed'; cases hfeed'

/-- A look is worth while exactly if one of the sources stirs, as long as one of them is live. -/
theorem stirs_eq {news sources : List CallSource} (hs : Known store news sources)
    (hnew : ∀ new ∈ news, new.IsNew) (hlive : ∃ new ∈ news, ∃ place, new.feed = .live place none) :
    stirs (store.lists held) sources =
      (sources.map (·.load (store.lists held))).any (·.stirs) := by
  obtain ⟨new, hmem, place, hfeed⟩ := hlive
  obtain ⟨s, hsmem, hr⟩ := exists_of_mem_left hs hmem
  have hnotall : (sources.map (·.load (store.lists held))).all (·.ended) = false := by
    rw [List.all_eq_false]
    refine ⟨_, List.mem_map_of_mem hsmem, ?_⟩
    simpa [load] using ended_of_live (hnew new hmem) hfeed hr
  have hnone : ((sources.map (·.load (store.lists held))).any
      fun s => s.ended && s.latest.isNone) = false := by
    rw [List.any_eq_false]
    intro a ha hbad
    obtain ⟨s, hs', rfl⟩ := List.mem_map.mp ha
    obtain ⟨new, hmem, hr⟩ := exists_of_mem_right hs hs'
    rw [Bool.and_eq_true] at hbad
    have hsome := latest_of_ended (hnew new hmem) hr hbad.1
    rw [Option.isSome_iff_ne_none] at hsome
    exact hsome (Option.isNone_iff_eq_none.mp hbad.2)
  rw [stirs, Combined.stirs, hnotall, hnone, Bool.or_false, Bool.or_false]

/-- What was shown last is what the store has now, if the source does not stir. -/
theorem Caught.latest_of_still {new s : CallSource} (h : Caught store new s) (hnew : new.IsNew)
    (hgiven : IsGiven store held s) (hstill : (s.load (store.lists held)).stirs = false) :
    s.latest = some (nowShown store new) := by
  cases h with
  | live place version calls hfeed hseen =>
    rw [load_live rfl (hgiven place _ rfl)] at hstill
    have hversion : version = (store.live place).version := by
      by_contra hne
      simp [Source.stirs, Inbox.stirs, hnew.ended, hne] at hstill
    simp [nowShown, hfeed, hseen.2 hversion]
  | nothing hfeed => simp [nowShown, hfeed]

/-- **When a look would find nothing, the lists shown last are those that the store has now.** -/
theorem joined_of_still {news sources : List CallSource} (hs : AllCaught store news sources)
    (hnew : ∀ new ∈ news, new.IsNew) (hgiven : ∀ s ∈ sources, IsGiven store held s)
    (hstill : (sources.map (·.load (store.lists held))).any (·.stirs) = false) :
    joined sources = (news.map (nowShown store)).flatten := by
  induction hs with
  | nil => rfl
  | @cons new s news sources hcaught _ ih =>
    rw [List.forall_mem_cons] at hnew hgiven
    rw [List.map_cons, List.any_cons, Bool.or_eq_false_iff] at hstill
    have hrest := ih hnew.2 hgiven.2 hstill.2
    rw [joined] at hrest ⊢
    rw [List.filterMap_cons_some (hcaught.latest_of_still hnew.1 hgiven.1 hstill.1),
      List.flatten_cons, List.map_cons, List.flatten_cons, hrest]

/-- A new live source stirs. -/
theorem stirs_of_new {new : CallSource} (hnew : new.IsNew) {place : AccountRef × ListName}
    (hfeed : new.feed = .live place none) (hgiven : IsGiven store held new) :
    (new.load (store.lists held)).stirs = true := by
  rw [load_live hfeed (hgiven place none hfeed), hnew.ended]
  simp [Source.stirs, Inbox.stirs]

end Look

end CallSource

end CallWatch
