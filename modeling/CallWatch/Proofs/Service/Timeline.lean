import CallWatch.Proofs.Service.Steps
import CallWatch.Proofs.Wire.RoundTrip

/-! # The timeline of a scenario

The steps of a scenario are taken once each, at their instants, in the order of the text where these
are equal. In between the machine is left alone, with engine and service at work. A step that names
somebody without an account ends the run before it is taken. After the last step the machine is left
alone once more before everything ends. That instant is counted in 64 bits: where instant and time
to go on add up to more, the run ends with the last step.

* `Scenario.timeline`: when and in which order steps are taken, and when the run ends.
* `Scenario.ends_early`: a run that ends with its last step, although it is to go on for a while. -/

namespace CallWatch

open Wire

namespace Scenario

variable {s : Scenario} {text : String} {config : EngineConfig}

/-! ### The order of the steps -/

theorem perm_ordered (s : Scenario) : s.ordered.Perm s.steps := List.mergeSort_perm _ _

/-- The instants of some steps ascend. -/
def Ascending (steps : List TimedStep) : Prop := steps.Pairwise fun a b => a.instant ≤ b.instant

theorem ascending_ordered (s : Scenario) : Ascending s.ordered := by
  have hsorted : s.ordered.Pairwise fun a b => decide (a.instant ≤ b.instant) = true :=
    List.pairwise_mergeSort (fun a b c => by simpa using Nat.le_trans)
      (fun a b => by simpa using Nat.le_total _ _) s.steps
  exact hsorted.imp of_decide_eq_true

/-- Steps of one instant stay in their order. -/
theorem filter_ordered (s : Scenario) (i : Nat) :
    s.ordered.filter (·.instant = i) = s.steps.filter (·.instant = i) := by
  have hsame : (s.steps.filter (·.instant = i)).Pairwise fun a b : TimedStep =>
      decide (a.instant ≤ b.instant) = true := by
    refine List.pairwise_of_forall_mem_list fun a ha b hb => ?_
    rw [List.mem_filter, decide_eq_true_eq] at ha hb
    exact decide_eq_true (Nat.le_of_eq (ha.2.trans hb.2.symm))
  have hsublist : (s.steps.filter (·.instant = i)).Sublist s.ordered :=
    List.sublist_mergeSort (fun a b c => by simpa using Nat.le_trans)
      (fun a b => by simpa using Nat.le_total _ _) hsame List.filter_sublist
  have hfilter := hsublist.filter (·.instant = i)
  rw [List.filter_filter] at hfilter
  simp only [Bool.and_self] at hfilter
  exact (hfilter.eq_of_length ((perm_ordered s).symm.filter _).length_eq).symm

/-- The instant of the last step, or the start if there is none. -/
def lastInstant (s : Scenario) : Nat := (s.steps.map (·.instant)).max?.getD 0

theorem getLast?_ordered (s : Scenario) :
    (s.ordered.getLast?.map (·.instant)).getD 0 = s.lastInstant := by
  rcases hlast : s.ordered.getLast? with _ | t
  · have hnil : s.steps = [] := by
      have hordered := List.getLast?_eq_none_iff.1 hlast
      exact List.Perm.nil_eq (hordered ▸ s.perm_ordered) |>.symm
    simp [lastInstant, hnil]
  · obtain ⟨before, hsplit⟩ := List.getLast?_eq_some_iff.1 hlast
    have hmax : (s.steps.map (·.instant)).max? = some t.instant := by
      rw [List.max?_eq_some_iff]
      refine ⟨List.mem_map_of_mem (s.perm_ordered.subset (List.mem_of_getLast? hlast)), ?_⟩
      intro i hi
      obtain ⟨b, hb, rfl⟩ := List.mem_map.1 hi
      have hmem := s.perm_ordered.symm.subset hb
      have hsorted := s.ascending_ordered
      rw [hsplit] at hmem
      rw [Ascending, hsplit] at hsorted
      rcases List.mem_append.1 hmem with hmem | hmem
      · exact (List.pairwise_append.1 hsorted).2.2 b hmem t List.mem_cons_self
      · exact Nat.le_of_eq (congrArg _ (List.mem_singleton.1 hmem))
    rw [lastInstant, hmax]
    rfl

/-! ### Numbers of 64 bits -/

theorem le_of_word64 {r : Reading} {j : Json} {n : Nat} (h : word64 r j = some n) :
    n ≤ Text.maxWord64 := by
  unfold word64 at h
  split at h
  · split at h
    · cases h
      assumption
    · cases h
  · cases h

theorem instant_le_of_decode {r : Reading} {j : Json} {t : TimedStep}
    (h : TimedStep.decode r j = some t) : t.instant ≤ Text.maxWord64 := by
  unfold TimedStep.decode at h
  split at h
  · next members =>
    have hstep {instant : Nat} {rest : List (String × Json)}
        (h : (if Json.membersReadable (r.room - 1) rest then do
          let step ← ScenarioStep.decode r.hold (.object rest)
          return ⟨instant, step⟩ else none) = some t) : t.instant = instant := by
      split at h
      · obtain ⟨step, -, ht⟩ := Option.bind_eq_some_iff.1 h
        cases ht
        rfl
      · cases h
    dsimp only at h
    split at h
    · obtain ⟨instant, hinstant, h⟩ := Option.bind_eq_some_iff.1 h
      cases hinstant
      rw [hstep h]
      exact Nat.zero_le _
    · obtain ⟨instant, hinstant, h⟩ := Option.bind_eq_some_iff.1 h
      rw [hstep h]
      exact le_of_word64 hinstant
    · cases h
  · cases h

theorem exists_of_mem_mapM {α β : Type} {f : α → Option β} {l : List α} {ys : List β} {y : β}
    (h : l.mapM f = some ys) (hy : y ∈ ys) : ∃ x ∈ l, f x = some y := by
  induction l generalizing ys with
  | nil =>
    cases h
    cases hy
  | cons x l ih =>
    simp only [List.mapM_cons, Option.bind_eq_bind, Option.bind_eq_some_iff] at h
    obtain ⟨z, hz, zs, hzs, hys⟩ := h
    cases hys
    rcases List.mem_cons.1 hy with rfl | hy
    · exact ⟨x, List.mem_cons_self, hz⟩
    · obtain ⟨x', hx', hfx'⟩ := ih hzs hy
      exact ⟨x', List.mem_cons_of_mem _ hx', hfx'⟩

/-- The numbers of a scenario that is read have 64 bits. -/
theorem bounds_of_decode (h : decodeText decode text = .ok s) :
    (∀ t ∈ s.steps, t.instant ≤ Text.maxWord64) ∧ s.settle ≤ Text.maxWord64 := by
  obtain ⟨j, hj⟩ : ∃ j, decode .whole j = some s := by
    unfold decodeText at h
    split at h
    · cases h
    · next j _ =>
      split at h
      · next a ha =>
        cases h
        exact ⟨j, ha⟩
      · cases h
  simp only [decode, Option.bind_eq_bind, Option.bind_eq_some_iff] at hj
  obtain ⟨record, -, accounts, -, steps, hsteps, settle, hsettle, hs⟩ := hj
  cases hs
  constructor
  · intro t ht
    obtain ⟨items, -, hitems⟩ := Option.bind_eq_some_iff.1 hsteps
    unfold Wire.list at hitems
    split at hitems
    · obtain ⟨item, -, hitem⟩ := exists_of_mem_mapM hitems ht
      exact instant_le_of_decode hitem
    · cases hitems
  · unfold Record.withDefault at hsettle
    split at hsettle
    · obtain rfl : defaultSettle = settle := Option.some.inj hsettle
      exact (by decide : defaultSettle ≤ Text.maxWord64)
    · exact le_of_word64 hsettle

/-! ### The run -/

/-- Whether the account that a step changes, if any, was registered. -/
def Knows (s : Scenario) (step : ScenarioStep) : Prop :=
  ∀ user, step.account? = some user → user ∈ s.accounts.map (·.id)

theorem isSome_find?_machine (s : Scenario) (config : EngineConfig) (user : UserId) :
    ((s.machine config).store.find? user).isSome ↔ user ∈ s.accounts.map (·.id) := by
  have hempty : Store.empty.find? user = none := rfl
  have hregistered := Store.isSome_find?_registered s.accounts .empty user
  rwa [hempty, Option.isSome_none, Bool.false_eq_true, or_false] at hregistered

theorem onDuty_machine (s : Scenario) (config : EngineConfig) : (s.machine config).OnDuty where
  engine := ⟨⟨rfl, by simp [machine], by simp [machine]⟩, by simp [machine], rfl, rfl⟩
  orderly := by
    have hempty : (s.machine config).staff = ⟨[], [], 0⟩ := rfl
    rw [hempty]
    constructor <;> simp
  serving := by simp [machine, Machine.new]

/-- **Known steps are taken at their instants**, and what follows is taken after them. -/
theorem takes_ordered {before rest : List TimedStep} (config : EngineConfig)
    (hordered : s.ordered = before ++ rest) (hknown : ∀ t ∈ before, s.Knows t.step) :
    ∃ last, (s.machine config).Takes before last ∧
      (s.machine config).takeAll s.ordered = last.takeAll rest ∧
      last.now = (before.getLast?.map (·.instant)).getD 0 ∧
      ∀ user, (last.store.find? user).isSome ↔ user ∈ s.accounts.map (·.id) := by
  have hsorted := s.ascending_ordered
  rw [Ascending, hordered] at hsorted
  obtain ⟨last, htakes, hall, hnow, hdirectory⟩ :=
    Machine.takes_takeAll (m := s.machine config) rest (List.pairwise_append.1 hsorted).1
      (fun _ _ => Nat.zero_le _)
      fun t ht user huser => (s.isSome_find?_machine config user).2 (hknown t ht user huser)
  refine ⟨last, htakes, hordered ▸ hall, hnow, fun user => ?_⟩
  rw [Store.find?_congr hdirectory, s.isSome_find?_machine config]

/-- Where every step is known, all are taken, and everything ends at an instant after them. -/
theorem run_of_known (config : EngineConfig) (hknown : ∀ t ∈ s.steps, s.Knows t.step) :
    ∃ last, (s.machine config).Takes s.ordered last ∧ last.now = s.lastInstant ∧
      s.run config = ((last.moveTo s.endInstant).close, none) := by
  obtain ⟨last, htakes, hall, hnow, -⟩ := takes_ordered config (List.append_nil _).symm
    fun t ht => hknown t (s.perm_ordered.subset ht)
  refine ⟨last, htakes, hnow.trans s.getLast?_ordered, ?_⟩
  rw [run, hall]
  rfl

/-- A step that is not known ends the run when its time has come. -/
theorem run_of_unknown (config : EngineConfig) {before after : List TimedStep} {t : TimedStep}
    (hordered : s.ordered = before ++ t :: after) (hbefore : ∀ b ∈ before, s.Knows b.step)
    (ht : ¬ s.Knows t.step) :
    ∃ user last fin, t.step.account? = some user ∧ user ∉ s.accounts.map (·.id) ∧
      (s.machine config).Takes before last ∧ last.Waits fin ∧ fin.now = t.instant ∧
      s.run config = (fin, some user) := by
  obtain ⟨last, htakes, hall, hnow, hregistered⟩ := takes_ordered config hordered hbefore
  have hlater : last.now ≤ t.instant := by
    have hsorted := s.ascending_ordered
    rw [Ascending, hordered] at hsorted
    rw [hnow]
    cases hlast : before.getLast? with
    | none => exact Nat.zero_le _
    | some b =>
      exact (List.pairwise_append.1 hsorted).2.2 b (List.mem_of_getLast? hlast) t List.mem_cons_self
  obtain ⟨hwait, hinstant⟩ := Machine.waits_moveTo hlater
  obtain ⟨user, huser, hstranger⟩ : ∃ user, t.step.account? = some user ∧
      user ∉ s.accounts.map (·.id) := by
    rw [Knows] at ht
    push Not at ht
    exact ht
  have hnone : (last.moveTo t.instant).store.find? user = none := by
    rw [Store.find?_congr (Machine.directory_waits hwait), ← Option.not_isSome_iff_eq_none,
      hregistered]
    exact hstranger
  refine ⟨user, last, _, huser, hstranger, htakes, hwait, hinstant, ?_⟩
  rw [run, hall, Machine.takeAll, Machine.take_of_unknown huser hnone]

/-- Where the run ends after known steps: the time to go on later, if that instant has 64 bits, and
otherwise with the last step. -/
theorem endInstant_eq (hbounds : (∀ t ∈ s.steps, t.instant ≤ Text.maxWord64) ∧
    s.settle ≤ Text.maxWord64) :
    (s.lastInstant + s.settle < UInt64.size → s.endInstant = s.lastInstant + s.settle) ∧
      (UInt64.size ≤ s.lastInstant + s.settle → s.endInstant ≤ s.lastInstant) := by
  have hlast : s.lastInstant < UInt64.size := by
    unfold lastInstant
    cases hmax : (s.steps.map (·.instant)).max? with
    | none => decide
    | some i =>
      obtain ⟨t, ht, rfl⟩ := List.mem_map.1 (List.max?_eq_some_iff.1 hmax).1
      exact Nat.lt_of_le_of_lt (hbounds.1 t ht) (by decide)
  have hsettle : s.settle < UInt64.size := Nat.lt_of_le_of_lt hbounds.2 (by decide)
  have hend : s.endInstant = (s.lastInstant + s.settle) % UInt64.size := by
    rw [endInstant, getLast?_ordered]
  constructor
  · intro hfits
    rw [hend, Nat.mod_eq_of_lt hfits]
  · intro hwraps
    have hmod : (s.lastInstant + s.settle) % UInt64.size =
        s.lastInstant + s.settle - UInt64.size := by
      rw [Nat.mod_eq_sub_mod hwraps, Nat.mod_eq_of_lt (by omega)]
    omega

/-- **The timeline of a scenario.** The steps are taken by their instants, in the order of the text
where these are equal. Where every step is known each is taken once, at its instant. The machine
then waits until the time to go on has passed since the last instant, with engine and service at
work all along, and ends. Where the sum of the two has more than 64 bits it ends at once. Where some
step is not known those before the first such one are taken, and the run ends when its time has
come. -/
theorem timeline (h : decodeText decode text = .ok s) (config : EngineConfig) :
    s.ordered.Perm s.steps ∧ Ascending s.ordered ∧
    (∀ i, s.ordered.filter (·.instant = i) = s.steps.filter (·.instant = i)) ∧
    ((∀ t ∈ s.steps, s.Knows t.step) → ∃ last fin, (s.machine config).Takes s.ordered last ∧
      last.now = s.lastInstant ∧ last.Waits fin ∧ (∀ m, last.Waits m → m.IsAtWork) ∧
      (s.lastInstant + s.settle < UInt64.size → fin.now = s.lastInstant + s.settle) ∧
      (UInt64.size ≤ s.lastInstant + s.settle → fin = last) ∧
      s.run config = (fin.close, none)) ∧
    ((∃ t ∈ s.steps, ¬ s.Knows t.step) → ∃ before t after user last fin,
      s.ordered = before ++ t :: after ∧ (∀ b ∈ before, s.Knows b.step) ∧
      t.step.account? = some user ∧ user ∉ s.accounts.map (·.id) ∧
      (s.machine config).Takes before last ∧ last.Waits fin ∧ fin.now = t.instant ∧
      s.run config = (fin, some user)) := by
  obtain ⟨hfits, hwraps⟩ := endInstant_eq (bounds_of_decode h)
  refine ⟨s.perm_ordered, s.ascending_ordered, s.filter_ordered, ?_, ?_⟩
  · intro hknown
    obtain ⟨last, htakes, hnow, hrun⟩ := run_of_known config hknown
    have hatWork : ∀ m, last.Waits m → m.IsAtWork := fun m hwait =>
      ((htakes.onDuty (s.onDuty_machine config)).waits hwait).isAtWork
    rcases Nat.lt_or_ge (s.lastInstant + s.settle) UInt64.size with hlt | hge
    · have hlater : last.now ≤ s.endInstant := by
        rw [hnow, hfits hlt]
        exact Nat.le_add_right _ _
      obtain ⟨hwait, hend⟩ := Machine.waits_moveTo hlater
      exact ⟨last, _, htakes, hnow, hwait, hatWork, fun _ => hend.trans (hfits hlt),
        fun hge => absurd hlt (Nat.not_lt.2 hge), hrun⟩
    · have hstays : last.moveTo s.endInstant = last := Machine.moveTo_of_le (hnow ▸ hwraps hge)
      rw [hstays] at hrun
      exact ⟨last, last, htakes, hnow, .refl, hatWork, fun hlt => absurd hlt (Nat.not_lt.2 hge),
        fun _ => rfl, hrun⟩
  · rintro ⟨t, ht, hunknown⟩
    classical
    obtain ⟨first, hfirst⟩ : ∃ first, s.ordered.find? (fun t => ¬ s.Knows t.step) = some first :=
      Option.isSome_iff_exists.1 (List.find?_isSome.2
        ⟨t, s.perm_ordered.symm.subset ht, decide_eq_true hunknown⟩)
    obtain ⟨hfirst, before, after, hordered, hbefore⟩ := List.find?_eq_some_iff_append.1 hfirst
    have hknown : ∀ b ∈ before, s.Knows b.step := fun b hb => by simpa using hbefore b hb
    obtain ⟨user, last, fin, hrun⟩ :=
      run_of_unknown config hordered hknown (of_decide_eq_true hfirst)
    exact ⟨before, first, after, user, last, fin, hordered, hknown, hrun⟩

/-- Steps out of order: the service ends at 20, and a command and a change are due at 10. -/
def crossed : Scenario where
  accounts := [⟨⟨"me", "wire.com"⟩, some "Me", none⟩]
  steps := [⟨20, .destroy⟩, ⟨10, .command none⟩, ⟨10, .valid ⟨"me", "wire.com"⟩ true⟩]
  settle := 300

/-- The record of it. -/
def crossedJson : Json :=
  .object
    [("accounts", .array [.object [("id", .string "me@wire.com"), ("name", .string "Me")]]),
      ("steps", .array
        [.object [("at_ms", .nat 20), ("step", .string "destroy")],
          .object [("at_ms", .nat 10), ("step", .string "command")],
          .object [("at_ms", .nat 10), ("step", .string "valid"),
            ("user_id", .string "me@wire.com"), ("valid", .bool true)]]),
      ("settle_ms", .nat 300)]

/-- A command at 5 and a change for somebody who was not registered. -/
def stranded : Scenario where
  accounts := []
  steps := [⟨5, .command none⟩, ⟨7, .valid ⟨"you", "wire.com"⟩ true⟩, ⟨9, .destroy⟩]
  settle := 0

/-- The record of it. -/
def strandedJson : Json :=
  .object
    [("steps", .array
        [.object [("at_ms", .nat 5), ("step", .string "command")],
          .object [("at_ms", .nat 7), ("step", .string "valid"),
            ("user_id", .string "you@wire.com"), ("valid", .bool true)],
          .object [("at_ms", .nat 9), ("step", .string "destroy")]]),
      ("settle_ms", .nat 0)]

theorem timeline_crossed :
    (decodeText decode crossedJson.compact = .ok crossed ∧
      (∀ t ∈ crossed.steps, crossed.Knows t.step) ∧
      ∃ last fin, (crossed.machine default).Takes
          [⟨10, .command none⟩, ⟨10, .valid ⟨"me", "wire.com"⟩ true⟩, ⟨20, .destroy⟩] last ∧
        last.Waits fin ∧ fin.now = 320 ∧ crossed.run default = (fin.close, none)) ∧
    (decodeText decode strandedJson.compact = .ok stranded ∧
      ∃ last fin, (stranded.machine default).Takes [⟨5, .command none⟩] last ∧ last.Waits fin ∧
        fin.now = 7 ∧ stranded.run default = (fin, some ⟨"you", "wire.com"⟩)) := by
  have hsmall (n : Nat) (h : n < Nat.pow 10 3) : Json.IsSmall n :=
    Json.isSmall_of_lt (by decide) h
  constructor
  · have hplain : Json.Plain crossedJson := by
      simp only [crossedJson, Json.nat, Json.plain_object, Json.plain_array, Json.plain_int,
        Json.Plain.string, Json.Plain.bool, List.forall_mem_cons, List.not_mem_nil, false_imp_iff,
        implies_true, and_true, true_and]
      exact ⟨⟨hsmall 20 (by decide), hsmall 10 (by decide), hsmall 10 (by decide)⟩,
        hsmall 300 (by decide)⟩
    have hdecode : decodeText decode crossedJson.compact = .ok crossed :=
      decodeText_compact hplain (by decide +kernel)
    have hordered : crossed.ordered =
        [⟨10, .command none⟩, ⟨10, .valid ⟨"me", "wire.com"⟩ true⟩, ⟨20, .destroy⟩] := by
      simp [ordered, crossed, List.mergeSort, List.MergeSort.Internal.splitInTwo]
    have hknown : ∀ t ∈ crossed.steps, crossed.Knows t.step := by
      simp [crossed, Knows, ScenarioStep.account?]
    obtain ⟨-, -, -, hrun, -⟩ := timeline hdecode default
    obtain ⟨last, fin, htakes, -, hwait, -, hnow, -, hrun⟩ := hrun hknown
    exact ⟨hdecode, hknown, last, fin, hordered ▸ htakes, hwait, hnow (by decide), hrun⟩
  · have hplain : Json.Plain strandedJson := by
      simp only [strandedJson, Json.nat, Json.plain_object, Json.plain_array, Json.plain_int,
        Json.Plain.string, Json.Plain.bool, List.forall_mem_cons, List.not_mem_nil, false_imp_iff,
        implies_true, and_true]
      exact ⟨⟨hsmall 5 (by decide), hsmall 7 (by decide), hsmall 9 (by decide)⟩,
        hsmall 0 (by decide)⟩
    have hdecode : decodeText decode strandedJson.compact = .ok stranded :=
      decodeText_compact hplain (by decide +kernel)
    have hordered : stranded.ordered = stranded.steps :=
      List.mergeSort_of_pairwise (by simp [stranded])
    have hunknown : ¬ stranded.Knows (.valid ⟨"you", "wire.com"⟩ true) := by
      simp [stranded, Knows, ScenarioStep.account?]
    obtain ⟨-, -, -, -, hrun⟩ := timeline hdecode default
    obtain ⟨before, t, after, user, last, fin, hsplit, hbefore, huser, -, htakes, hrest⟩ :=
      hrun ⟨⟨7, .valid ⟨"you", "wire.com"⟩ true⟩, by simp [stranded], hunknown⟩
    rw [hordered] at hsplit
    have hplace : before = [⟨5, .command none⟩] ∧ t = ⟨7, .valid ⟨"you", "wire.com"⟩ true⟩ := by
      rcases before with _ | ⟨b, _ | ⟨b', before⟩⟩
      · obtain ⟨rfl, -⟩ := List.cons.inj hsplit
        cases huser
      · obtain ⟨rfl, htail⟩ := List.cons.inj hsplit
        exact ⟨rfl, (List.cons.inj htail).1.symm⟩
      · obtain ⟨-, htail⟩ := List.cons.inj hsplit
        obtain ⟨rfl, -⟩ := List.cons.inj htail
        exact absurd (hbefore ⟨7, .valid ⟨"you", "wire.com"⟩ true⟩ (.tail _ (.head _))) hunknown
    obtain ⟨rfl, rfl⟩ := hplace
    obtain rfl : ⟨"you", "wire.com"⟩ = user := Option.some.inj huser
    exact ⟨hdecode, last, fin, htakes, hrest⟩

/-- A command, and then more time to go on than can be counted. -/
def overlong : Scenario where
  accounts := []
  steps := [⟨1000, .command none⟩]
  settle := 18446744073709551115

/-- The record of it. -/
def overlongJson : Json :=
  .object
    [("steps", .array [.object [("at_ms", .nat 1000), ("step", .string "command")]]),
      ("settle_ms", .nat 18446744073709551115)]

/-- Where the end is beyond 64 bits the run does not go on after its last step. -/
theorem ends_early :
    ¬ ∀ (text : String) (s : Scenario) (config : EngineConfig), decodeText decode text = .ok s →
      (∀ t ∈ s.steps, s.Knows t.step) → ∃ last fin, (s.machine config).Takes s.ordered last ∧
        last.Waits fin ∧ fin.now = s.lastInstant + s.settle ∧ s.run config = (fin.close, none) := by
  intro h
  have hplain : Json.Plain overlongJson := by
    have hsmall (n : Nat) (h : n < Nat.pow 10 20) : Json.IsSmall n :=
      Json.isSmall_of_lt (by decide) h
    simp only [overlongJson, Json.nat, Json.plain_object, Json.plain_array, Json.plain_int,
      Json.Plain.string, List.forall_mem_cons, List.not_mem_nil, false_imp_iff, implies_true,
      and_true]
    exact ⟨hsmall 1000 (by decide), hsmall 18446744073709551115 (by decide)⟩
  have hdecode : decodeText decode overlongJson.compact = .ok overlong :=
    decodeText_compact hplain (by decide +kernel)
  have hknown : ∀ t ∈ overlong.steps, overlong.Knows t.step := by
    simp [overlong, Knows, ScenarioStep.account?]
  obtain ⟨-, fin, -, -, hclaimed, hend⟩ := h _ overlong default hdecode hknown
  obtain ⟨last, -, hnow, hrun⟩ := run_of_known default hknown
  have hstays : last.moveTo overlong.endInstant = last := by
    refine Machine.moveTo_of_le (hnow ▸ (endInstant_eq (bounds_of_decode hdecode)).2 ?_)
    decide
  rw [hstays] at hrun
  have hsame : last.close = fin.close := congrArg Prod.fst (hrun.symm.trans hend)
  have hnows : last.now = fin.now := by
    rw [← last.now_close, ← fin.now_close, hsame]
  rw [hnow, hclaimed] at hnows
  exact absurd hnows (by decide)

end Scenario

end CallWatch
