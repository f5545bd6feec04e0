import CallWatch.Proofs.Json.Compact
import CallWatch.Proofs.Keyed
import CallWatch.Proofs.Text
import CallWatch.Scenario
import CallWatch.Settings.Load

/-! # The layers of the settings

Settings come from a file over the defaults, and from variables of the environment over the file.

* `SettingsVariable.Says` lists which values of a variable are acceptable and what each says of a
  field.
* `Settings.Overlays above below env` says that the environment gives the fields that differ: what it
  gives replaces what is below, and no other field changes.
* `Settings.load_layers` puts the layers together with the bounds, which are looked at last. -/

namespace CallWatch

/-! ### Fields -/

/-- A field of the settings. -/
inductive SettingsField where
  | queueCapacity
  | stopDebounceMs
  | bindAnswerToPipeline
  | level
  | modules
  | json
  | persistWarnings
  | logDbPath
  deriving DecidableEq, Repr

/-- What a field holds. -/
@[reducible] def SettingsField.Content : SettingsField → Type
  | .queueCapacity => ℕ
  | .stopDebounceMs => ℕ
  | .bindAnswerToPipeline => Bool
  | .level => String
  | .modules => List (String × String)
  | .json => Bool
  | .persistWarnings => Bool
  | .logDbPath => Option String

/-- What the settings hold in a field. -/
def Settings.get (s : Settings) : (f : SettingsField) → f.Content
  | .queueCapacity => s.orchestrator.queueCapacity
  | .stopDebounceMs => s.orchestrator.stopDebounceMs
  | .bindAnswerToPipeline => s.orchestrator.bindAnswerToPipeline
  | .level => s.logging.level
  | .modules => s.logging.modules
  | .json => s.logging.json
  | .persistWarnings => s.logging.persistWarnings
  | .logDbPath => s.logging.logDbPath

/-- Settings are known by their fields. -/
theorem Settings.ext_get {s t : Settings} (h : ∀ f, s.get f = t.get f) : s = t := by
  obtain ⟨⟨c, w, b⟩, ⟨l, m, j, p, d⟩⟩ := s
  obtain ⟨⟨c', w', b'⟩, ⟨l', m', j', p', d'⟩⟩ := t
  obtain rfl : c = c' := h .queueCapacity
  obtain rfl : w = w' := h .stopDebounceMs
  obtain rfl : b = b' := h .bindAnswerToPipeline
  obtain rfl : l = l' := h .level
  obtain rfl : m = m' := h .modules
  obtain rfl : j = j' := h .json
  obtain rfl : p = p' := h .persistWarnings
  obtain rfl : d = d' := h .logDbPath
  rfl

/-! ### Variables -/

/-- A variable of the environment that settings are taken from. -/
inductive SettingsVariable where
  | queueCapacity
  | stopDebounceMs
  | bindAnswerToPipeline
  | logLevel
  | logJson
  | logDb
  deriving DecidableEq, Repr

namespace SettingsVariable

/-- The name of the variable. -/
def name : SettingsVariable → String
  | .queueCapacity => "CALLKEEP_QUEUE_CAPACITY"
  | .stopDebounceMs => "CALLKEEP_STOP_DEBOUNCE_MS"
  | .bindAnswerToPipeline => "CALLKEEP_BIND_ANSWER_TO_PIPELINE"
  | .logLevel => "CALLKEEP_LOG_LEVEL"
  | .logJson => "CALLKEEP_LOG_JSON"
  | .logDb => "CALLKEEP_LOG_DB"

theorem name_injective {v w : SettingsVariable} (h : v.name = w.name) : v = w := by
  cases v <;> cases w <;> first | rfl | exact absurd h (by decide)

/-- The words for a truth value, in small letters. -/
def words : Bool → List String
  | true => ["true", "1", "yes", "on"]
  | false => ["false", "0", "no", "off"]

/-- The text is acceptable for the variable and says that a field holds a content. The place of the
log says two things: where it is, and that it is kept. -/
inductive Says : SettingsVariable → String → (f : SettingsField) → f.Content → Prop
  | queueCapacity {s : String} {n : ℕ} (hn : Text.Numeral s n) (hlo : 1 ≤ n) (hhi : n ≤ 1024) :
      Says .queueCapacity s .queueCapacity n
  | stopDebounceMs {s : String} {n : ℕ} (hn : Text.Numeral s n) (hhi : n ≤ 60000) :
      Says .stopDebounceMs s .stopDebounceMs n
  | bindAnswerToPipeline {s : String} {b : Bool} (hs : Text.lower s ∈ words b) :
      Says .bindAnswerToPipeline s .bindAnswerToPipeline b
  | logLevel {s : String} (hs : s ≠ "") : Says .logLevel s .level s
  | logJson {s : String} {b : Bool} (hs : Text.lower s ∈ words b) : Says .logJson s .json b
  | persistWarnings {s : String} (hs : s ≠ "") : Says .logDb s .persistWarnings true
  | logDbPath {s : String} (hs : s ≠ "") : Says .logDb s .logDbPath (some s)

end SettingsVariable

namespace Variables

variable {env : Variables}

/-- The environment gives a field a content: the variable of the field has an acceptable value. -/
def Gives (env : Variables) (f : SettingsField) (x : f.Content) : Prop :=
  ∃ (v : SettingsVariable) (s : String), env.lookup v.name = some s ∧ v.Says s f x

/-- The variable has an acceptable value. -/
def Accepts (env : Variables) (v : SettingsVariable) : Prop :=
  ∃ s f x, env.lookup v.name = some s ∧ v.Says s f x

/-- The environment without a variable. -/
def unset (env : Variables) (name : String) : Variables := env.filter (·.1 != name)

theorem lookup_unset (env : Variables) (name other : String) :
    (env.unset name).lookup other = if other = name then none else env.lookup other := by
  induction env with
  | nil => simp [unset]
  | cons p rest ih =>
    obtain ⟨key, value⟩ := p
    by_cases hk : key = name
    · have hdrop : unset ((key, value) :: rest) name = unset rest name := by simp [unset, hk]
      rw [hdrop, ih, Keyed.lookup_cons_eq_ite]
      by_cases ho : other = name
      · rw [if_pos ho, if_pos ho]
      · rw [if_neg ho, if_neg ho, if_neg fun h => ho (h.trans hk)]
    · have hkeep : unset ((key, value) :: rest) name = (key, value) :: unset rest name := by
        simp [unset, hk]
      rw [hkeep, Keyed.lookup_cons_eq_ite, Keyed.lookup_cons_eq_ite, ih]
      by_cases ho : other = key
      · rw [if_pos ho, if_pos ho, if_neg fun h => hk (ho.symm.trans h)]
      · rw [if_neg ho, if_neg ho]

/-! ### What is read from the environment -/

theorem readFlag?_eq_some_iff {s : String} {b : Bool} :
    readFlag? s = some b ↔ Text.lower s ∈ SettingsVariable.words b := by
  have hdisjoint : ∀ w ∈ SettingsVariable.words false, w ∉ SettingsVariable.words true := by decide
  change (if Text.lower s ∈ SettingsVariable.words true then some true
    else if Text.lower s ∈ SettingsVariable.words false then some false else none) = some b ↔ _
  by_cases hyes : Text.lower s ∈ SettingsVariable.words true
  · have hno : Text.lower s ∉ SettingsVariable.words false := fun h => hdisjoint _ h hyes
    cases b <;> simp [hyes, hno]
  · cases b <;> simp [hyes]

theorem flag?_eq_some_iff {name : String} {b : Bool} :
    env.flag? name = some b ↔ ∃ s, env.lookup name = some s ∧ Text.lower s ∈ SettingsVariable.words b := by
  simp only [flag?, Option.bind_eq_some_iff, readFlag?_eq_some_iff]

theorem text?_eq_some_iff {name s : String} :
    env.text? name = some s ↔ env.lookup name = some s ∧ s ≠ "" := by
  simp [text?, Option.filter_eq_some_iff]

theorem number?_eq_some_iff {name : String} {lo hi n : ℕ} :
    env.number? name lo hi = some n ↔
      ∃ s, env.lookup name = some s ∧ Text.Numeral s n ∧ lo ≤ n ∧ n ≤ hi := by
  simp only [number?, Option.bind_eq_some_iff, Text.readWithin?_eq_some_iff]

/-- What the environment gives a field, if it gives it something. -/
def given? (env : Variables) : (f : SettingsField) → Option f.Content
  | .queueCapacity => env.number? "CALLKEEP_QUEUE_CAPACITY" 1 1024
  | .stopDebounceMs => env.number? "CALLKEEP_STOP_DEBOUNCE_MS" 0 60000
  | .bindAnswerToPipeline => env.flag? "CALLKEEP_BIND_ANSWER_TO_PIPELINE"
  | .level => env.text? "CALLKEEP_LOG_LEVEL"
  | .modules => none
  | .json => env.flag? "CALLKEEP_LOG_JSON"
  | .persistWarnings => (env.text? "CALLKEEP_LOG_DB").map fun _ => true
  | .logDbPath => (env.text? "CALLKEEP_LOG_DB").map some

theorem given?_eq_some_iff {f : SettingsField} {x : f.Content} :
    env.given? f = some x ↔ env.Gives f x := by
  constructor
  · intro h
    cases f with
    | queueCapacity =>
      obtain ⟨s, hs, hn, hlo, hhi⟩ := number?_eq_some_iff.mp h
      exact ⟨.queueCapacity, s, hs, .queueCapacity hn hlo hhi⟩
    | stopDebounceMs =>
      obtain ⟨s, hs, hn, -, hhi⟩ := number?_eq_some_iff.mp h
      exact ⟨.stopDebounceMs, s, hs, .stopDebounceMs hn hhi⟩
    | bindAnswerToPipeline =>
      obtain ⟨s, hs, hword⟩ := flag?_eq_some_iff.mp h
      exact ⟨.bindAnswerToPipeline, s, hs, .bindAnswerToPipeline hword⟩
    | level =>
      obtain ⟨hs, hne⟩ := text?_eq_some_iff.mp h
      exact ⟨.logLevel, x, hs, .logLevel hne⟩
    | modules => cases h
    | json =>
      obtain ⟨s, hs, hword⟩ := flag?_eq_some_iff.mp h
      exact ⟨.logJson, s, hs, .logJson hword⟩
    | persistWarnings =>
      obtain ⟨s, htext, rfl⟩ := Option.map_eq_some_iff.mp h
      obtain ⟨hs, hne⟩ := text?_eq_some_iff.mp htext
      exact ⟨.logDb, s, hs, .persistWarnings hne⟩
    | logDbPath =>
      obtain ⟨s, htext, rfl⟩ := Option.map_eq_some_iff.mp h
      obtain ⟨hs, hne⟩ := text?_eq_some_iff.mp htext
      exact ⟨.logDb, s, hs, .logDbPath hne⟩
  · rintro ⟨v, s, hs, hsays⟩
    cases hsays with
    | queueCapacity hn hlo hhi => exact number?_eq_some_iff.mpr ⟨s, hs, hn, hlo, hhi⟩
    | stopDebounceMs hn hhi => exact number?_eq_some_iff.mpr ⟨s, hs, hn, Nat.zero_le _, hhi⟩
    | bindAnswerToPipeline hword => exact flag?_eq_some_iff.mpr ⟨s, hs, hword⟩
    | logLevel hne => exact text?_eq_some_iff.mpr ⟨hs, hne⟩
    | logJson hword => exact flag?_eq_some_iff.mpr ⟨s, hs, hword⟩
    | persistWarnings hne =>
      exact Option.map_eq_some_iff.mpr ⟨s, text?_eq_some_iff.mpr ⟨hs, hne⟩, rfl⟩
    | logDbPath hne => exact Option.map_eq_some_iff.mpr ⟨s, text?_eq_some_iff.mpr ⟨hs, hne⟩, rfl⟩

theorem gives_queueCapacity_iff :
    (∃ n, env.Gives .queueCapacity n) ↔ env.Accepts .queueCapacity := by
  constructor
  · rintro ⟨n, v, s, hs, hsays⟩
    cases hsays with
    | queueCapacity hn hlo hhi => exact ⟨s, _, _, hs, .queueCapacity hn hlo hhi⟩
  · rintro ⟨s, f, x, hs, hsays⟩
    cases hsays with
    | queueCapacity hn hlo hhi => exact ⟨_, _, s, hs, .queueCapacity hn hlo hhi⟩

theorem gives_stopDebounceMs_iff :
    (∃ n, env.Gives .stopDebounceMs n) ↔ env.Accepts .stopDebounceMs := by
  constructor
  · rintro ⟨n, v, s, hs, hsays⟩
    cases hsays with
    | stopDebounceMs hn hhi => exact ⟨s, _, _, hs, .stopDebounceMs hn hhi⟩
  · rintro ⟨s, f, x, hs, hsays⟩
    cases hsays with
    | stopDebounceMs hn hhi => exact ⟨_, _, s, hs, .stopDebounceMs hn hhi⟩

/-- Without a variable whose value is not acceptable the environment gives the same. -/
theorem gives_unset {v : SettingsVariable} (hv : ¬ env.Accepts v) {f : SettingsField}
    {x : f.Content} : (env.unset v.name).Gives f x ↔ env.Gives f x := by
  constructor
  · rintro ⟨w, s, hs, hsays⟩
    rw [lookup_unset] at hs
    by_cases hw : w.name = v.name
    · rw [if_pos hw] at hs
      cases hs
    · rw [if_neg hw] at hs
      exact ⟨w, s, hs, hsays⟩
  · rintro ⟨w, s, hs, hsays⟩
    have hw : w.name ≠ v.name := by
      intro h
      obtain rfl := SettingsVariable.name_injective h
      exact hv ⟨s, f, x, hs, hsays⟩
    refine ⟨w, s, ?_, hsays⟩
    rw [lookup_unset, if_neg hw]
    exact hs

end Variables

/-! ### One layer over another -/

namespace Settings

variable {above below s : Settings} {env : Variables} {file : FileContent}

/-- What the environment gives replaces what is below, and no other field changes. -/
structure Overlays (above below : Settings) (env : Variables) : Prop where
  given : ∀ f x, env.Gives f x → above.get f = x
  kept : ∀ f, (∀ x, ¬ env.Gives f x) → above.get f = below.get f

/-- There is one way only to lay the environment over settings. -/
theorem Overlays.unique {other : Settings} (h : above.Overlays below env)
    (h' : other.Overlays below env) : other = above := by
  refine ext_get fun f => ?_
  by_cases hf : ∃ x, env.Gives f x
  · obtain ⟨x, hx⟩ := hf
    rw [h.given f x hx, h'.given f x hx]
  · have hnone : ∀ x, ¬ env.Gives f x := fun x hx => hf ⟨x, hx⟩
    rw [h.kept f hnone, h'.kept f hnone]

theorem get_override (s : Settings) (env : Variables) (f : SettingsField) :
    (s.override env).get f = (env.given? f).getD (s.get f) := by
  cases f with
  | persistWarnings =>
    change ((env.text? "CALLKEEP_LOG_DB").isSome || s.logging.persistWarnings) = _
    simp only [Variables.given?]
    cases env.text? "CALLKEEP_LOG_DB" <;> rfl
  | logDbPath =>
    change (env.text? "CALLKEEP_LOG_DB" <|> s.logging.logDbPath) = _
    simp only [Variables.given?]
    cases env.text? "CALLKEEP_LOG_DB" <;> rfl
  | _ => rfl

theorem overlays_override (s : Settings) (env : Variables) : (s.override env).Overlays s env where
  given f x hx := by
    rw [get_override, Variables.given?_eq_some_iff.mpr hx]
    rfl
  kept f hf := by
    have hnone : env.given? f = none :=
      Option.eq_none_iff_forall_ne_some.mpr fun x hx => hf x (Variables.given?_eq_some_iff.mp hx)
    rw [get_override, hnone]
    rfl

/-- Environments that give the same are laid over settings in the same way. -/
theorem override_congr {env' : Variables} (h : ∀ f x, env.Gives f x ↔ env'.Gives f x)
    (s : Settings) : s.override env = s.override env' := by
  refine (overlays_override s env').unique ⟨fun f x hx => ?_, fun f hf => ?_⟩
  · exact (overlays_override s env).given f x ((h f x).mpr hx)
  · exact (overlays_override s env).kept f fun x hx => hf x ((h f x).mp hx)

/-! ### Bounds -/

/-- The service can run with the settings. -/
def InBounds (s : Settings) : Prop :=
  (1 ≤ s.orchestrator.queueCapacity ∧ s.orchestrator.queueCapacity ≤ 1024) ∧
    s.orchestrator.stopDebounceMs ≤ 60000

theorem fault?_eq_none_iff : s.fault? = none ↔ s.InBounds := by
  rw [fault?_eq_none, InBounds, and_assoc]

/-- Where the environment gives only what has a property, a field has it if it had it before, or if
the environment gives the field. -/
theorem Overlays.holds_iff (h : above.Overlays below env) (f : SettingsField)
    {P : f.Content → Prop} (hP : ∀ x, env.Gives f x → P x) :
    P (above.get f) ↔ P (below.get f) ∨ ∃ x, env.Gives f x := by
  by_cases hf : ∃ x, env.Gives f x
  · obtain ⟨x, hx⟩ := hf
    rw [h.given f x hx]
    exact ⟨fun _ => .inr ⟨x, hx⟩, fun _ => hP x hx⟩
  · rw [h.kept f fun x hx => hf ⟨x, hx⟩]
    exact ⟨.inl, fun hor => hor.resolve_right hf⟩

/-- **Who is within the bounds.** Each value that is out of bounds below needs a variable. -/
theorem Overlays.inBounds_iff (h : above.Overlays below env) :
    above.InBounds ↔
      ((1 ≤ below.orchestrator.queueCapacity ∧ below.orchestrator.queueCapacity ≤ 1024) ∨
        env.Accepts .queueCapacity) ∧
      (below.orchestrator.stopDebounceMs ≤ 60000 ∨ env.Accepts .stopDebounceMs) := by
  have hcapacity := h.holds_iff .queueCapacity (P := fun n : ℕ => 1 ≤ n ∧ n ≤ 1024) (by
    rintro _ ⟨_, _, -, hsays⟩
    cases hsays with
    | queueCapacity _ hlo hhi => exact ⟨hlo, hhi⟩)
  have hwindow := h.holds_iff .stopDebounceMs (P := fun n : ℕ => n ≤ 60000) (by
    rintro _ ⟨_, _, -, hsays⟩
    cases hsays with
    | stopDebounceMs _ hhi => exact hhi)
  rw [Variables.gives_queueCapacity_iff] at hcapacity
  rw [Variables.gives_stopDebounceMs_iff] at hwindow
  exact and_congr hcapacity hwindow

/-! ### Loading -/

theorem load_of_error {e : SettingsError} (h : ofFile file = .error e) (env : Variables) :
    load file env = .error e := by
  simp only [load, h]
  rfl

theorem load_of_ok (h : ofFile file = .ok below) (env : Variables) :
    load file env = match (below.override env).fault? with
      | some fault => .error (.invalid fault)
      | none => .ok (below.override env) := by
  simp only [load, h]
  rfl

/-- A file whose text is read gives its value over the defaults, if that is settings. -/
theorem ofFile_of_parse {t : String} {j : Json} (hparse : Json.parse? t = some j) :
    ofFile (.text t) = (layer j).elim (.error (.refused .wrongShape)) .ok := by
  simp only [ofFile, hparse]
  cases layer j <;> rfl

/-- The compact text of a value is a file with that value. -/
theorem ofFile_compact {j : Json} (hplain : Json.Plain j)
    (hreadable : Json.readable Json.maxDepth j = true) (hlayer : layer j = some s) :
    ofFile (.text j.compact) = .ok s := by
  rw [ofFile_of_parse (Json.parse?_compact hplain hreadable), hlayer, Option.elim_some]

theorem inBounds_of_load (h : load file env = .ok s) : s.InBounds := by
  cases hfile : ofFile file with
  | error e =>
    rw [load_of_error hfile] at h
    cases h
  | ok below =>
    rw [load_of_ok hfile] at h
    cases hfault : (below.override env).fault? with
    | some fault =>
      rw [hfault] at h
      cases h
    | none =>
      rw [hfault] at h
      cases h
      exact fault?_eq_none_iff.mp hfault

/-- **Settings in layers.** A file that cannot be used is the error. Otherwise every variable with an
acceptable value replaces its own field and no other, the bounds are looked at last, and a value of
the file beyond them is rescued exactly if its variable is acceptable. A variable that is not
acceptable might as well not be set, and an engine takes loaded settings as they are. -/
theorem load_layers (file : FileContent) (env : Variables) :
    (∀ e, ofFile file = .error e → load file env = .error e) ∧
    (∀ below, ofFile file = .ok below → ∃ above, above.Overlays below env ∧
      (∀ other, Overlays other below env → other = above) ∧
      (above.InBounds → load file env = .ok above) ∧
      (¬ above.InBounds →
        ∃ fault, above.fault? = some fault ∧ load file env = .error (.invalid fault)) ∧
      (above.InBounds ↔
        ((1 ≤ below.orchestrator.queueCapacity ∧ below.orchestrator.queueCapacity ≤ 1024) ∨
          env.Accepts .queueCapacity) ∧
        (below.orchestrator.stopDebounceMs ≤ 60000 ∨ env.Accepts .stopDebounceMs))) ∧
    (∀ v, ¬ env.Accepts v → load file env = load file (env.unset v.name)) ∧
    ∀ s, load file env = .ok s →
      (Engine.new s.orchestrator.engineConfig).queue.capacity = s.orchestrator.queueCapacity ∧
      ∀ generation target,
        (Pipeline.new generation target s.orchestrator.engineConfig.stopDebounce).debounce.window =
          s.orchestrator.stopDebounceMs := by
  refine ⟨fun e he => load_of_error he env, fun below hbelow => ?_, fun v hv => ?_, fun s hs => ?_⟩
  · have hover := overlays_override below env
    refine ⟨below.override env, hover, fun other => hover.unique, fun hin => ?_, fun hout => ?_, ?_⟩
    · rw [load_of_ok hbelow, fault?_eq_none_iff.mpr hin]
    · obtain ⟨fault, hfault⟩ :=
        Option.ne_none_iff_exists'.mp fun hnone => hout (fault?_eq_none_iff.mp hnone)
      exact ⟨fault, hfault, by rw [load_of_ok hbelow, hfault]⟩
    · exact hover.inBounds_iff
  · have hgives : ∀ f x, env.Gives f x ↔ (env.unset v.name).Gives f x :=
      fun f x => (Variables.gives_unset hv).symm
    cases hfile : ofFile file with
    | error e => rw [load_of_error hfile, load_of_error hfile]
    | ok below => rw [load_of_ok hfile, load_of_ok hfile, override_congr hgives]
  · obtain ⟨⟨hlo, -⟩, hwindow⟩ := inBounds_of_load hs
    constructor
    · change max s.orchestrator.queueCapacity 1 = _
      omega
    · intro generation target
      change min s.orchestrator.stopDebounceMs Debounce.maxWindow = _
      unfold Debounce.maxWindow
      omega

/-- A file with no room for actions. -/
def roomlessJson : Json := .object [("orchestrator", .object [("queueCapacity", .nat 0)])]

theorem load_layers_rescued :
    let file : FileContent := .text roomlessJson.compact
    let env : Variables := [("CALLKEEP_QUEUE_CAPACITY", "+07"), ("CALLKEEP_LOG_JSON", "maybe")]
    ofFile file = .ok ⟨⟨0, 200, false⟩, default⟩ ∧ env.Accepts .queueCapacity ∧
      ¬ env.Accepts .logJson ∧ ∃ s, load file env = .ok s ∧ s.orchestrator.queueCapacity = 7 ∧
        s.logging.json = false := by
  intro file env
  have hplain : Json.Plain roomlessJson := by
    simp only [roomlessJson, Json.nat, Json.plain_object, List.forall_mem_singleton, Json.plain_int]
    exact Json.isSmall_of_lt (k := 1) (by decide) (by decide)
  have hfile : ofFile file = .ok ⟨⟨0, 200, false⟩, default⟩ :=
    ofFile_compact hplain (by decide) (by decide +kernel)
  have hgives : env.Gives .queueCapacity (7 : ℕ) := Variables.given?_eq_some_iff.mp (by decide)
  have haccepts := Variables.gives_queueCapacity_iff.mp ⟨_, hgives⟩
  have hjson : ∀ b : Bool, ¬ env.Gives .json b := fun b hb => by
    have hflag : env.flag? "CALLKEEP_LOG_JSON" = some b := Variables.given?_eq_some_iff.mpr hb
    exact absurd hflag (by cases b <;> decide)
  have hrefuses : ¬ env.Accepts .logJson := by
    rintro ⟨s, f, x, hs, hsays⟩
    cases hsays with
    | logJson hword => exact hjson _ ⟨.logJson, s, hs, .logJson hword⟩
  obtain ⟨above, hover, -, hload, -, hbounds⟩ := (load_layers file env).2.1 _ hfile
  have hin : above.InBounds := hbounds.mpr ⟨.inr haccepts, .inl (by decide)⟩
  exact ⟨hfile, haccepts, hrefuses, above, hload hin, hover.given _ _ hgives,
    hover.kept .json hjson⟩

end Settings

end CallWatch
