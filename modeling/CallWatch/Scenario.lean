import CallWatch.Service.Machine
import CallWatch.Settings.Basic
import CallWatch.Wire.Decision
import CallWatch.Wire.Session

/-! # Scenarios

A scenario registers accounts and then takes timed steps: changes of the store, and what the host
process does with the service. Steps are taken at their instants, in the order of the text where
instants are equal; after the last one the service goes on for a while before everything ends. -/

namespace CallWatch

open Wire

/-- What happens in a scenario. -/
inductive ScenarioStep where
  | session (session : Option Session)
  | failSession (message : String)
  | selfUser (user : SelfUser)
  | valid (userId : UserId) (valid : Bool)
  | list (name : ListName) (userId : UserId) (calls : List Call)
  | failEstablished (userId : UserId) (message : String)
  | answerBehavior (userId : UserId) (establishes : Bool) (delay : Option Nat)
      (fail : Option String)
  | command (action : Option Action)
  | destroy
  deriving DecidableEq, Repr

/-- A step and its instant in milliseconds. -/
structure TimedStep where
  instant : Nat
  step : ScenarioStep
  deriving DecidableEq, Repr

/-- Accounts, steps, and the time to go on after the last step. -/
structure Scenario where
  accounts : List SelfUser
  steps : List TimedStep
  settle : Nat
  deriving DecidableEq, Repr

/-! ### Reading -/

namespace ScenarioStep

/-- The tags of the steps. -/
def tags : List String :=
  ["session", "fail_session", "self_user", "valid", "established", "outgoing", "incoming",
    "fail_established", "answer_behavior", "command", "destroy"]

/-- A list of calls of an account. -/
def decodeList (name : ListName) (r : Reading) (rest : Json) : Option ScenarioStep := do
  let record ← Record.ofJson? ["user_id", "calls"] rest
  let userId ← record.required "user_id" (Identifier.decode r)
  let calls ← record.required "calls" (Wire.list Call.decode r)
  return .list name userId calls

/-- A step from what stands beside its tag. -/
def decodeFields (tag : String) (r : Reading) (rest : Json) : Option ScenarioStep :=
  match tag with
  | "session" => do
    let record ← Record.ofJson? ["session"] rest
    return .session (← record.optional "session" (nullable Session.decode r))
  | "fail_session" => do
    let record ← Record.ofJson? ["message"] rest
    return .failSession (← record.required "message" (text r))
  | "self_user" => do
    let record ← Record.ofJson? ["user"] rest
    return .selfUser (← record.required "user" (SelfUser.decode r))
  | "valid" => do
    let record ← Record.ofJson? ["user_id", "valid"] rest
    let userId ← record.required "user_id" (Identifier.decode r)
    return .valid userId (← record.required "valid" (flag r))
  | "established" => decodeList .established r rest
  | "outgoing" => decodeList .outgoing r rest
  | "incoming" => decodeList .incoming r rest
  | "fail_established" => do
    let record ← Record.ofJson? ["user_id", "message"] rest
    let userId ← record.required "user_id" (Identifier.decode r)
    return .failEstablished userId (← record.required "message" (text r))
  | "answer_behavior" => do
    let record ← Record.ofJson? ["user_id", "establishes", "delay_ms", "fail"] rest
    let userId ← record.required "user_id" (Identifier.decode r)
    let establishes ← record.withDefault "establishes" false (flag r)
    let delay ← record.withDefault "delay_ms" none (nullable word64 r)
    let fail ← record.withDefault "fail" none (nullable text r)
    return .answerBehavior userId establishes delay fail
  | "command" => do
    let record ← Record.ofJson? ["action"] rest
    return .command (← record.withDefault "action" none (nullable Action.decode r))
  | _ => if noFields rest then some .destroy else none

/-- A step, tagged by its name; what stands beside its instant is held. -/
def decode : Decoder ScenarioStep := fun r j => do
  let (i, rest) ← tagged "step" tags r j
  decodeFields (tags.getD i "") r.inside.hold rest

end ScenarioStep

namespace TimedStep

/-- A timed step: an object with the instant, or none for the start, among the members of the
step. -/
def decode : Decoder TimedStep
  | r, .object members => do
    let times := members.filter (·.1 == "at_ms")
    let rest := members.filter (·.1 != "at_ms")
    let instant ← match times with
      | [] => some 0
      | [(_, j)] => word64 r.inside j
      | _ => none
    if Json.membersReadable (r.room - 1) rest then
      let step ← ScenarioStep.decode r.hold (.object rest)
      return { instant, step }
    else none
  | _, _ => none

end TimedStep

namespace Scenario

/-- The time to go on after the last step unless the scenario says otherwise. -/
def defaultSettle : Nat := 1000

/-- A scenario from its record. -/
def decode : Decoder Scenario := fun r j => do
  let record ← Record.ofJson? ["accounts", "steps", "settle_ms"] j
  let r := r.inside
  let accounts ← record.withDefault "accounts" [] (Wire.list SelfUser.decode r)
  let steps ← record.required "steps" (Wire.list TimedStep.decode r)
  let settle ← record.withDefault "settle_ms" defaultSettle (word64 r)
  return { accounts, steps, settle }

/-! ### Running -/

/-- The steps by their instants, in the order of the text where these are equal. -/
def ordered (s : Scenario) : List TimedStep :=
  s.steps.mergeSort fun a b => a.instant ≤ b.instant

/-- When the run ends, counted in 64 bits. An instant that has passed already ends it at once. -/
def endInstant (s : Scenario) : Nat :=
  ((s.ordered.getLast?.map (·.instant)).getD 0 + s.settle) % UInt64.size

end Scenario

/-- The engine's tuning from the settings. -/
def OrchestratorSettings.engineConfig (s : OrchestratorSettings) : EngineConfig :=
  ⟨s.queueCapacity, s.stopDebounceMs, s.bindAnswerToPipeline⟩

namespace Machine

/-- One account is changed; there must be one. -/
def onAccount (m : Machine) (user : UserId) (f : Account → Account) : Except UserId Machine :=
  match m.store.find? user with
  | some ref => .ok { m with store := m.store.modify ref f }
  | none => .error user

/-- A step is taken. It may name an account that there is not. -/
def take (m : Machine) : ScenarioStep → Except UserId Machine
  | .session s => .ok { m with store := m.store.setSession (.ok s) }
  | .failSession message => .ok { m with store := m.store.setSession (.error (.storage message)) }
  | .selfUser user => m.onAccount user.id fun a => { a with selfUser := user }
  | .valid user valid => m.onAccount user fun a => { a with valid }
  | .list name user calls => m.onAccount user fun a => a.setList name (.ok calls)
  | .failEstablished user message =>
    m.onAccount user fun a => a.setList .established (.error (.storage message))
  | .answerBehavior user establishes delay fail =>
    m.onAccount user fun a =>
      { a with
        answerEstablishes := establishes
        answerDelay := delay
        answerFailure := fail.map .internal }
  | .command action =>
    let m := if m.service.isSome then m else m.newService.onCreate
    match m.service with
    | some s => .ok (m.onStartCommand s action).2
    | none => .ok m
  | .destroy =>
    match m.service with
    | some s => .ok (m.onDestroy s).dropService
    | none => .ok m

/-- The steps are taken at their instants, up to the first that names an account that there is not.
Nobody has a turn between steps of one instant. -/
def takeAll (m : Machine) : List TimedStep → Machine × Option UserId
  | [] => (m, none)
  | t :: rest =>
    let m := m.moveTo t.instant
    match m.take t.step with
    | .ok m => m.enroll.takeAll rest
    | .error user => (m, some user)

/-- The service is destroyed, the engine told to end, and everybody goes on until then. -/
def close (m : Machine) : Machine :=
  let m := match m.service with
    | some s => (m.onDestroy s).dropService
    | none => m
  m.shutdown.settle

end Machine

namespace Scenario

/-- The machine at the start of a scenario. -/
def machine (s : Scenario) (config : EngineConfig) : Machine :=
  let m := Machine.new config .engine
  let m := { m with store := s.accounts.foldl Store.register m.store }
  { m with engine := { m.engine with controller := .listening } }

/-- The machine after the scenario, and the user without an account whose step ended it. -/
def run (s : Scenario) (config : EngineConfig) : Machine × Option UserId :=
  match (s.machine config).takeAll s.ordered with
  | (m, some user) => (m, some user)
  | (m, none) => ((m.moveTo s.endInstant).close, none)

/-- The wording of a step that names an account that there is not. -/
def unknownAccount (user : UserId) : String :=
  "scenario refers to unknown account " ++ user.display

/-- A line about what the host was told; the instant is counted in 64 bits. -/
def line (told : Nat × HostEvent) : Json :=
  let time := Json.nat (told.1 % UInt64.size)
  match told.2 with
  | .placeholder => .object [("event", .string "placeholder"), ("at_ms", time)]
  | .update data => .object [("event", .string "update"), ("at_ms", time), ("data", data.toJson)]
  | .stop cause =>
    .object [("event", .string "stop"), ("at_ms", time), ("reason", .string cause.message)]

end Scenario

end CallWatch
