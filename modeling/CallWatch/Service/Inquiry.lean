import CallWatch.Service.Machine

/-! # Asking directly

A lookup or an attempt to answer that is waited for, while the clock moves on and everybody else
goes on as well. One that takes longer than patience allows is left alone. -/

namespace CallWatch.Machine

/-- How long an answer is waited for, in milliseconds. -/
def patience : Nat := 3600000

/-- The clock moves to the end of a wait, or to the limit of patience if that comes first. The
result says whether the wait is over. -/
def await (m : Machine) (limit : Nat) (wait : Wait) : Machine × Bool :=
  if wait.isOver m.now then (m, true)
  else
    match wait.due? with
    | some t => if t ≤ limit then (m.moveTo t, true) else (m.moveTo limit, false)
    | none => (m.moveTo limit, false)

/-- A lookup goes on to its end, in as many steps as the first argument allows. -/
def finishLookup (limit : Nat) : Nat → Machine → Step Lookup LookupResult →
    Machine × Option LookupResult
  | _, m, .done result => (m.log (Lookup.warnings [] result), some result)
  | 0, m, .on _ => (m, none)
  | steps + 1, m, .on lookup =>
    match m.await limit lookup.wait with
    | (m, true) => finishLookup limit steps m (lookup.step m.surroundings)
    | (m, false) => (m, none)

/-- A lookup is begun and waited for. -/
def lookUp (m : Machine) (begin : Surroundings → Step Lookup LookupResult) :
    Machine × Option LookupResult :=
  finishLookup (m.now + patience) 3 m (begin m.surroundings)

/-- The account of a user is asked for and waited for. -/
def findScope (m : Machine) (user : UserId) : Machine × Option (Except CallError Scope) :=
  match m.surroundings.ask user .userScope with
  | .error e => (m, some (.error e))
  | .ok wait =>
    match m.await (m.now + patience) wait with
    | (m, true) => (m, some (m.surroundings.scope user))
    | (m, false) => (m, none)

/-- The calls of a session are set up, in as many steps as the second argument allows. -/
def finishGathering (limit : Nat) : Nat → Machine →
    Step Gathering (Except CallError (List CallSource)) →
    Machine × Option (Except CallError (List CallSource))
  | _, m, .done result => (m, some result)
  | 0, m, .on _ => (m, none)
  | steps + 1, m, .on g =>
    match m.await limit g.lookup.wait with
    | (m, true) =>
      let (next, events) := g.step m.surroundings []
      finishGathering limit steps (m.log events) next
    | (m, false) => (m, none)

/-- The calls of a session and an answer target are set up and waited for. -/
def gather (m : Machine) (user : UserId) (target : Option AnswerTarget) :
    Machine × Option (Except CallError (List CallSource)) :=
  let limit := m.now + patience
  match finishLookup limit 3 m (Lookup.ofSession m.surroundings user) with
  | (m, none) => (m, none)
  | (m, some (.error e)) => (m, some (.error e))
  | (m, some (.ok none)) => (m, none)
  | (m, some (.ok (some session))) =>
    finishGathering limit 3 m (Gathering.start m.surroundings session target)

/-- An attempt to answer goes on to its end, in as many steps as the second argument allows. -/
def finishAnswering (limit : Nat) : Nat → Machine → Answering → Machine × Option AnswerOutcome
  | 0, m, _ => (m, none)
  | steps + 1, m, a =>
    match a.outcome? with
    | some outcome => (m, some outcome)
    | none =>
      let go (m : Machine) : Machine × Option AnswerOutcome :=
        let (store, a, events) := a.step m.surroundings m.engine.holds
        finishAnswering limit steps ({ m with store }.log events).enroll a
      if a.isReady m.surroundings m.engine.holds then go m
      else
        match m.await limit (a.wait?.getD .forever) with
        | (m, true) => go m
        | (m, false) => (m, none)

/-- A call is answered and the outcome waited for. -/
def answerNow (m : Machine) (user : UserId) (conversation : ConversationId) :
    Machine × Option AnswerOutcome :=
  finishAnswering (m.now + patience) 8 m
    (.new m.engine.answerings.length user conversation false none)

/-- An attempt to answer is begun beside everything else. -/
def spawnAnswering (m : Machine) (user : UserId) (conversation : ConversationId) (bound : Bool) :
    Nat × Machine :=
  let number := m.engine.answerings.length
  (number, { m with
    engine := { m.engine with
      answerings := m.engine.answerings ++ [.new number user conversation bound none] } })

/-- An attempt to answer is cancelled. -/
def cancelAnswering (m : Machine) (number : Nat) : Machine :=
  { m with
    engine := { m.engine with
      answerings := m.engine.answerings.map fun a =>
        if a.number = number then { a with cancelled := true } else a } }

/-- The store itself answers a call of an account, after the delay that the account has. -/
def answerDirectly (m : Machine) (ref : AccountRef) (conversation : ConversationId) :
    Machine × Except CallError Unit :=
  let delay := ((m.store.account? ref).bind (·.answerDelay)).getD 0
  let m := m.moveTo (m.now + delay)
  match m.store.account? ref with
  | none => (m, .ok ())
  | some account =>
    let (result, account) := account.answer conversation
    ({ m with store := m.store.modify ref fun _ => account }, result)

end CallWatch.Machine
