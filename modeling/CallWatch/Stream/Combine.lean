import CallWatch.Failure
import CallWatch.Stream.Inbox

/-! # Combining lists of calls

Several streams of lists become one: as soon as every source had a list, and at every change from
then on, the latest lists are joined in the order of the sources. A source that ended keeps its last
list. The combination ends when all sources have ended, or when one ends without a list.

A look takes everything that is there from one source after the other. An error comes out at once,
and leaves what is behind it for the next look. -/

namespace CallWatch

/-- A list of candidates, or the failure of its source. -/
abbrev CallList := Except CallError (List Notification)

/-- A source with the list that it showed last. -/
structure Source where
  inbox : Inbox CallList
  ended : Bool
  latest : Option (List Notification)

namespace Source

/-- A source that was not looked at. -/
def fresh (inbox : Inbox CallList) : Source := ⟨inbox, false, none⟩

/-- The lists in front of the first failure, that failure, and what is behind it. -/
def splitFailure : List CallList → List (List Notification) × Option CallError × List CallList
  | [] => ([], none, [])
  | .error e :: rest => ([], some e, rest)
  | .ok l :: rest =>
    let (found, failure, behind) := splitFailure rest
    (l :: found, failure, behind)

/-- Whether a look at this source would find something. -/
def stirs (s : Source) : Bool := !s.ended && s.inbox.stirs

end Source

/-- What a look at the combination finds. -/
inductive Combined where
  | lists (all : List Notification)
  | failed (error : CallError)
  | ended
  | pending
  deriving DecidableEq, Repr

namespace Combined

/-- How far a look has come: whether a source changed, or the look is over already. -/
inductive Progress where
  | on (changed : Bool)
  | failed (error : CallError)
  | ended
  deriving DecidableEq, Repr

/-- Everything that is there is taken from one source. -/
def drain (changed : Bool) (s : Source) : Progress × Source :=
  if s.ended then (if s.latest.isNone then .ended else .on changed, s)
  else
    let (found, failure, behind) := Source.splitFailure s.inbox.ready
    let latest := found.getLast? <|> s.latest
    let taken : Source := ⟨{ s.inbox with ready := behind }, false, latest⟩
    match failure with
    | some e => (.failed e, taken)
    | none =>
      let taken := { taken with ended := s.inbox.closed }
      (if taken.ended && latest.isNone then .ended else .on (changed || !found.isEmpty), taken)

/-- The sources are drained in order until the look is over. -/
def drainAll (changed : Bool) : List Source → Progress × List Source
  | [] => (.on changed, [])
  | s :: rest =>
    match drain changed s with
    | (.on changed, s) =>
      let (progress, rest) := drainAll changed rest
      (progress, s :: rest)
    | (stopped, s) => (stopped, s :: rest)

/-- The latest lists in the order of the sources. -/
def joined (sources : List Source) : List Notification :=
  (sources.filterMap (·.latest)).flatten

/-- One look at the combination of the sources, and the sources afterwards. -/
def poll (sources : List Source) : Combined × List Source :=
  match drainAll false sources with
  | (.failed e, sources) => (.failed e, sources)
  | (.ended, sources) => (.ended, sources)
  | (.on changed, sources) =>
    if changed && sources.all (·.latest.isSome) then (.lists (joined sources), sources)
    else if sources.all (·.ended) then (.ended, sources)
    else (.pending, sources)

/-- Whether a look would find something new or the end. -/
def stirs (sources : List Source) : Bool :=
  sources.any (·.stirs) || sources.all (·.ended)
    || sources.any fun s => s.ended && s.latest.isNone

end Combined

end CallWatch
