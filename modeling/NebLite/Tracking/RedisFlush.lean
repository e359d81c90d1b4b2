import NebLite.Atomic.CallBound
import NebLite.Atomic.Separation
import NebLite.Rides.Entities

/-! `flushAll` over the keys of Redis as they are stored, one command or statement at a time. A payload
may not parse, a key may hold a value of another type, and any command may fail. -/

namespace NebLite

open Atomic

/-- What a key of Redis holds. -/
inductive RedisValue where
  | string (text : String)
  | list (elements : List String)
  | other

def wrongType : ServiceError := .error "WRONGTYPE Operation against a key holding the wrong kind of value"

/-- GET. -/
def RedisValue.get : Option RedisValue → Except ServiceError (Option String)
  | none => .ok none
  | some (string text) => .ok (some text)
  | some _ => .error wrongType

/-- LRANGE from 0 to -1. -/
def RedisValue.lrange : Option RedisValue → Except ServiceError (List String)
  | none => .ok []
  | some (list elements) => .ok elements
  | some _ => .error wrongType

/-- A parsed `TrackEvent`, whatever its properties are. -/
structure JsTrackEvent (V : Type) where
  role : V
  clientId : V
  longitude : V
  latitude : V
  recordedAt : V
  accuracyMeters : V
  distanceDeltaMeters : V
  totalDistanceMeters : V

/-- JavaScript values, and what the language does with the texts in Redis. A text from which no event
can be read is one that does not parse, or that parses to a value without properties. -/
structure TrackingJson (V : Type) where
  undefined : V
  null : V
  /-- `EClientType.DRIVER` -/
  driver : V
  event : String → Option (JsTrackEvent V)
  /-- `JSON.parse(payload).completed` -/
  completed : String → Option V
  truthy : V → Bool
  newDate : V → V
  isFinite : V → Bool

/-- The parameters of a row of `trip_track`. -/
structure TrackEntry (V : Type) where
  rideId : Id
  clientId : V
  clientRole : V
  longitude : V
  latitude : V
  distanceDeltaMeters : V
  totalDistanceMeters : V
  recordedAt : V

structure SummaryLocation (V : Type) where
  longitude : V
  latitude : V
  accuracyMeters : V
  recordedAt : V

/-- The parameters of a row of `trip_summary`. -/
structure SummaryEntry (V : Type) where
  rideId : Id
  clientId : V
  clientRole : V
  locationPayload : SummaryLocation V
  totalDistanceMeters : V

section Payloads

variable {V : Type} [DecidableEq V] (json : TrackingJson V)

/-- `value ?? null`. -/
def TrackingJson.orNull (value : V) : V := if value = json.undefined then json.null else value

def JsTrackEvent.entry (rideId : Id) (event : JsTrackEvent V) : TrackEntry V where
  rideId := rideId
  clientId := event.clientId
  clientRole := event.role
  longitude := event.longitude
  latitude := event.latitude
  distanceDeltaMeters := event.distanceDeltaMeters
  totalDistanceMeters := json.orNull event.totalDistanceMeters
  recordedAt := json.newDate event.recordedAt

def JsTrackEvent.summary (rideId : Id) (event : JsTrackEvent V) : SummaryEntry V where
  rideId := rideId
  clientId := event.clientId
  clientRole := event.role
  locationPayload := ⟨event.longitude, event.latitude, json.orNull event.accuracyMeters, event.recordedAt⟩
  totalDistanceMeters :=
    if event.role = json.driver then
      if json.isFinite event.totalDistanceMeters then event.totalDistanceMeters else json.null
    else json.null

/-- `parsed.completed ?? false`, where the state parses. -/
def TrackingJson.isCompleted (payload : String) : Bool :=
  match json.completed payload with
  | none => false
  | some value => if value = json.undefined ∨ value = json.null then false else json.truthy value

/-- `Map.set` by role, and likewise the upsert by ride and role. -/
def SummaryEntry.set (l : List (SummaryEntry V)) (s : SummaryEntry V) : List (SummaryEntry V) :=
  if l.any fun x => x.rideId == s.rideId && x.clientRole == s.clientRole then
    l.map fun x => if x.rideId = s.rideId ∧ x.clientRole = s.clientRole then s else x
  else l ++ [s]

end Payloads

inductive FlushCommand (V : Type) where
  | lrangeEvents
  | llenEvents
  | delEvents
  | getState
  | delState
  | sremActiveRide
  | connect
  | startTransaction
  | insertMany (entries : List (TrackEntry V))
  | upsertSummaries (summaries : List (SummaryEntry V))
  | commitTransaction
  | rollbackTransaction
  | release

abbrev FlushCommand.Answer {V : Type} : FlushCommand V → Type
  | lrangeEvents => List String
  | llenEvents => ℕ
  | getState => Option String
  | _ => Unit

/-- A command of the flush of a ride. -/
structure RideCommand (V : Type) where
  rideId : Id
  command : FlushCommand V

abbrev RideCommand.Answer {V : Type} (c : RideCommand V) : Type := c.command.Answer

abbrev FlushProgram (V α : Type) := Program (RideCommand V) RideCommand.Answer ServiceError α

inductive FlushTransaction (V : Type) where
  | none
  | running (entries : List (TrackEntry V)) (summaries : List (SummaryEntry V))
  | failed

def transactionAborted : ServiceError :=
  .error "current transaction is aborted, commands ignored until end of transaction block"

def statementFailed : ServiceError := .error "statement failed"

/-- What happens to a command: nothing, it is not executed, or its answer is lost. -/
inductive CommandFault where
  | none
  | refused
  | unanswered

/-- The keys of the rides, the set of the active ones, and the two tables. -/
structure TripData (V : Type) where
  state : Id → Option RedisValue
  events : Id → Option RedisValue
  active : List Id
  tracks : List (TrackEntry V)
  summaries : List (SummaryEntry V)

/-- With each flush's transaction, and how many commands it has sent. -/
structure FlushStore (V : Type) extends TripData V where
  transaction : Id → FlushTransaction V
  made : Id → ℕ

/-- No flush has begun. -/
def TripData.start {V : Type} (d : TripData V) : FlushStore V :=
  { d with transaction := fun _ => .none, made := fun _ => 0 }

/-- What belongs to one ride. -/
structure RideStore (V : Type) where
  state : Option RedisValue
  events : Option RedisValue
  active : Bool
  tracks : List (TrackEntry V)
  summaries : List (SummaryEntry V)
  transaction : FlushTransaction V
  made : ℕ

namespace FlushStore

variable {V : Type} (s : FlushStore V) (rideId : Id)

def ride : RideStore V where
  state := s.state rideId
  events := s.events rideId
  active := s.active.contains rideId
  tracks := s.tracks.filter (·.rideId = rideId)
  summaries := s.summaries.filter (·.rideId = rideId)
  transaction := s.transaction rideId
  made := s.made rideId

def setState (value : Option RedisValue) : FlushStore V := { s with state := Function.update s.state rideId value }

def setEvents (value : Option RedisValue) : FlushStore V := { s with events := Function.update s.events rideId value }

def deactivate : FlushStore V := { s with active := s.active.filter (· ≠ rideId) }

def setTransaction (transaction : FlushTransaction V) : FlushStore V :=
  { s with transaction := Function.update s.transaction rideId transaction }

def counted : FlushStore V := { s with made := Function.update s.made rideId (s.made rideId + 1) }

variable [DecidableEq V]

def addRows (entries : List (TrackEntry V)) (summaries : List (SummaryEntry V)) : FlushStore V :=
  { s with tracks := s.tracks ++ entries, summaries := summaries.foldl SummaryEntry.set s.summaries }

/-- A statement of the transaction; `takes` tells whether the database takes it. -/
def write (taken : Bool) (entries : List (TrackEntry V)) (summaries : List (SummaryEntry V)) :
    Except ServiceError Unit × FlushStore V :=
  match s.transaction rideId with
  | .failed => (.error transactionAborted, s)
  | .none => if taken then (.ok (), s.addRows entries summaries) else (.error statementFailed, s)
  | .running entries' summaries' =>
    if taken then (.ok (), s.setTransaction rideId (.running (entries' ++ entries) (summaries' ++ summaries)))
    else (.error statementFailed, s.setTransaction rideId .failed)

def commit : FlushStore V :=
  match s.transaction rideId with
  | .running entries summaries => (s.addRows entries summaries).setTransaction rideId .none
  | _ => s.setTransaction rideId .none

def perform (takes : FlushCommand V → Bool) : (c : FlushCommand V) → Except ServiceError c.Answer × FlushStore V
  | .lrangeEvents => (RedisValue.lrange (s.events rideId), s)
  | .llenEvents => ((RedisValue.lrange (s.events rideId)).map List.length, s)
  | .delEvents => (.ok (), s.setEvents rideId none)
  | .getState => (RedisValue.get (s.state rideId), s)
  | .delState => (.ok (), s.setState rideId none)
  | .sremActiveRide => (.ok (), s.deactivate rideId)
  | .connect => (.ok (), s)
  | .startTransaction => (.ok (), s.setTransaction rideId (.running [] []))
  | .insertMany entries => s.write rideId (takes (.insertMany entries)) entries []
  | .upsertSummaries summaries => s.write rideId (takes (.upsertSummaries summaries)) [] summaries
  | .commitTransaction => (.ok (), s.commit rideId)
  | .rollbackTransaction => (.ok (), s.setTransaction rideId .none)
  | .release => (.ok (), s.setTransaction rideId .none)

/-- A statement that fails aborts its transaction; the end of one ends it all the same. -/
def refuse : FlushCommand V → FlushStore V
  | .insertMany _ | .upsertSummaries _ =>
    match s.transaction rideId with
    | .none => s
    | _ => s.setTransaction rideId .failed
  | .commitTransaction | .rollbackTransaction | .release => s.setTransaction rideId .none
  | _ => s

end FlushStore

section Program

variable {V : Type} [DecidableEq V]

/-- `fault` tells what happens to the commands of each ride, by the number of those before. -/
def rideHandle (takes : FlushCommand V → Bool) (fault : Id → ℕ → CommandFault) :
    Handler (RideCommand V) RideCommand.Answer ServiceError (FlushStore V)
  | ⟨rideId, c⟩, s =>
    match fault rideId (s.made rideId) with
    | .none => (s.counted rideId).perform rideId takes c
    | .refused => (.error (.error "command failed"), (s.counted rideId).refuse rideId c)
    | .unanswered => (.error (.error "command timed out"), ((s.counted rideId).perform rideId takes c).2)

namespace RedisFlush

variable (json : TrackingJson V) (rideId : Id)

def send (c : FlushCommand V) : FlushProgram V c.Answer :=
  Program.perform (RideCommand.mk rideId c)

def persistFlush (entries : List (TrackEntry V)) (summaries : List (SummaryEntry V)) : FlushProgram V Unit :=
  if entries.isEmpty ∧ summaries.isEmpty then pure ()
  else
    (do
      send rideId .connect
      -- the transaction counts as active from here on
      Program.catching (do
          send rideId .startTransaction
          unless entries.isEmpty do
            send rideId (.insertMany entries)
          unless summaries.isEmpty do
            send rideId (.upsertSummaries summaries)
          send rideId .commitTransaction) fun e => do
        send rideId .rollbackTransaction
        throw e : FlushProgram V Unit).finalizing (send rideId .release)

/-- The three commands are sent at once, and the first that fails is the exception. -/
def cleanupRide : FlushProgram V Unit := do
  let state ← (send rideId .delState).attempt
  let events ← (send rideId .delEvents).attempt
  let active ← (send rideId .sremActiveRide).attempt
  Program.ofExcept state
  Program.ofExcept events
  Program.ofExcept active

/-- `getState`, of which a flush reads `completed`. -/
def getState : FlushProgram V Bool := do
  let payload ← send rideId .getState
  match payload with
  | none => return false
  | some text => return if text.isEmpty then false else json.isCompleted text

def flushRide : FlushProgram V Unit := do
  let eventPayloads ← send rideId .lrangeEvents
  if eventPayloads.isEmpty then
    let completed ← getState json rideId
    if completed then
      cleanupRide rideId
    return
  send rideId .delEvents
  -- a payload that cannot be read is only logged
  let events := eventPayloads.filterMap json.event
  persistFlush rideId (events.map (·.entry json rideId))
    ((events.map (·.summary json rideId)).foldl SummaryEntry.set [])
  let completed ← getState json rideId
  if completed then
    let remaining ← send rideId .llenEvents
    if remaining = 0 then
      cleanupRide rideId

/-- The failure of the flush is only logged. -/
def flushOne (rideIds : List Id) : FlushProgram V Unit :=
  if rideId ∈ rideIds then (flushRide json rideId).catching fun _ => pure ()
  else pure ()

/-- The flushes of `flushAll` side by side, once SMEMBERS has listed the active rides. -/
def flushAll (d : TripData V) : Pool Id (RideCommand V) RideCommand.Answer ServiceError Unit (FlushStore V) :=
  Pool.start (fun rideId => flushOne json rideId d.active) d.start

end RedisFlush

end Program

end NebLite
