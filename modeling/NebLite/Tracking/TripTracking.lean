import NebLite.Rides.Tracking
import NebLite.Handler
import NebLite.Atomic.Lift

/-! `TripTrackingService` with its flushes, one Redis command or one transaction
at a time. The calls of the ride operations are calls of this service too; the
queued events are kept with the number of their push, which no code reads. -/

namespace NebLite

open Atomic

/-- An event in the Redis list. -/
structure QueuedEvent where
  number : ℕ
  event : TrackEvent
  deriving DecidableEq

/-- A row of `trip_track`. -/
structure TripTrack where
  number : ℕ
  rideId : Id
  clientId : Id
  clientRole : EClientType
  longitude : ℚ
  latitude : ℚ
  distanceDeltaMeters : ℚ
  totalDistanceMeters : ℚ
  recordedAt : String
  deriving DecidableEq

/-- A row of `trip_summary`; ride and role are its key. -/
structure TripSummaryUpsert where
  rideId : Id
  clientId : Id
  clientRole : EClientType
  locationPayload : ParticipantLocation
  totalDistanceMeters : Option ℚ
  deriving DecidableEq

inductive TrackingCall where
  | service (c : Call)
  | lrangeEvents (rideId : Id)
  | llenEvents (rideId : Id)
  | delEvents (rideId : Id)
  | delState (rideId : Id)
  | sremActiveRide (rideId : Id)
  | smembersActiveRides
  | persistFlush (entries : List TripTrack) (summaries : List TripSummaryUpsert)

abbrev TrackingCall.Answer : TrackingCall → Type
  | service c => c.Answer
  | lrangeEvents _ => List QueuedEvent
  | llenEvents _ => ℕ
  | delEvents _ => Unit
  | delState _ => Unit
  | sremActiveRide _ => Unit
  | smembersActiveRides => List Id
  | persistFlush _ _ => Unit

abbrev TrackingService (α : Type) := Program TrackingCall TrackingCall.Answer ServiceError α

def trackingCall (c : TrackingCall) : TrackingService c.Answer := .perform c

/-- A program of the ride operations. -/
def Tracked {α : Type} (p : Service α) : TrackingService α := p.lift .service fun _ a => a

/-- The shared state, the events in Redis, every push that succeeded, and the two tables. -/
structure TrackingWorld where
  world : World
  queue : Id → List QueuedEvent
  pushes : List (Id × TrackEvent)
  tracks : List TripTrack
  summaries : List TripSummaryUpsert

/-- No event has been pushed yet. -/
def TrackingWorld.start (world : World) : TrackingWorld := ⟨world, fun _ => [], [], [], []⟩

/-- `Map.set` by role, and likewise the upsert by ride and role. -/
def setSummary (l : List TripSummaryUpsert) (s : TripSummaryUpsert) : List TripSummaryUpsert :=
  if l.any fun x => x.rideId == s.rideId && x.clientRole == s.clientRole then
    l.map fun x => if x.rideId = s.rideId ∧ x.clientRole = s.clientRole then s else x
  else l ++ [s]

def trackingHandle (env : Environment) :
    Handler TrackingCall TrackingCall.Answer ServiceError TrackingWorld
  | .service (.pushTripEvent rideId event), w =>
    (.ok (),
      { w with
        queue := Function.update w.queue rideId (w.queue rideId ++ [⟨w.pushes.length, event⟩])
        pushes := w.pushes ++ [(rideId, event)] })
  | .service c, w => ((handle env c w.world).1, { w with world := (handle env c w.world).2 })
  | .lrangeEvents rideId, w => (.ok (w.queue rideId), w)
  | .llenEvents rideId, w => (.ok (w.queue rideId).length, w)
  | .delEvents rideId, w => (.ok (), { w with queue := Function.update w.queue rideId [] })
  | .delState rideId, w =>
    (.ok (),
      { w with world := { w.world with tripStates := Function.update w.world.tripStates rideId none } })
  | .sremActiveRide rideId, w =>
    (.ok (), { w with world := { w.world with activeRides := w.world.activeRides.filter (· ≠ rideId) } })
  | .smembersActiveRides, w => (.ok w.world.activeRides, w)
  | .persistFlush entries summaries, w =>
    (.ok (),
      { w with tracks := w.tracks ++ entries, summaries := summaries.foldl setSummary w.summaries })

def cleanupRide (rideId : Id) : TrackingService Unit := do
  trackingCall (.delState rideId)
  trackingCall (.delEvents rideId)
  trackingCall (.sremActiveRide rideId)

def QueuedEvent.entry (rideId : Id) (q : QueuedEvent) : TripTrack where
  number := q.number
  rideId := rideId
  clientId := q.event.clientId
  clientRole := q.event.role
  longitude := q.event.longitude
  latitude := q.event.latitude
  distanceDeltaMeters := q.event.distanceDeltaMeters
  totalDistanceMeters := q.event.totalDistanceMeters
  recordedAt := q.event.recordedAt

def QueuedEvent.summary (rideId : Id) (q : QueuedEvent) : TripSummaryUpsert where
  rideId := rideId
  clientId := q.event.clientId
  clientRole := q.event.role
  locationPayload := ⟨⟨q.event.longitude, q.event.latitude⟩, q.event.accuracyMeters, q.event.recordedAt⟩
  totalDistanceMeters := if q.event.role = .driver then some q.event.totalDistanceMeters else none

def flushRide (rideId : Id) : TrackingService Unit := do
  let eventPayloads ← trackingCall (.lrangeEvents rideId)
  if eventPayloads.isEmpty then
    let state ← Tracked (getState rideId)
    if state.completed then
      cleanupRide rideId
    return
  trackingCall (.delEvents rideId)
  trackingCall (.persistFlush (eventPayloads.map (·.entry rideId))
    ((eventPayloads.map (·.summary rideId)).foldl setSummary []))
  let state ← Tracked (getState rideId)
  if state.completed then
    let remaining ← trackingCall (.llenEvents rideId)
    if remaining = 0 then
      cleanupRide rideId

/-- The part of `flushAll` that concerns one ride. The rides of a `flushAll` are
flushed side by side, and the failure of one is only logged. -/
def flushAllRide (rideId : Id) : TrackingService Unit := do
  let rideIds ← trackingCall .smembersActiveRides
  if rideId ∈ rideIds then
    (flushRide rideId).catching fun _ => pure ()

/-- A call of the service, or the expiry of a state key. -/
inductive TrackingOp where
  | recordLocation (rideId clientId : Id) (role : EClientType) (location : ParticipantLocation)
  | markRideCompleted (rideId : Id)
  | flushRide (rideId : Id)
  | flushAllRide (rideId : Id)
  | expireState (rideId : Id)

def TrackingOp.program : TrackingOp → TrackingService Unit
  | recordLocation rideId clientId role location =>
    Tracked (do let _ ← NebLite.recordLocation rideId clientId role location)
  | markRideCompleted rideId => Tracked (NebLite.markRideCompleted rideId)
  | flushRide rideId => NebLite.flushRide rideId
  | flushAllRide rideId => NebLite.flushAllRide rideId
  | expireState rideId => trackingCall (.delState rideId)

end NebLite
