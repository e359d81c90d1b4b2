import NebLite.Rides.Management

/-! `TripTrackingService`, as far as the ride operations call it, and
`RidesTrackingService`. -/

namespace NebLite

def getState (rideId : Id) : Service TripTrackState := do
  let payload ← call (.getTripState rideId)
  return payload.getD (TripTrackState.initial rideId)

def calculateDistanceBetweenCoordinates (origin destination : Coordinate) : Service ℚ := do
  let reply ← call (.geodist origin destination)
  return reply.distance

def TripTrackState.lastLocation (state : TripTrackState) : EClientType → Option ParticipantLocation
  | .driver => state.lastDriverLocation
  | .rider => state.lastRiderLocation

/-- How far the driver has moved; a rider's movement is not measured. -/
def driverDistance (state : TripTrackState) (role : EClientType) (location : ParticipantLocation) :
    Service ℚ :=
  match role, state.lastDriverLocation with
  | .driver, some previous =>
    calculateDistanceBetweenCoordinates previous.coordinate location.coordinate
  | _, _ => pure 0

def recordLocation (rideId clientId : Id) (role : EClientType) (location : ParticipantLocation) :
    Service (ℚ × ℚ) := do
  let state ← getState rideId
  let distanceDelta ← driverDistance state role location
  let totalDistance :=
    if role = .driver then state.totalDistanceMeters + distanceDelta else state.totalDistanceMeters
  call (.setTripState rideId
    { state with
      totalDistanceMeters := totalDistance
      lastDriverLocation := if role = .driver then some location else state.lastDriverLocation
      lastRiderLocation := if role = .rider then some location else state.lastRiderLocation })
  call (.addActiveRide rideId)
  call (.pushTripEvent rideId
    { role, clientId
      longitude := location.coordinate.longitude
      latitude := location.coordinate.latitude
      recordedAt := location.recordedAt
      accuracyMeters := location.accuracyMeters
      distanceDeltaMeters := distanceDelta
      totalDistanceMeters := totalDistance })
  call (.expireTripEvents rideId)
  return (totalDistance, distanceDelta)

def getLatestLocation (rideId : Id) (role : EClientType) : Service (Option ParticipantLocation) := do
  let state ← getState rideId
  return state.lastLocation role

def getTotalDistanceMeters (rideId : Id) : Service ℚ := do
  let state ← getState rideId
  return state.totalDistanceMeters

def markRideCompleted (rideId : Id) : Service Unit := do
  let state ← getState rideId
  if ¬ state.completed then
    call (.setTripState rideId { state with completed := true })
    call (.enqueueFlushRide rideId)

def ensureLocationWithinRadius (location target : Coordinate) (radiusMeters : ℚ)
    (errorMessage : String) : Service Unit := do
  let distance ← calculateDistanceBetweenCoordinates location target
  if radiusMeters < distance then
    throw (.badRequest errorMessage)

def ensureParticipantsAreNearby (first second : Coordinate) (radiusMeters : ℚ)
    (errorMessage : String) : Service Unit := do
  let distance ← calculateDistanceBetweenCoordinates first second
  if radiusMeters < distance then
    throw (.badRequest errorMessage)

def Ride.pickup (r : Ride) : Coordinate := ⟨r.pickupLongitude, r.pickupLatitude⟩

def Ride.dropoff (r : Ride) : Coordinate := ⟨r.dropoffLongitude, r.dropoffLatitude⟩

variable (env : Environment)

/-- The location checks of `startRide`. -/
def ensureAtPickup (ride : Ride) (driverLocation : ParticipantLocation) : Service Unit := do
  let some riderLocation ← getLatestLocation ride.id .rider
    | throw (.badRequest
        "Rider location not available. Please wait for rider to share location.")
  ensureLocationWithinRadius driverLocation.coordinate ride.pickup env.tripStartProximityMeters
    "Driver must be at pickup location to start the trip."
  ensureLocationWithinRadius riderLocation.coordinate ride.pickup env.tripStartProximityMeters
    "Rider is not at pickup location. Please confirm rider arrival."
  ensureParticipantsAreNearby driverLocation.coordinate riderLocation.coordinate
    env.tripStartProximityMeters
    "Driver and rider must be at the same pickup point to start the trip."

def startRide (rideId : Id) (driverId : Option Id) (driverLocation : ParticipantLocation) :
    Service Ride := do
  let some driverId := driverId
    | throw (.badRequest "Driver id is required to start a ride")
  let some ride ← findById rideId
    | throw (.notFound "Ride not found")
  if ride.driverId ≠ some driverId then
    throw (.notFound "Ride not found")
  if ride.status = .canceled then
    throw (.badRequest "Cancelled ride cannot be started")
  if ride.status = .completed then
    throw (.badRequest "Completed ride cannot be started")
  if ride.status ∉ [ERideStatus.enroute, .tripStarted] then
    throw (.badRequest "Ride is not ready to start")
  ensureAtPickup env ride driverLocation
  let _ ← recordLocation ride.id driverId .driver driverLocation
  let (updated, changed) ← transitionRideStatus ride.id [.enroute, .tripStarted] .tripStarted
    (some "Driver started the trip")
  let refreshed ← findById updated.id
  let current := refreshed.getD updated
  if changed then
    notifyRideStarted current
  return current

def recordTripLocation (rideId : Id) (requester : RequestingClient)
    (location : ParticipantLocation) : Service Unit := do
  let some requesterId := requester.id
    | throw (.badRequest "Requester identifier is required")
  let some ride ← findById rideId
    | throw (.notFound "Ride not found")
  ensureRequesterCanAccessRide ride requester
  if ride.status = .canceled then
    throw (.badRequest "Cancelled ride cannot be tracked")
  if ride.status = .completed then
    throw (.badRequest "Completed ride cannot be tracked")
  match requester.role with
  | none => throw (.badRequest "Client role required")
  | some .driver =>
    if ride.driverId ≠ some requesterId then
      throw (.notFound "Ride not found")
    let _ ← recordLocation ride.id requesterId .driver location
  | some .rider =>
    let _ ← recordLocation ride.id ride.riderId .rider location

/-- The ride as `completeRide` writes it back with its fare. -/
def withFare (updated : Ride) (fare : FareCalculationResult) : Ride :=
  { updated with
    distanceActualKm := some fare.roundedDistanceKm
    discountPercent := some fare.discountPercent
    discountAmount := some (toFixed 2 fare.discountAmount)
    fareFinal := some (toFixed 2 fare.finalFare)
    appFeeAmount := some (toFixed 2 fare.appFeeAmount)
    paymentStatus := some .pending
    paymentUrl := none }

/-- The distance that is billed: the tracked one, or without it the estimate. -/
def billedDistanceKm (ride : Ride) (totalDistanceMeters : ℚ) : ℚ :=
  if totalDistanceMeters / 1000 ≤ 0 then
    (ride.distanceActualKm.or ride.distanceEstimatedKm).getD 0
  else totalDistanceMeters / 1000

/-- The location checks of `completeRide`. -/
def ensureAtDropoff (ride : Ride) (driverLocation : ParticipantLocation) : Service Unit := do
  let some riderLocation ← getLatestLocation ride.id .rider
    | throw (.badRequest "Unable to complete ride without rider location confirmation.")
  ensureLocationWithinRadius driverLocation.coordinate ride.dropoff
    env.tripCompletionProximityMeters
    "Driver must arrive at the destination to complete the ride."
  ensureLocationWithinRadius riderLocation.coordinate ride.dropoff
    env.tripCompletionProximityMeters "Rider location does not match destination."
  ensureParticipantsAreNearby driverLocation.coordinate riderLocation.coordinate
    env.tripCompletionProximityMeters
    "Driver and rider must be at the destination together to complete the ride."

/-- `completeRide` from the calculated fare on. -/
def settleRide (ride : Ride) (fare : FareCalculationResult) : Service Ride := do
  let (updated, _) ← transitionRideStatus ride.id [.enroute, .accepted, .assigned, .tripStarted]
    .completed (some "Driver marked the ride as completed")
  markRideCompleted ride.id
  let saved ← updateRide (withFare updated fare).changes
  let refreshed ← findById saved.id
  let refreshed := refreshed.getD saved
  notifyRideCompleted refreshed
    { baseFare := toFixed 2 fare.baseFare
      discountPercent := fare.discountPercent
      discountAmount := toFixed 2 fare.discountAmount
      finalFare := toFixed 2 fare.finalFare
      appFee := toFixed 2 fare.appFeeAmount }
  return refreshed

def completeRide (id : Id) (requester : RequestingClient) (driverLocation : ParticipantLocation)
    (discountAmount : Option JsNumber) : Service Ride := do
  let some requesterId := requester.id
    | throw (.badRequest "Requester identifier is required")
  let some ride ← findById id
    | throw (.notFound "Ride not found")
  if ride.driverId ≠ some requesterId then
    throw (.notFound "Ride not found")
  if ride.status = .canceled then
    throw (.badRequest "Cancelled ride cannot be completed")
  if ride.status = .completed then
    throw (.badRequest "Ride already completed")
  ensureAtDropoff env ride driverLocation
  let _ ← recordLocation ride.id requesterId .driver driverLocation
  let totalDistanceMeters ← getTotalDistanceMeters ride.id
  let fare ← Atomic.Program.ofExcept
    (env.fareEngine.calculateFare (billedDistanceKm ride totalDistanceMeters) discountAmount)
  settleRide ride fare

end NebLite
