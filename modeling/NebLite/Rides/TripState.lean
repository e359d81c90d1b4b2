import NebLite.Rides.Entities

/-! What the trip tracking service keeps in Redis. -/

namespace NebLite

structure Coordinate where
  longitude : ℚ
  latitude : ℚ
  deriving DecidableEq

structure ParticipantLocation where
  coordinate : Coordinate
  accuracyMeters : Option ℚ
  recordedAt : String
  deriving DecidableEq

structure TripTrackState where
  rideId : Id
  lastDriverLocation : Option ParticipantLocation
  lastRiderLocation : Option ParticipantLocation
  totalDistanceMeters : ℚ
  completed : Bool
  deriving DecidableEq

/-- The state of a ride without a state key. -/
def TripTrackState.initial (rideId : Id) : TripTrackState :=
  ⟨rideId, none, none, 0, false⟩

structure TrackEvent where
  role : EClientType
  clientId : Id
  longitude : ℚ
  latitude : ℚ
  recordedAt : String
  accuracyMeters : Option ℚ
  distanceDeltaMeters : ℚ
  totalDistanceMeters : ℚ
  deriving DecidableEq

/-- The outcome of the distance pipeline. -/
inductive GeoReply where
  | meters (d : ℚ)
  | notANumber
  | commandError
  | noReply
  | thrown
  deriving DecidableEq

/-- `TripTrackingService.calculateDistanceMeters`, from the pipeline's outcome on. -/
def GeoReply.distance : GeoReply → ℚ
  | .meters d => d
  | _ => 0

end NebLite
