import NebLite.Atomic.Interleaving
import NebLite.Rides.FareEngine
import NebLite.Rides.TripState
import NebLite.Payment.Entities

/-! The shared state of the service and its atomic calls: one SQL statement or
one transaction of a repository, one Redis command, one queue or bus operation. -/

namespace NebLite

open Atomic

inductive NotificationTarget where
  | rider
  | driver
  deriving DecidableEq, Repr

/-- The fare summary sent with a completed ride. -/
structure FareSummary where
  baseFare : ℚ
  discountPercent : ℚ
  discountAmount : ℚ
  finalFare : ℚ
  appFee : ℚ
  deriving DecidableEq

inductive NotificationExtras where
  | none
  | candidate (c : RideDriverCandidate)
  | offer (c : RideDriverCandidate) (route : RouteEstimates)
  | rejection (c : RideDriverCandidate) (rejectionReason : Option String)
  | cancellation (c : RideDriverCandidate) (cancellationReason : Option String)
  | summary (s : FareSummary)
  | payment (paymentReference : Option String)
  deriving DecidableEq

structure Notification where
  target : NotificationTarget
  targetId : Id
  event : String
  rideId : Id
  riderId : Id
  driverId : Option Id
  status : ERideStatus
  message : String
  extras : NotificationExtras
  deriving DecidableEq

/-- The columns that the insert of a new ride sets. -/
structure RideInsertAttributes where
  riderId : Id
  pickup : Coordinate
  dropoff : Coordinate
  status : ERideStatus
  fareEstimated : Option ℚ
  distanceEstimatedKm : Option ℚ
  durationEstimatedSeconds : Option ℤ
  note : Option String

structure RideHistoryCreationInput where
  fromStatus : Option ERideStatus
  toStatus : ERideStatus
  context : Option String

structure RideCreationOptions where
  ride : RideInsertAttributes
  nearbyDrivers : List NearbyDriver
  historyEntries : List RideHistoryCreationInput
  now : Time

structure OutboxInput where
  orderId : OrderId
  requestPayload : PaymentRequestPayload
  status : PaymentOutboxStatus

structure RidePaymentUpdate where
  rideId : Id
  paymentStatus : Option ERidePaymentStatus
  paymentUrl : Option String

structure OutboxUpdate where
  rideId : Option Id
  paymentDetailId : Option Id
  orderId : OrderId
  status : PaymentOutboxStatus
  lastError : Option String
  setProcessedAt : Bool

/-- Configuration, and the answers of what lies outside the service; the
number is the count of earlier answers from outside. -/
structure Environment where
  fareEngine : FareEngine
  tripStartProximityMeters : ℚ
  tripCompletionProximityMeters : ℚ
  paymentApiUrl : Option String
  paymentApiKey : Option String
  paymentProvider : String
  route : ℕ → Except ServiceError RouteEstimates
  nearbyDrivers : ℕ → Except ServiceError (List NearbyDriver)
  geo : ℕ → Coordinate → Coordinate → GeoReply
  gateway : ℕ → PaymentRequestPayload → GatewayReply

structure World where
  rides : Table Ride
  candidates : Table RideDriverCandidate
  history : List RideStatusHistory
  details : Table RidePaymentDetail
  outbox : Table PaymentOutbox
  whitelist : List String
  paymentJobs : Table PaymentJob
  tripStates : Id → Option TripTrackState
  tripEvents : Id → List TrackEvent
  activeRides : List Id
  flushJobs : List Id
  notifications : List Notification
  posts : List PaymentRequestPayload
  answered : ℕ
  nextOrderId : OrderId

def World.initial (whitelist : List String) : World where
  rides := .empty
  candidates := .empty
  history := []
  details := .empty
  outbox := .empty
  whitelist := whitelist
  paymentJobs := .empty
  tripStates := fun _ => none
  tripEvents := fun _ => []
  activeRides := []
  flushJobs := []
  notifications := []
  posts := []
  answered := 0
  nextOrderId := 0

inductive Call where
  | findRide (id : Id)
  | updateRideRow (merged : Ride)
  | claimDriver (rideId driverId : Id)
  | findUnfinishedRide (riderId : Id)
  | insertRide (options : RideCreationOptions)
  | findCandidate (rideId driverId : Id)
  | findCandidates (rideId : Id)
  | saveCandidate (candidate : RideDriverCandidate)
  | saveHistory (entry : RideStatusHistory)
  | removeRouteJob (rideId : Id)
  | requestRoute (pickup dropoff : Coordinate)
  | nearbyDrivers (centre : Coordinate) (limit : ℕ)
  | emit (notification : Notification)
  | getTripState (rideId : Id)
  | setTripState (rideId : Id) (state : TripTrackState)
  | addActiveRide (rideId : Id)
  | pushTripEvent (rideId : Id) (event : TrackEvent)
  | expireTripEvents (rideId : Id)
  | geodist (origin destination : Coordinate)
  | enqueueFlushRide (rideId : Id)
  | findPaymentRide (id : Id)
  | updatePaymentState (rideId : Id) (paymentStatus : Option ERidePaymentStatus)
      (paymentUrl : Option String)
  | findDetailByRide (rideId : Id)
  | findDetail (id : Id)
  | findDetailByOrder (orderId : OrderId)
  | saveDetail (detail : RidePaymentDetail)
  | saveDetailWithRideUpdate (detail : RidePaymentDetail) (rideUpdate : Option RidePaymentUpdate)
      (outboxUpdate : Option OutboxUpdate) (now : Time)
  | saveDetailAndOutbox (detail : RidePaymentDetail) (outbox : OutboxInput)
  | findOutbox (id : Id)
  | saveOutbox (outbox : PaymentOutbox)
  | isIpAllowed (addresses : List String)
  | addPaymentJob (outboxId : Id) (jobId : String)
  | waitPaymentJob (outboxId : Id)
  | takePaymentJob (outboxId : Id)
  | finishPaymentJob (outboxId : Id) (succeeded : Bool)
  | post (payload : PaymentRequestPayload)
  | generateOrderId

/-- What TypeORM resolves an UPDATE to: the returned rows and their number. -/
abbrev UpdateResult := List Id × ℕ

/-- The length that the pair of rows and count has as a JavaScript array. -/
def UpdateResult.length (_ : UpdateResult) : ℕ := 2

abbrev Call.Answer : Call → Type
  | findRide _ => Option Ride
  | updateRideRow _ => UpdateResult
  | claimDriver _ _ => Bool
  | findUnfinishedRide _ => Option (Id × Id × ERideStatus)
  | insertRide _ => Id × List RideDriverCandidate
  | findCandidate _ _ => Option RideDriverCandidate
  | findCandidates _ => List RideDriverCandidate
  | saveCandidate _ => Unit
  | saveHistory _ => Unit
  | removeRouteJob _ => Unit
  | requestRoute _ _ => RouteEstimates
  | nearbyDrivers _ _ => List NearbyDriver
  | emit _ => Unit
  | getTripState _ => Option TripTrackState
  | setTripState _ _ => Unit
  | addActiveRide _ => Unit
  | pushTripEvent _ _ => Unit
  | expireTripEvents _ => Unit
  | geodist _ _ => GeoReply
  | enqueueFlushRide _ => Unit
  | findPaymentRide _ => Option Ride
  | updatePaymentState _ _ _ => UpdateResult
  | findDetailByRide _ => Option RidePaymentDetail
  | findDetail _ => Option RidePaymentDetail
  | findDetailByOrder _ => Option RidePaymentDetail
  | saveDetail _ => RidePaymentDetail
  | saveDetailWithRideUpdate _ _ _ _ => RidePaymentDetail
  | saveDetailAndOutbox _ _ => RidePaymentDetail × PaymentOutbox
  | findOutbox _ => Option PaymentOutbox
  | saveOutbox _ => Unit
  | isIpAllowed _ => Bool
  | addPaymentJob _ _ => String
  | waitPaymentJob _ => Unit
  | takePaymentJob _ => Option Id
  | finishPaymentJob _ _ => Unit
  | post _ => GatewayReply
  | generateOrderId => OrderId

/-- A method of a service: a program of atomic calls. -/
abbrev Service (α : Type) := Program Call Call.Answer ServiceError α

def call (c : Call) : Service c.Answer := .perform c

end NebLite
