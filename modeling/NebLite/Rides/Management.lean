import NebLite.Rides.Notifications

/-! `RideRepository`, `RideDriverCandidateRepository.saveMany` and
`RidesManagementService`. The clock reading of a call is its argument `now`. -/

namespace NebLite

open Atomic

def findById (id : Id) : Service (Option Ride) := call (.findRide id)

/-- The snapshot `changes` overrides the current row, column by column, and the
whole row is written. -/
def updateRide (changes : RideChanges) : Service Ride := do
  let some current ← findById changes.id
    | throw (.error "Ride not found while updating")
  let merged := mergeRideData current changes
  let rows ← call (.updateRideRow merged)
  if rows.length = 0 then
    throw (.error "Ride not found while updating")
  let some persisted ← findById merged.id
    | throw (.error "Ride not found after update")
  return persisted

def createRideWithDetails (options : RideCreationOptions) :
    Service (Ride × List RideDriverCandidate) := do
  let (rideId, candidates) ← call (.insertRide options)
  let some ride ← findById rideId
    | throw (.error "Failed to load ride after creation")
  return (ride, candidates)

def findByRideAndDriver (rideId driverId : Id) : Service (Option RideDriverCandidate) :=
  call (.findCandidate rideId driverId)

def saveCandidate (candidate : RideDriverCandidate) : Service Unit :=
  call (.saveCandidate candidate)

def saveMany (candidates : List RideDriverCandidate) : Service Unit :=
  candidates.forM saveCandidate

def recordStatusChange (rideId : Id) (fromStatus : Option ERideStatus) (toStatus : ERideStatus)
    (context : Option String) : Service Unit :=
  call (.saveHistory { rideId, fromStatus, toStatus, context })

/-- The entity that a transition writes back. -/
def withStatus (ride : Ride) (nextStatus : ERideStatus) (context : Option String) : Ride :=
  { ride with
    status := nextStatus
    cancelReason := if truthy context ∧ nextStatus = .canceled then context else ride.cancelReason }

def transitionRideStatus (rideId : Id) (allowedStatuses : List ERideStatus)
    (nextStatus : ERideStatus) (context : Option String) : Service (Ride × Bool) := do
  let some ride ← findById rideId
    | throw (.notFound "Ride not found")
  if ride.status ∉ allowedStatuses then
    return (ride, false)
  if ride.status = nextStatus then
    return (ride, false)
  let savedRide ← updateRide (withStatus ride nextStatus context).changes
  recordStatusChange savedRide.id (some ride.status) nextStatus context
  return (savedRide, true)

def maxDriverCandidateLimit : ℕ := 20

def resolveCandidateLimit (requested : Option ℕ) : ℕ :=
  match requested with
  | none => maxDriverCandidateLimit
  | some n => if n = 0 ∨ 50 < n then maxDriverCandidateLimit else n

def buildInitialHistoryEntries (invitedCount : ℕ) : List RideHistoryCreationInput :=
  [{ fromStatus := none, toStatus := .requested, context := some "Ride requested by rider" },
   { fromStatus := some .requested, toStatus := .candidatesComputed,
     context := some s!"Invited {invitedCount} drivers" }]

structure CreateRideInput where
  pickup : Coordinate
  dropoff : Coordinate
  note : Option String
  maxDrivers : Option ℕ

def noDriver : ServiceError := .error "unable to find driver, try again later"

/-- What the `catch` of `createRide` throws. -/
def rideCreationError : ServiceError → ServiceError
  | .badRequest message => .badRequest message
  | e => if e = noDriver then e else .internal "error when creating ride"

def createRideBody (env : Environment) (riderId : Id) (payload : CreateRideInput) (now : Time) :
    Service (Ride × List RideDriverCandidate) := do
  let routeEstimates ← call (.requestRoute payload.pickup payload.dropoff)
  let nearbyDrivers ← call (.nearbyDrivers payload.pickup (resolveCandidateLimit payload.maxDrivers))
  if nearbyDrivers.length = 0 then
    throw noDriver
  let (createdRide, candidates) ← createRideWithDetails
    { ride :=
        { riderId, pickup := payload.pickup, dropoff := payload.dropoff, note := payload.note,
          status := .candidatesComputed,
          fareEstimated := some (env.fareEngine.calculateEstimatedFare routeEstimates.distanceKm),
          distanceEstimatedKm := some routeEstimates.distanceKm,
          durationEstimatedSeconds := some routeEstimates.durationSeconds }
      nearbyDrivers
      historyEntries := buildInitialHistoryEntries nearbyDrivers.length
      now }
  candidates.forM fun candidate => notifyRideOffered createdRide candidate routeEstimates
  notifyRideMatched createdRide
  return (createdRide, candidates)

def createRide (env : Environment) (riderId : Option Id) (payload : CreateRideInput) (now : Time) :
    Service (Ride × List RideDriverCandidate) := do
  let some riderId := riderId
    | throw (.badRequest "Rider id is required to create a ride")
  let existingRide ← call (.findUnfinishedRide riderId)
  if existingRide.isSome then
    throw (.conflict "You already have an active ride. Please finish or cancel it before creating a new one.")
  (createRideBody env riderId payload now).catching fun e => throw (rideCreationError e)

def removePendingJobs (rideId : Id) : Service Unit := call (.removeRouteJob rideId)

def cancellationReason (reason : Option String) : String := reason.getD "Ride cancelled by rider"

/-- What a cancellation makes of one candidate row; `none` leaves it. -/
def canceledRow (reason : Option String) (now : Time) (candidate : RideDriverCandidate) :
    Option RideDriverCandidate :=
  if candidate.status ≠ .canceled then
    some { candidate with
      status := .canceled, reason := some (cancellationReason reason), respondedAt := some now }
  else none

/-- The ride as `cancelRide` writes it back. -/
def withCancellation (updated : Ride) (reason : Option String) : Ride :=
  { updated with
    cancelReason := if truthy reason then reason else updated.cancelReason
    fareFinal := some 0 }

def cancelRide (id : Id) (requester : RequestingClient) (reason : Option String) (now : Time) :
    Service Ride := do
  let some ride ← findById id
    | throw (.notFound "Ride not found")
  if some ride.riderId ≠ requester.id then
    throw (.notFound "Ride not found")
  if ride.status = .completed then
    throw (.badRequest "Completed ride cannot be cancelled")
  if ride.status = .canceled then
    return ride
  removePendingJobs ride.id
  -- whether the status changed is not looked at
  let (updated, _) ← transitionRideStatus ride.id
    [.requested, .candidatesComputed, .assigned, .accepted, .enroute] .canceled
    (some (cancellationReason reason))
  let updated := withCancellation updated reason
  let _ ← updateRide updated.changes
  let candidates ← call (.findCandidates updated.id)
  let toUpdate := candidates.filterMap (canceledRow reason now)
  if 0 < toUpdate.length then
    saveMany toUpdate
    toUpdate.forM fun candidate => notifyRideCanceledForCandidate updated candidate reason
  let refreshed ← findById updated.id
  return refreshed.getD updated

def markCandidateSuperseded (currentRide : Ride) (candidate : RideDriverCandidate) (now : Time) :
    Service Unit := do
  let candidate :=
    { candidate with
      status := .canceled
      reason := some "Another driver already accepted this ride"
      respondedAt := some now }
  saveCandidate candidate
  notifyCandidateSuperseded currentRide candidate

/-- The end of `acceptRideByDriver`, once the ride is the driver's. -/
def acceptClaimedRide (rideId : Id) (candidate : RideDriverCandidate) (now : Time) :
    Service Ride := do
  let candidate :=
    { candidate with
      status := ERideDriverCandidateStatus.accepted, reason := none, respondedAt := some now }
  saveCandidate candidate
  let (ride, _) ← transitionRideStatus rideId [.requested, .candidatesComputed] .assigned
    (some "Driver responded to invitation")
  let (accepted, _) ← transitionRideStatus ride.id [.assigned, .candidatesComputed] .accepted
    (some "Driver accepted ride request")
  notifyDriverAccepted accepted candidate
  let refreshed ← findById ride.id
  return refreshed.getD accepted

def acceptRideByDriver (rideId driverId : Id) (now : Time) : Service Ride := do
  let some ride ← findById rideId
    | throw (.notFound "Ride not found")
  if ride.status = .canceled then
    throw (.badRequest "Cancelled ride cannot be accepted")
  if ride.status = .completed then
    throw (.badRequest "Completed ride cannot be accepted")
  let some candidate ← findByRideAndDriver rideId driverId
    | throw (.notFound "Ride not available for this driver")
  if candidate.status = .canceled then
    throw (.conflict "Ride invitation is no longer active")
  if candidate.status = .declined then
    throw (.badRequest "Ride already declined by driver")
  if candidate.status = .confirmed ∨ (candidate.status = .accepted ∧ ride.driverId = some driverId ∧
      (ride.status = .accepted ∨ ride.status = .enroute)) then
    return ride
  match ride.driverId with
  | some holder =>
    if holder ≠ driverId then
      markCandidateSuperseded ride candidate now
      throw (.conflict "Ride already accepted by another driver")
    acceptClaimedRide ride.id candidate now
  | none =>
    let claimed ← call (.claimDriver ride.id driverId)
    if claimed then
      acceptClaimedRide ride.id candidate now
    else
      let refreshed ← findById ride.id
      let ride := refreshed.getD ride
      if ride.driverId.isSome ∧ ride.driverId ≠ some driverId then
        markCandidateSuperseded ride candidate now
        throw (.conflict "Ride already accepted by another driver")
      acceptClaimedRide ride.id candidate now

def rejectRideByDriver (rideId driverId : Id) (reason : Option String) (now : Time) :
    Service Ride := do
  let some ride ← findById rideId
    | throw (.notFound "Ride not found")
  if ride.status = .canceled then
    return ride
  if ride.status = .completed then
    throw (.badRequest "Completed ride cannot be declined")
  if ride.status = .enroute then
    throw (.badRequest "Ride already in progress")
  let some candidate ← findByRideAndDriver rideId driverId
    | throw (.notFound "Ride not available for this driver")
  if candidate.status = .declined then
    return ride
  if candidate.status = .canceled then
    return ride
  let rejectionReason := reason.getD "Driver declined the ride invitation"
  let candidate :=
    { candidate with status := .declined, reason := some rejectionReason, respondedAt := some now }
  saveCandidate candidate
  let ride ←
    if ride.driverId = some driverId then do
      let ride ← updateRide { ride with driverId := none }.changes
      let (reverted, _) ← transitionRideStatus ride.id [.accepted, .assigned] .candidatesComputed
        (some rejectionReason)
      pure reverted
    else pure ride
  notifyDriverDeclined ride candidate
  let refreshed ← findById ride.id
  return refreshed.getD ride

/-- What a confirmation of `driverId` makes of one candidate row; `none` leaves it. -/
def confirmedRow (driverId : Id) (now : Time) (entry : RideDriverCandidate) :
    Option RideDriverCandidate :=
  if entry.driverId = driverId then
    some { entry with status := .confirmed, respondedAt := some now, reason := none }
  else if entry.status = .invited ∨ entry.status = .accepted then
    some { entry with
      status := .canceled, respondedAt := some now
      reason := some "Ride confirmed with another driver" }
  else none

def confirmDriverAcceptance (rideId riderId : Id) (now : Time) : Service Ride := do
  let some ride ← findById rideId
    | throw (.notFound "Ride not found")
  if ride.riderId ≠ riderId then
    throw (.notFound "Ride not found")
  let some driverId := ride.driverId
    | throw (.badRequest "Ride does not have an assigned driver")
  if ride.status = .canceled then
    throw (.badRequest "Cancelled ride cannot be confirmed")
  if ride.status = .completed then
    return ride
  if ride.status = .assigned ∨ ride.status = .requested then
    throw (.badRequest "Driver has not accepted this ride yet")
  if ride.status = .enroute then
    return ride
  let some candidate ← findByRideAndDriver rideId driverId
    | throw (.conflict "Selected driver is no longer available")
  if candidate.status ≠ .accepted then
    throw (.badRequest "Driver has not confirmed availability")
  let (updatedRide, _) ← transitionRideStatus ride.id [.accepted] .enroute
    (some "Rider accepted driver confirmation")
  let candidates ← call (.findCandidates rideId)
  let toUpdate := candidates.filterMap (confirmedRow driverId now)
  saveMany toUpdate
  notifyRiderConfirmed updatedRide candidate
  (toUpdate.filter fun c => c.driverId ≠ driverId).forM (notifyCandidateSuperseded updatedRide)
  let refreshed ← findById updatedRide.id
  return refreshed.getD updatedRide

def rejectDriverAcceptance (rideId riderId : Id) (reason : Option String) (now : Time) :
    Service Ride := do
  let some ride ← findById rideId
    | throw (.notFound "Ride not found")
  if ride.riderId ≠ riderId then
    throw (.notFound "Ride not found")
  let some driverId := ride.driverId
    | throw (.badRequest "Ride does not have an assigned driver")
  if ride.status = .canceled then
    return ride
  if ride.status = .completed then
    throw (.badRequest "Completed ride cannot be rejected")
  if ride.status = .enroute then
    throw (.badRequest "Ride already in progress")
  if ride.status = .assigned ∨ ride.status = .requested then
    throw (.badRequest "Driver has not accepted this ride yet")
  let some candidate ← findByRideAndDriver rideId driverId
    | throw (.conflict "Driver invitation is no longer active")
  let rejectionReason := reason.getD "Rider rejected the driver acceptance"
  let candidate :=
    { candidate with status := .canceled, reason := some rejectionReason, respondedAt := some now }
  saveCandidate candidate
  let _ ← updateRide { ride with driverId := none }.changes
  let (reverted, _) ← transitionRideStatus ride.id [.accepted, .assigned] .candidatesComputed
    (some rejectionReason)
  notifyRiderRejectedDriver reverted candidate reason
  let refreshed ← findById reverted.id
  return refreshed.getD reverted

def ensureRequesterCanAccessRide (ride : Ride) (requester : RequestingClient) : Service Unit := do
  let some id := requester.id
    | throw (.badRequest "Requester identifier is required")
  match requester.role with
  | none => pure ()
  | some .rider => if ride.riderId ≠ id then throw (.notFound "Ride not found")
  | some .driver => if ride.driverId ≠ some id then throw (.notFound "Ride not found")

def getRideById (id : Id) (requester : RequestingClient) : Service Ride := do
  let some ride ← findById id
    | throw (.notFound "Ride not found")
  ensureRequesterCanAccessRide ride requester
  return ride

end NebLite
