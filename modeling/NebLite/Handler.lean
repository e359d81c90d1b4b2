import NebLite.Store

/-! What each atomic call does to the store and what it answers. -/

namespace NebLite

open Atomic

namespace World

variable (w : World)

/-- `FOR UPDATE`, the two checks and the UPDATE of `RideRepository.claimDriver`
are one transaction under the row lock. -/
def claimDriver (rideId driverId : Id) : Except ServiceError Bool × World :=
  match w.rides.find rideId with
  | none => (.error (.error "Ride not found"), w)
  | some ride =>
    match ride.driverId with
    | some _ => (.error (.error "Ride already claimed"), w)
    | none =>
      (.ok (decide (0 < UpdateResult.length ([rideId], 1))),
        { w with rides := w.rides.put { ride with driverId := some driverId } })

/-- The UPDATE of `RideRepository.updateRide`. -/
def updateRideRow (merged : Ride) : UpdateResult × World :=
  match w.rides.find merged.id with
  | none => (([], 0), w)
  | some stored =>
    (([merged.id], 1), { w with rides := w.rides.put (stored.writeColumns merged) })

/-- The ride rows of a rider that are neither completed nor canceled; the
newest is the last. -/
def findUnfinishedRide (riderId : Id) : Option (Id × Id × ERideStatus) :=
  (w.rides.select fun r => r.riderId == riderId && r.status != .completed && r.status != .canceled)
    |>.getLast?.map fun r => (r.id, r.riderId, r.status)

def insertCandidate (rideId : Id) (now : Time) (driverId : Id) (distanceMeters : Option ℚ) :
    World × RideDriverCandidate :=
  let row (k : ℕ) : RideDriverCandidate :=
    { id := k, rideId, driverId, status := .invited, distanceMeters := distanceMeters.map mathRound,
      reason := none, respondedAt := none, createdAt := now }
  ({ w with candidates := w.candidates.insert row fun _ => rfl }, row w.candidates.nextKey)

/-- The candidate inserts of one transaction; a blank driver id is not a bigint. -/
def insertCandidates (rideId : Id) (now : Time) :
    World → List NearbyDriver → Except ServiceError (World × List RideDriverCandidate)
  | w, [] => .ok (w, [])
  | w, driver :: drivers =>
    match driver.driverId with
    | none => .error (.error "invalid input syntax for type bigint: \"\"")
    | some driverId =>
      let (w, candidate) := w.insertCandidate rideId now driverId driver.distanceMeters
      (insertCandidates rideId now w drivers).map fun (w, rest) => (w, candidate :: rest)

def newRide (attributes : RideInsertAttributes) (now : Time) (id : Id) : Ride where
  id := id
  riderId := attributes.riderId
  driverId := none
  pickupLongitude := attributes.pickup.longitude
  pickupLatitude := attributes.pickup.latitude
  dropoffLongitude := attributes.dropoff.longitude
  dropoffLatitude := attributes.dropoff.latitude
  status := attributes.status
  fareEstimated := attributes.fareEstimated
  fareFinal := none
  discountPercent := none
  discountAmount := none
  appFeeAmount := none
  distanceEstimatedKm := attributes.distanceEstimatedKm
  durationEstimatedSeconds := attributes.durationEstimatedSeconds
  distanceActualKm := none
  paymentUrl := none
  paymentStatus := none
  note := attributes.note
  cancelReason := none
  createdAt := now
  deletedAt := none

/-- The transaction of `RideRepository.createRideWithDetails`. -/
def insertRide (options : RideCreationOptions) :
    Except ServiceError (Id × List RideDriverCandidate) × World :=
  let rideId := w.rides.nextKey
  let inserted :=
    { w with rides := w.rides.insert (newRide options.ride options.now) fun _ => rfl }
  match insertCandidates rideId options.now inserted options.nearbyDrivers with
  | .error e => (.error e, w)
  | .ok (filled, candidates) =>
    (.ok (rideId, candidates),
      { filled with
        history := filled.history ++ options.historyEntries.map fun entry =>
          ⟨rideId, entry.fromStatus, entry.toStatus, entry.context⟩ })

def findCandidate (rideId driverId : Id) : Option RideDriverCandidate :=
  w.candidates.rows.find? fun c => c.rideId == rideId && c.driverId == driverId

def findCandidates (rideId : Id) : List RideDriverCandidate :=
  w.candidates.select fun c => c.rideId == rideId

/-- The UPDATE of `RideDriverCandidateRepository.updateCandidate`; the driver
and the creation time are not among its columns. -/
def saveCandidate (candidate : RideDriverCandidate) : World :=
  match w.candidates.find candidate.id with
  | none => w
  | some stored =>
    { w with
      candidates := w.candidates.put
        { candidate with id := stored.id, driverId := stored.driverId, createdAt := stored.createdAt } }

/-- The row as `RidePaymentRepository.findById` selects it. -/
def findPaymentRide (id : Id) : Option Ride :=
  (w.rides.find id).map fun r => { r with note := none, cancelReason := none, deletedAt := none }

def updatePaymentState (rideId : Id) (paymentStatus : Option ERidePaymentStatus)
    (paymentUrl : Option String) : UpdateResult × World :=
  match w.rides.find rideId with
  | none => (([], 0), w)
  | some stored =>
    (([rideId], 1), { w with rides := w.rides.put { stored with paymentStatus, paymentUrl } })

def findDetailByRide (rideId : Id) : Option RidePaymentDetail :=
  w.details.rows.find? fun d => d.rideId == rideId

def findDetailByOrder (orderId : OrderId) : Option RidePaymentDetail :=
  w.details.rows.find? fun d => d.orderId == some orderId

/-- `persistDetail`: the insert, or the update on a conflict of `ride_id`. -/
def persistDetail (detail : RidePaymentDetail) : RidePaymentDetail × World :=
  match w.findDetailByRide detail.rideId with
  | some stored =>
    ({ detail with id := stored.id },
      { w with details := w.details.put { detail with id := stored.id } })
  | none =>
    ({ detail with id := w.details.nextKey },
      { w with details := w.details.insert (fun k => { detail with id := k }) fun _ => rfl })

def applyRideUpdate (update : RidePaymentUpdate) : World :=
  (w.updatePaymentState update.rideId update.paymentStatus update.paymentUrl).2

def applyOutboxUpdate (update : OutboxUpdate) (now : Time) : World :=
  let matching (o : PaymentOutbox) : Bool :=
    o.orderId == update.orderId && (update.rideId.all fun id => o.rideId == id) &&
      (update.paymentDetailId.all fun id => o.paymentDetailId == id)
  let set (o : PaymentOutbox) : PaymentOutbox :=
    { o with
      status := update.status
      lastError := update.lastError
      processedAt := if update.setProcessedAt then some now else o.processedAt }
  { w with outbox := w.outbox.update matching set fun _ => rfl }

/-- The transaction of `saveDetailWithRideUpdate`. Both checks of the returned
rows look at the length of the pair of rows and count, so neither ever fails. -/
def saveDetailWithRideUpdate (detail : RidePaymentDetail) (rideUpdate : Option RidePaymentUpdate)
    (outboxUpdate : Option OutboxUpdate) (now : Time) : RidePaymentDetail × World :=
  let (saved, w₁) := w.persistDetail detail
  let w₂ := match rideUpdate with
    | none => w₁
    | some update => w₁.applyRideUpdate update
  let w₃ := match outboxUpdate with
    | none => w₂
    | some update => w₂.applyOutboxUpdate update now
  (saved, w₃)

/-- The transaction of `saveDetailAndOutbox`. -/
def saveDetailAndOutbox (detail : RidePaymentDetail) (input : OutboxInput) :
    (RidePaymentDetail × PaymentOutbox) × World :=
  let (saved, w₁) := w.persistDetail detail
  let row (k : ℕ) : PaymentOutbox :=
    { id := k, rideId := saved.rideId, paymentDetailId := saved.id, orderId := input.orderId,
      status := input.status, attempts := 0, jobId := none, requestPayload := input.requestPayload,
      lastError := none, lastAttemptedAt := none, processedAt := none }
  ((saved, row w₁.outbox.nextKey),
    { w₁ with outbox := w₁.outbox.insert row fun _ => rfl })

def saveOutbox (outbox : PaymentOutbox) : World :=
  let merge (stored : PaymentOutbox) : PaymentOutbox :=
    { outbox with
      id := stored.id
      rideId := stored.rideId
      paymentDetailId := stored.paymentDetailId
      orderId := stored.orderId }
  { w with outbox := w.outbox.upsert outbox merge fun _ => rfl }

/-- `Queue.add`: a job id that exists already is not added again. -/
def addPaymentJob (outboxId : Id) (jobId : String) : World :=
  { w with paymentJobs := w.paymentJobs.upsert ⟨outboxId, jobId, .waiting, 0⟩ id fun _ => rfl }

/-- `Job.waitUntilFinished`; a job that has not ended when the wait is over
counts as timed out. -/
def waitPaymentJob (outboxId : Id) : Except ServiceError Unit :=
  match w.paymentJobs.find outboxId with
  | some job =>
    match job.state with
    | .completed => .ok ()
    | .failed => .error (.error "Job failed")
    | _ => .error (.error "Job wait timed out before finishing")
  | none => .error (.error "Missing key for job")

/-- A worker takes a waiting job. -/
def takePaymentJob (outboxId : Id) : Option Id × World :=
  match w.paymentJobs.find outboxId with
  | some job =>
    if job.state = .waiting then
      (some outboxId,
        { w with
          paymentJobs := w.paymentJobs.put
            { job with state := .active, attemptsMade := job.attemptsMade + 1 } })
    else (none, w)
  | none => (none, w)

/-- The worker's processor has ended; a failed job waits again until its
attempts are used up. -/
def finishPaymentJob (outboxId : Id) (succeeded : Bool) : World :=
  match w.paymentJobs.find outboxId with
  | some job =>
    let state : JobState :=
      if succeeded then .completed
      else if job.attemptsMade < PAYMENT_QUEUE_ATTEMPTS then .waiting else .failed
    { w with paymentJobs := w.paymentJobs.put { job with state } }
  | none => w

end World

def handle (env : Environment) : Handler Call Call.Answer ServiceError World
  | .findRide id, w => (.ok (w.rides.find id), w)
  | .updateRideRow merged, w => ((w.updateRideRow merged).map .ok id)
  | .claimDriver rideId driverId, w => w.claimDriver rideId driverId
  | .findUnfinishedRide riderId, w => (.ok (w.findUnfinishedRide riderId), w)
  | .insertRide options, w => w.insertRide options
  | .findCandidate rideId driverId, w => (.ok (w.findCandidate rideId driverId), w)
  | .findCandidates rideId, w => (.ok (w.findCandidates rideId), w)
  | .saveCandidate candidate, w => (.ok (), w.saveCandidate candidate)
  | .saveHistory entry, w => (.ok (), { w with history := w.history ++ [entry] })
  | .removeRouteJob _, w => (.ok (), w)
  | .requestRoute _ _, w => (env.route w.answered, { w with answered := w.answered + 1 })
  | .nearbyDrivers _ _, w => (env.nearbyDrivers w.answered, { w with answered := w.answered + 1 })
  | .emit n, w => (.ok (), { w with notifications := w.notifications ++ [n] })
  | .getTripState rideId, w => (.ok (w.tripStates rideId), w)
  | .setTripState rideId state, w =>
    (.ok (), { w with tripStates := Function.update w.tripStates rideId (some state) })
  | .addActiveRide rideId, w =>
    (.ok (), { w with activeRides := if rideId ∈ w.activeRides then w.activeRides else w.activeRides ++ [rideId] })
  | .pushTripEvent rideId event, w =>
    (.ok (), { w with tripEvents := Function.update w.tripEvents rideId (w.tripEvents rideId ++ [event]) })
  | .expireTripEvents _, w => (.ok (), w)
  | .geodist origin destination, w =>
    (.ok (env.geo w.answered origin destination), { w with answered := w.answered + 1 })
  | .enqueueFlushRide rideId, w =>
    (.ok (), { w with flushJobs := if rideId ∈ w.flushJobs then w.flushJobs else w.flushJobs ++ [rideId] })
  | .findPaymentRide id, w => (.ok (w.findPaymentRide id), w)
  | .updatePaymentState rideId paymentStatus paymentUrl, w =>
    ((w.updatePaymentState rideId paymentStatus paymentUrl).map .ok id)
  | .findDetailByRide rideId, w => (.ok (w.findDetailByRide rideId), w)
  | .findDetail id, w => (.ok (w.details.find id), w)
  | .findDetailByOrder orderId, w => (.ok (w.findDetailByOrder orderId), w)
  | .saveDetail detail, w => ((w.persistDetail detail).map .ok id)
  | .saveDetailWithRideUpdate detail rideUpdate outboxUpdate now, w =>
    ((w.saveDetailWithRideUpdate detail rideUpdate outboxUpdate now).map .ok id)
  | .saveDetailAndOutbox detail outbox, w => ((w.saveDetailAndOutbox detail outbox).map .ok id)
  | .findOutbox id, w => (.ok (w.outbox.find id), w)
  | .saveOutbox outbox, w => (.ok (), w.saveOutbox outbox)
  | .isIpAllowed addresses, w =>
    (.ok (w.whitelist.any fun ip => ip ∈ addresses.filter fun a => !a.isEmpty), w)
  | .addPaymentJob outboxId jobId, w => (.ok jobId, w.addPaymentJob outboxId jobId)
  | .waitPaymentJob outboxId, w => (w.waitPaymentJob outboxId, w)
  | .takePaymentJob outboxId, w => ((w.takePaymentJob outboxId).map .ok id)
  | .finishPaymentJob outboxId succeeded, w => (.ok (), w.finishPaymentJob outboxId succeeded)
  | .post payload, w =>
    (.ok (env.gateway w.answered payload),
      { w with posts := w.posts ++ [payload], answered := w.answered + 1 })
  | .generateOrderId, w => (.ok w.nextOrderId, { w with nextOrderId := w.nextOrderId + 1 })

end NebLite
