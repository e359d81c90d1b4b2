import NebLite.Store

/-! `RideNotificationService`. -/

namespace NebLite

def dispatchNotification (target : NotificationTarget) (targetId : Id) (event : String) (ride : Ride)
    (message : String) (extras : NotificationExtras) : Service Unit :=
  call (.emit
    { target, targetId, event, rideId := ride.id, riderId := ride.riderId, driverId := ride.driverId,
      status := ride.status, message, extras })

def notifyRideMatched (ride : Ride) : Service Unit :=
  dispatchNotification .rider ride.riderId "ride.candidates.invited" ride
    "awaiting driver responses" .none

def notifyRideOffered (ride : Ride) (candidate : RideDriverCandidate) (route : RouteEstimates) :
    Service Unit :=
  dispatchNotification .driver candidate.driverId "ride.offer" ride "New ride requested near you"
    (.offer candidate route)

def notifyDriverAccepted (ride : Ride) (candidate : RideDriverCandidate) : Service Unit :=
  dispatchNotification .rider ride.riderId "ride.driver.accepted" ride
    s!"Driver {candidate.driverId} accepted ride {ride.id}" (.candidate candidate)

def notifyDriverDeclined (ride : Ride) (candidate : RideDriverCandidate) : Service Unit :=
  dispatchNotification .rider ride.riderId "ride.driver.declined" ride
    s!"Driver {candidate.driverId} declined ride {ride.id}" (.candidate candidate)

def notifyRiderConfirmed (ride : Ride) (candidate : RideDriverCandidate) : Service Unit :=
  match ride.driverId with
  | none => pure ()
  | some driverId =>
    dispatchNotification .driver driverId "ride.rider.confirmed" ride
      s!"Rider {ride.riderId} confirmed ride {ride.id}" (.candidate candidate)

/-- The colon and reason that end a message when a reason is given. -/
def reasonSuffix (reason : Option String) : String :=
  if truthy reason then ": " ++ reason.getD "" else ""

def notifyRiderRejectedDriver (ride : Ride) (candidate : RideDriverCandidate)
    (reason : Option String) : Service Unit :=
  dispatchNotification .driver candidate.driverId "ride.rider.rejected" ride
    (s!"Rider {ride.riderId} rejected ride {ride.id}" ++ reasonSuffix reason)
    (.rejection candidate reason)

def notifyCandidateSuperseded (ride : Ride) (candidate : RideDriverCandidate) : Service Unit :=
  dispatchNotification .driver candidate.driverId "ride.driver.not_selected" ride
    s!"Ride {ride.id} is no longer available" (.candidate candidate)

def notifyRideCanceledForCandidate (ride : Ride) (candidate : RideDriverCandidate)
    (reason : Option String) : Service Unit :=
  dispatchNotification .driver candidate.driverId "ride.cancelled" ride
    (s!"Ride {ride.id} was cancelled by rider {ride.riderId}" ++ reasonSuffix reason)
    (.cancellation candidate reason)

/-- The rider is told, and the driver when there is one. -/
def notifyBoth (ride : Ride) (riderEvent driverEvent riderMessage driverMessage : String)
    (extras : NotificationExtras) : Service Unit :=
  match ride.driverId with
  | none => dispatchNotification .rider ride.riderId riderEvent ride riderMessage extras
  | some driverId => do
    dispatchNotification .rider ride.riderId riderEvent ride riderMessage extras
    dispatchNotification .driver driverId driverEvent ride driverMessage extras

def notifyRideStarted (ride : Ride) : Service Unit :=
  notifyBoth ride "ride.started.rider" "ride.started.driver" s!"Ride {ride.id} has started."
    s!"Ride {ride.id} is now in progress." .none

def notifyRideCompleted (ride : Ride) (summary : FareSummary) : Service Unit :=
  notifyBoth ride "ride.completed.rider" "ride.completed.driver"
    s!"Ride {ride.id} completed. Fare due: Rp {toFixedText summary.finalFare}."
    s!"Ride {ride.id} completed. Fare: Rp {toFixedText summary.finalFare}." (.summary summary)

def notifyRidePaid (ride : Ride) (paymentReference : Option String) : Service Unit :=
  notifyBoth ride "ride.payment.completed.rider" "ride.payment.completed.driver"
    s!"Payment for ride {ride.id} confirmed." s!"Ride {ride.id} payment has been received."
    (if truthy paymentReference then .payment paymentReference else .none)

end NebLite
