import NebLite.Atomic.Program
import NebLite.Store

/-! The columns of `rides` as `RideRepository` reads and writes them: the SELECT and its row
mapper, the merge of two entities, and the parameters of the UPDATE. What PostgreSQL and its
driver do to a value is a parameter. -/

namespace NebLite

open Atomic

/-- The columns of `rides`, in the order of the SELECT. -/
inductive RideColumn where
  | id
  | rider_id
  | driver_id
  | pickup_lon
  | pickup_lat
  | dropoff_lon
  | dropoff_lat
  | status
  | fare_estimated
  | fare_final
  | discount_percent
  | discount_amount
  | app_fee_amount
  | distance_estimated_km
  | duration_estimated_seconds
  | distance_actual_km
  | payment_url
  | payment_status
  | note
  | cancel_reason
  | created_at
  | updated_at
  | deleted_at
  deriving DecidableEq

/-- The properties of a `Ride`. -/
inductive RideProperty where
  | id
  | riderId
  | driverId
  | pickupLongitude
  | pickupLatitude
  | dropoffLongitude
  | dropoffLatitude
  | status
  | fareEstimated
  | fareFinal
  | discountPercent
  | discountAmount
  | appFeeAmount
  | distanceEstimatedKm
  | durationEstimatedSeconds
  | distanceActualKm
  | paymentUrl
  | paymentStatus
  | note
  | cancelReason
  | createdAt
  | updatedAt
  | deletedAt
  deriving DecidableEq

/-- The column that the entity names for a property. -/
def RideProperty.column : RideProperty → RideColumn
  | id => .id
  | riderId => .rider_id
  | driverId => .driver_id
  | pickupLongitude => .pickup_lon
  | pickupLatitude => .pickup_lat
  | dropoffLongitude => .dropoff_lon
  | dropoffLatitude => .dropoff_lat
  | status => .status
  | fareEstimated => .fare_estimated
  | fareFinal => .fare_final
  | discountPercent => .discount_percent
  | discountAmount => .discount_amount
  | appFeeAmount => .app_fee_amount
  | distanceEstimatedKm => .distance_estimated_km
  | durationEstimatedSeconds => .duration_estimated_seconds
  | distanceActualKm => .distance_actual_km
  | paymentUrl => .payment_url
  | paymentStatus => .payment_status
  | note => .note
  | cancelReason => .cancel_reason
  | createdAt => .created_at
  | updatedAt => .updated_at
  | deletedAt => .deleted_at

/-- The property that has a column. -/
def RideColumn.property : RideColumn → RideProperty
  | id => .id
  | rider_id => .riderId
  | driver_id => .driverId
  | pickup_lon => .pickupLongitude
  | pickup_lat => .pickupLatitude
  | dropoff_lon => .dropoffLongitude
  | dropoff_lat => .dropoffLatitude
  | status => .status
  | fare_estimated => .fareEstimated
  | fare_final => .fareFinal
  | discount_percent => .discountPercent
  | discount_amount => .discountAmount
  | app_fee_amount => .appFeeAmount
  | distance_estimated_km => .distanceEstimatedKm
  | duration_estimated_seconds => .durationEstimatedSeconds
  | distance_actual_km => .distanceActualKm
  | payment_url => .paymentUrl
  | payment_status => .paymentStatus
  | note => .note
  | cancel_reason => .cancelReason
  | created_at => .createdAt
  | updated_at => .updatedAt
  | deleted_at => .deletedAt

theorem RideProperty.property_column (p : RideProperty) : p.column.property = p := by cases p <;> rfl

theorem RideColumn.column_property (column : RideColumn) : column.property.column = column := by cases column <;> rfl

/-- The nineteen properties that `updateRide` writes. -/
def RideProperty.updatable : RideProperty → Bool
  | id | createdAt | updatedAt | deletedAt => false
  | _ => true

def RideColumn.nullable : RideColumn → Bool
  | id | rider_id | pickup_lon | pickup_lat | dropoff_lon | dropoff_lat | status | created_at | updated_at => false
  | _ => true

/-- A JavaScript value that a query takes or hands out, with numbers of the type `N`. -/
inductive RowValue (N : Type) where
  | undefined
  | null
  | string (s : String)
  | number (n : N)
  | date (t : Time)
  deriving DecidableEq

/-- The conversions of the language. -/
structure JsConversions (N : Type) where
  number : String → N
  text : N → String
  truthy : N → Bool
  dateText : Time → String
  dateNumber : Time → N
  parseDate : String → Time
  dateOf : N → Time

namespace RowValue

variable {N : Type} (js : JsConversions N)

/-- `value ?? other`. -/
def coalesce (value other : RowValue N) : RowValue N :=
  match value with
  | undefined | null => other
  | value => value

/-- `value?.toString?.()`. -/
def toString? : RowValue N → RowValue N
  | undefined | null => undefined
  | string s => string s
  | number n => string (js.text n)
  | date t => string (js.dateText t)

/-- `value !== undefined && value !== null ? Number(value) : other`. -/
def numberOr (value other : RowValue N) : RowValue N :=
  match value with
  | undefined | null => other
  | string s => number (js.number s)
  | number n => number n
  | date t => number (js.dateNumber t)

/-- `value ? new Date(value) : other`. -/
def dateOr (value other : RowValue N) : RowValue N :=
  match value with
  | undefined | null => other
  | string s => if s = "" then other else date (js.parseDate s)
  | number n => if js.truthy n then date (js.dateOf n) else other
  | date t => date t

def truthy : RowValue N → Bool
  | undefined | null => false
  | string s => s != ""
  | number n => js.truthy n
  | date _ => true

/-- A result in which `undefined` counts as `null`. -/
def orNull (value : RowValue N) : RowValue N := value.coalesce null

end RowValue

def ERideStatus.text : ERideStatus → String
  | nystart => "ny_start"
  | requested => "requested"
  | candidatesComputed => "candidates_computed"
  | assigned => "assigned"
  | accepted => "accepted"
  | enroute => "enroute"
  | tripStarted => "trip_started"
  | completed => "completed"
  | canceled => "canceled"

/-- `Object.values(ERideStatus)`. -/
def rideStatuses : List ERideStatus :=
  [.nystart, .requested, .candidatesComputed, .assigned, .accepted, .enroute, .tripStarted, .completed, .canceled]

/-- A row of a result: a column has its own name as a key, or is named as the property. -/
structure RowObject (N : Type) where
  column : RideColumn → RowValue N
  property : RideProperty → RowValue N

/-- A `Ride` as a JavaScript object; a property that is missing is `undefined`. -/
abbrev RideObject (N : Type) := RideProperty → RowValue N

namespace RideRepository

variable {N : Type} (js : JsConversions N)

/-- The texts that are compared with are ASCII, where `toLower` does what `toLowerCase` does. -/
def normalizeStatus (status : RowValue N) : RowValue N :=
  match status.toString? js with
  | .string s =>
    let normalized := s.toLower
    if normalized ≠ "" ∧ normalized ∈ rideStatuses.map (·.text) then .string normalized else .null
  | _ => .null

theorem normalizeStatus_text (status : ERideStatus) :
    normalizeStatus js (.string status.text) = .string status.text := by
  have hlower : status.text.toLower = status.text := by
    show status.text.map Char.toLower = status.text
    refine String.toList_inj.mp ?_
    rw [String.toList_map]
    cases status <;> (simp only [ERideStatus.text]; rw [String.toList_ofList]; decide)
  have hmem : status.text ∈ rideStatuses.map (·.text) := by cases status <;> decide
  have hne : status.text ≠ "" := by cases status <;> decide
  simp only [normalizeStatus, RowValue.toString?, hlower]
  rw [if_pos ⟨hne, hmem⟩]

/-- What the fresh `Ride` has of a property is `undefined`. -/
def mapRideRow (row : RowObject N) : RideObject N
  | .id => ((row.column .id).toString? js).coalesce ((row.column .id).coalesce .undefined)
  | .riderId =>
    ((row.column .rider_id).toString? js).coalesce (((row.property .riderId).toString? js).coalesce .undefined)
  | .driverId =>
    ((row.column .driver_id).toString? js).coalesce (((row.property .driverId).toString? js).coalesce .null)
  | .pickupLongitude =>
    (row.column .pickup_lon).numberOr js ((row.property .pickupLongitude).numberOr js .undefined)
  | .pickupLatitude =>
    (row.column .pickup_lat).numberOr js ((row.property .pickupLatitude).numberOr js .undefined)
  | .dropoffLongitude =>
    (row.column .dropoff_lon).numberOr js ((row.property .dropoffLongitude).numberOr js .undefined)
  | .dropoffLatitude =>
    (row.column .dropoff_lat).numberOr js ((row.property .dropoffLatitude).numberOr js .undefined)
  | .status =>
    (normalizeStatus js ((row.column .status).coalesce .undefined)).coalesce
      (RowValue.undefined.coalesce (.string ERideStatus.requested.text))
  | .fareEstimated => (row.column .fare_estimated).coalesce ((row.property .fareEstimated).coalesce .undefined)
  | .fareFinal => (row.column .fare_final).coalesce ((row.property .fareFinal).coalesce .undefined)
  | .discountPercent =>
    (row.column .discount_percent).numberOr js ((row.property .discountPercent).numberOr js .null)
  | .discountAmount => (row.column .discount_amount).coalesce ((row.property .discountAmount).coalesce .undefined)
  | .appFeeAmount => (row.column .app_fee_amount).coalesce ((row.property .appFeeAmount).coalesce .undefined)
  | .distanceEstimatedKm =>
    (row.column .distance_estimated_km).numberOr js ((row.property .distanceEstimatedKm).numberOr js .null)
  | .durationEstimatedSeconds =>
    (row.column .duration_estimated_seconds).numberOr js
      ((row.property .durationEstimatedSeconds).numberOr js .null)
  | .distanceActualKm =>
    (row.column .distance_actual_km).numberOr js ((row.property .distanceActualKm).numberOr js .null)
  | .paymentUrl => (row.column .payment_url).coalesce ((row.property .paymentUrl).coalesce .null)
  | .paymentStatus => (row.column .payment_status).coalesce ((row.property .paymentStatus).coalesce .null)
  | .note => (row.column .note).coalesce (RowValue.undefined.coalesce .null)
  | .cancelReason => (row.column .cancel_reason).coalesce ((row.property .cancelReason).coalesce .null)
  | .createdAt => (row.column .created_at).dateOr js ((row.property .createdAt).dateOr js .undefined)
  | .updatedAt => (row.column .updated_at).dateOr js ((row.property .updatedAt).dateOr js .undefined)
  | .deletedAt => (row.column .deleted_at).dateOr js ((row.property .deletedAt).dateOr js .null)

/-- The keys of `changes` that are not `undefined` are copied over. -/
def mergeRideData (current changes : RideObject N) : RideObject N :=
  fun key =>
    match changes key with
    | .undefined => current key
    | value => value

def extractRideParams (ride : RideObject N) : List (RowValue N) :=
  [ride .riderId,
    (ride .driverId).coalesce .null,
    ride .pickupLongitude,
    ride .pickupLatitude,
    ride .dropoffLongitude,
    ride .dropoffLatitude,
    ride .status,
    (ride .fareEstimated).coalesce .null,
    (ride .fareFinal).coalesce .null,
    (ride .discountPercent).coalesce .null,
    (ride .discountAmount).coalesce .null,
    (ride .appFeeAmount).coalesce .null,
    (ride .distanceEstimatedKm).coalesce .null,
    (ride .durationEstimatedSeconds).coalesce .null,
    (ride .distanceActualKm).coalesce .null,
    (ride .paymentUrl).coalesce .null,
    (ride .paymentStatus).coalesce .null,
    (ride .note).coalesce .null,
    (ride .cancelReason).coalesce .null]

/-- The assignments `column = $n` of the UPDATE. -/
def assignments : List (RideColumn × ℕ) :=
  [(.rider_id, 2), (.driver_id, 3), (.pickup_lon, 4), (.pickup_lat, 5), (.dropoff_lon, 6), (.dropoff_lat, 7),
    (.status, 8), (.fare_estimated, 9), (.fare_final, 10), (.discount_percent, 11), (.discount_amount, 12),
    (.app_fee_amount, 13), (.distance_estimated_km, 14), (.duration_estimated_seconds, 15),
    (.distance_actual_km, 16), (.payment_url, 17), (.payment_status, 18), (.note, 19), (.cancel_reason, 20)]

end RideRepository

/-- A query of `findById`, or the UPDATE of `updateRide` with its parameters. -/
inductive RidesQuery (N : Type) where
  | findById (id : RowValue N)
  | updateRide (parameters : List (RowValue N))

/-- What TypeORM resolves the UPDATE to: the returned ids and their number. -/
abbrev UpdatedRides (N : Type) := List (RowValue N) × ℕ

/-- The length that the pair has as a JavaScript array. -/
def UpdatedRides.length {N : Type} (_ : UpdatedRides N) : ℕ := 2

abbrev RidesQuery.Answer {N : Type} : RidesQuery N → Type
  | findById _ => List (RowObject N)
  | updateRide _ => UpdatedRides N

abbrev RidesService (N α : Type) := Program (RidesQuery N) RidesQuery.Answer ServiceError α

namespace RideRepository

variable {N : Type} (js : JsConversions N)

def query (q : RidesQuery N) : RidesService N q.Answer := Program.perform q

def findById (id : RowValue N) : RidesService N (Option (RideObject N)) := do
  let rows ← query (.findById id)
  match rows with
  | [] => return none
  | row :: _ => return some (mapRideRow js row)

def updateRide (ride : RideObject N) : RidesService N (RideObject N) := do
  if !(ride .id).truthy js then
    throw (.error "Ride id is required for updates")
  let some current ← findById js (ride .id)
    | throw (.error "Ride not found while updating")
  let merged := mergeRideData current ride
  let rows ← query (.updateRide (merged .id :: extractRideParams merged))
  if UpdatedRides.length rows = 0 then
    throw (.error "Ride not found while updating")
  let some persisted ← findById js (merged .id)
    | throw (.error "Ride not found after update")
  return persisted

end RideRepository

end NebLite
