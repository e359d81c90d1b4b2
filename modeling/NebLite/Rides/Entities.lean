import NebLite.Atomic.Table
import Mathlib.Data.Rat.Floor
import Mathlib.Algebra.Order.Floor.Ring

/-! The rows and entities of a ride. Identifiers are the serial keys of the
tables; numeric and double precision columns hold exact rationals. -/

namespace NebLite

open Atomic

abbrev Id := ℕ
abbrev Time := ℕ

/-- What a service call throws: the HTTP exceptions, and plain errors. -/
inductive ServiceError where
  | badRequest (message : String)
  | notFound (message : String)
  | conflict (message : String)
  | unauthorized (message : String)
  | internal (message : String)
  | error (message : String)
  deriving DecidableEq, Repr

inductive EClientType where
  | rider
  | driver
  deriving DecidableEq, Repr

inductive ERideStatus where
  | nystart
  | requested
  | candidatesComputed
  | assigned
  | accepted
  | enroute
  | tripStarted
  | completed
  | canceled
  deriving DecidableEq, Repr

inductive ERideDriverCandidateStatus where
  | invited
  | accepted
  | declined
  | confirmed
  | canceled
  deriving DecidableEq, Repr

inductive ERidePaymentStatus where
  | pending
  | onProcess
  | paid
  deriving DecidableEq, Repr

/-- A row of `rides`, and the entity read from it. In the entity an absent
`fareEstimated`, `fareFinal`, `discountAmount` or `appFeeAmount` is undefined,
every other absent column is null. -/
structure Ride where
  id : Id
  riderId : Id
  driverId : Option Id
  pickupLongitude : ℚ
  pickupLatitude : ℚ
  dropoffLongitude : ℚ
  dropoffLatitude : ℚ
  status : ERideStatus
  fareEstimated : Option ℚ
  fareFinal : Option ℚ
  discountPercent : Option ℚ
  discountAmount : Option ℚ
  appFeeAmount : Option ℚ
  distanceEstimatedKm : Option ℚ
  durationEstimatedSeconds : Option ℤ
  distanceActualKm : Option ℚ
  paymentUrl : Option String
  paymentStatus : Option ERidePaymentStatus
  note : Option String
  cancelReason : Option String
  createdAt : Time
  deletedAt : Option Time
  deriving DecidableEq

instance : Keyed Ride := ⟨Ride.id⟩

@[simp] theorem Ride.key_eq (r : Ride) : Keyed.key r = r.id := rfl

/-- A property of a JavaScript object that may be missing or null. -/
inductive JsField (α : Type) where
  | undefined
  | null
  | val (a : α)
  deriving DecidableEq

/-- `null` when the column is null. -/
def JsField.nullable {α : Type} : Option α → JsField α
  | none => .null
  | some a => .val a

/-- `undefined` when the column is null. -/
def JsField.optional {α : Type} : Option α → JsField α
  | none => .undefined
  | some a => .val a

/-- A property that is not undefined replaces the current value. -/
def JsField.over {α : Type} (p : JsField α) (current : Option α) : Option α :=
  match p with
  | .undefined => current
  | .null => none
  | .val a => some a

@[simp] theorem JsField.over_nullable {α : Type} (a c : Option α) :
    (JsField.nullable a).over c = a := by cases a <;> rfl

@[simp] theorem JsField.over_optional {α : Type} (a c : Option α) :
    (JsField.optional a).over c = a.or c := by cases a <;> rfl

/-- The argument of `updateRide`: a `Ride` some of whose properties may be
undefined. A column that is not nullable has only the undefined case. -/
structure RideChanges where
  id : Id
  riderId : Option Id
  driverId : JsField Id
  pickupLongitude : Option ℚ
  pickupLatitude : Option ℚ
  dropoffLongitude : Option ℚ
  dropoffLatitude : Option ℚ
  status : Option ERideStatus
  fareEstimated : JsField ℚ
  fareFinal : JsField ℚ
  discountPercent : JsField ℚ
  discountAmount : JsField ℚ
  appFeeAmount : JsField ℚ
  distanceEstimatedKm : JsField ℚ
  durationEstimatedSeconds : JsField ℤ
  distanceActualKm : JsField ℚ
  paymentUrl : JsField String
  paymentStatus : JsField ERidePaymentStatus
  note : JsField String
  cancelReason : JsField String

/-- A `Ride` built by `mapRideRow`, seen as the argument of `updateRide`. -/
def Ride.changes (r : Ride) : RideChanges where
  id := r.id
  riderId := some r.riderId
  driverId := .nullable r.driverId
  pickupLongitude := some r.pickupLongitude
  pickupLatitude := some r.pickupLatitude
  dropoffLongitude := some r.dropoffLongitude
  dropoffLatitude := some r.dropoffLatitude
  status := some r.status
  fareEstimated := .optional r.fareEstimated
  fareFinal := .optional r.fareFinal
  discountPercent := .nullable r.discountPercent
  discountAmount := .optional r.discountAmount
  appFeeAmount := .optional r.appFeeAmount
  distanceEstimatedKm := .nullable r.distanceEstimatedKm
  durationEstimatedSeconds := .nullable r.durationEstimatedSeconds
  distanceActualKm := .nullable r.distanceActualKm
  paymentUrl := .nullable r.paymentUrl
  paymentStatus := .nullable r.paymentStatus
  note := .nullable r.note
  cancelReason := .nullable r.cancelReason

/-- `RideRepository.mergeRideData`. -/
def mergeRideData (current : Ride) (changes : RideChanges) : Ride where
  id := changes.id
  riderId := changes.riderId.getD current.riderId
  driverId := changes.driverId.over current.driverId
  pickupLongitude := changes.pickupLongitude.getD current.pickupLongitude
  pickupLatitude := changes.pickupLatitude.getD current.pickupLatitude
  dropoffLongitude := changes.dropoffLongitude.getD current.dropoffLongitude
  dropoffLatitude := changes.dropoffLatitude.getD current.dropoffLatitude
  status := changes.status.getD current.status
  fareEstimated := changes.fareEstimated.over current.fareEstimated
  fareFinal := changes.fareFinal.over current.fareFinal
  discountPercent := changes.discountPercent.over current.discountPercent
  discountAmount := changes.discountAmount.over current.discountAmount
  appFeeAmount := changes.appFeeAmount.over current.appFeeAmount
  distanceEstimatedKm := changes.distanceEstimatedKm.over current.distanceEstimatedKm
  durationEstimatedSeconds := changes.durationEstimatedSeconds.over current.durationEstimatedSeconds
  distanceActualKm := changes.distanceActualKm.over current.distanceActualKm
  paymentUrl := changes.paymentUrl.over current.paymentUrl
  paymentStatus := changes.paymentStatus.over current.paymentStatus
  note := changes.note.over current.note
  cancelReason := changes.cancelReason.over current.cancelReason
  createdAt := current.createdAt
  deletedAt := current.deletedAt

/-- The row after the UPDATE of `updateRide`: the nineteen columns of
`extractRideParams` come from `merged`, the others stay. -/
def Ride.writeColumns (stored merged : Ride) : Ride :=
  { merged with id := stored.id, createdAt := stored.createdAt, deletedAt := stored.deletedAt }

section Merge

variable (current r : Ride)

@[simp] theorem merge_id : (mergeRideData current r.changes).id = r.id := rfl

@[simp] theorem merge_riderId : (mergeRideData current r.changes).riderId = r.riderId := rfl

@[simp] theorem merge_status : (mergeRideData current r.changes).status = r.status := rfl

@[simp] theorem merge_driverId : (mergeRideData current r.changes).driverId = r.driverId := by
  simp [mergeRideData, Ride.changes]

@[simp] theorem merge_paymentStatus :
    (mergeRideData current r.changes).paymentStatus = r.paymentStatus := by
  simp [mergeRideData, Ride.changes]

@[simp] theorem merge_paymentUrl : (mergeRideData current r.changes).paymentUrl = r.paymentUrl := by
  simp [mergeRideData, Ride.changes]

@[simp] theorem merge_cancelReason :
    (mergeRideData current r.changes).cancelReason = r.cancelReason := by
  simp [mergeRideData, Ride.changes]

@[simp] theorem merge_fareFinal :
    (mergeRideData current r.changes).fareFinal = r.fareFinal.or current.fareFinal := by
  simp [mergeRideData, Ride.changes]

@[simp] theorem merge_discountAmount :
    (mergeRideData current r.changes).discountAmount =
      r.discountAmount.or current.discountAmount := by
  simp [mergeRideData, Ride.changes]

@[simp] theorem merge_appFeeAmount :
    (mergeRideData current r.changes).appFeeAmount = r.appFeeAmount.or current.appFeeAmount := by
  simp [mergeRideData, Ride.changes]

@[simp] theorem merge_distanceActualKm :
    (mergeRideData current r.changes).distanceActualKm = r.distanceActualKm := by
  simp [mergeRideData, Ride.changes]

@[simp] theorem merge_discountPercent :
    (mergeRideData current r.changes).discountPercent = r.discountPercent := by
  simp [mergeRideData, Ride.changes]

/-- Writing a snapshot back unchanged is the identity on the row it was read from. -/
theorem merge_self : mergeRideData r r.changes = r := by
  cases r
  simp [mergeRideData, Ride.changes]

end Merge

structure RideDriverCandidate where
  id : Id
  rideId : Id
  driverId : Id
  status : ERideDriverCandidateStatus
  distanceMeters : Option ℤ
  reason : Option String
  respondedAt : Option Time
  createdAt : Time
  deriving DecidableEq

instance : Keyed RideDriverCandidate := ⟨RideDriverCandidate.id⟩

@[simp] theorem RideDriverCandidate.key_eq (c : RideDriverCandidate) : Keyed.key c = c.id := rfl

structure RideStatusHistory where
  rideId : Id
  fromStatus : Option ERideStatus
  toStatus : ERideStatus
  context : Option String
  deriving DecidableEq

/-- A driver found near a pickup point; a blank driver id is `none`. -/
structure NearbyDriver where
  driverId : Option Id
  distanceMeters : Option ℚ
  deriving DecidableEq

structure RouteEstimates where
  distanceKm : ℚ
  durationSeconds : ℤ
  deriving DecidableEq

/-- The caller of a ride operation; a missing identifier is `none`. -/
structure RequestingClient where
  id : Option Id
  role : Option EClientType
  deriving DecidableEq

/-- `Math.round`. -/
def mathRound (x : ℚ) : ℤ := ⌊x + 1 / 2⌋

/-- The number that `toFixed` prints: ties go to the larger magnitude. -/
def toFixed (digits : ℕ) (x : ℚ) : ℚ :=
  if x < 0 then -(⌊-x * 10 ^ digits + 1 / 2⌋ / 10 ^ digits) else ⌊x * 10 ^ digits + 1 / 2⌋ / 10 ^ digits

theorem floor_half : ⌊(1 / 2 : ℚ)⌋ = 0 := Int.floor_eq_zero_iff.mpr ⟨by norm_num, by norm_num⟩

theorem toFixed_zero (digits : ℕ) : toFixed digits 0 = 0 := by
  rw [toFixed, if_neg (lt_irrefl 0), zero_mul, zero_add, floor_half]
  simp

theorem mathRound_intCast (n : ℤ) : mathRound n = n := by
  rw [mathRound, Int.floor_intCast_add, floor_half, add_zero]

/-- What `toFixed` prints is not rounded again at the same place. -/
theorem mathRound_toFixed (digits : ℕ) (x : ℚ) :
    (mathRound (toFixed digits x * 10 ^ digits) : ℚ) / 10 ^ digits = toFixed digits x := by
  have hscale : (10 : ℚ) ^ digits ≠ 0 := by positivity
  have hround (n : ℤ) : (mathRound ((n : ℚ) / 10 ^ digits * 10 ^ digits) : ℚ) / 10 ^ digits = n / 10 ^ digits := by
    rw [div_mul_cancel₀ _ hscale, mathRound_intCast]
  unfold toFixed
  split
  · have hneg (n : ℤ) : -((n : ℚ) / 10 ^ digits) = ((-n : ℤ) : ℚ) / 10 ^ digits := by
      rw [Int.cast_neg, neg_div]
    rw [hneg]
    exact hround _
  · exact hround _

/-- The text of `toFixed(2)` for an amount that is not negative. -/
def toFixedText (x : ℚ) : String :=
  let cents := (mathRound (x * 100)).toNat
  let rest := toString (cents % 100)
  toString (cents / 100) ++ "." ++ (if cents % 100 < 10 then "0" ++ rest else rest)

/-- A string that JavaScript counts as true: present and not empty. -/
def truthy (s : Option String) : Bool :=
  match s with
  | none => false
  | some t => !t.isEmpty

end NebLite
