import NebLite.Rides.Entities

/-! The fare engine over exact rationals. -/

namespace NebLite

/-- The configured rate and fees. -/
structure FareEngine where
  fareRatePerKm : ℚ
  appFeePercent : ℚ
  appFeeMinimumAmount : ℚ
  appFeeMinimumThreshold : ℚ

/-- A JavaScript number; infinities and NaN are not finite. -/
inductive JsNumber where
  | finite (q : ℚ)
  | notFinite
  deriving DecidableEq

structure FareCalculationResult where
  roundedDistanceKm : ℚ
  baseFare : ℚ
  discountPercent : ℚ
  discountAmount : ℚ
  fareAfterDiscount : ℚ
  appFeeAmount : ℚ
  finalFare : ℚ
  deriving DecidableEq

def roundDistanceKm (distanceKm : ℚ) : ℚ := toFixed 3 distanceKm

def calculateMonetaryAmount (value : ℚ) : ℚ :=
  if value ≤ 0 then 0 else mathRound (value * 100) / 100

def resolveDiscountAmount (baseFare : ℚ) (discountAmount : Option JsNumber) :
    Except ServiceError ℚ :=
  if baseFare ≤ 0 then .ok 0
  else match discountAmount with
    | none => .ok 0
    | some .notFinite => .error (.badRequest "Invalid discount amount")
    | some (.finite normalized) =>
      if normalized < 0 then .error (.badRequest "Invalid discount amount")
      else if baseFare < normalized then
        .error (.badRequest "Discount amount exceeds calculated fare")
      else if normalized = 0 then .ok 0
      else .ok (calculateMonetaryAmount normalized)

def calculateDiscountPercent (baseFare discountAmount : ℚ) : ℚ :=
  if baseFare ≤ 0 then 0
  else if discountAmount ≤ 0 then 0
  else mathRound (min (max (discountAmount / baseFare * 100) 0) 100 * 100) / 100

namespace FareEngine

variable (engine : FareEngine)

def calculateAppFee (fareAfterDiscount : ℚ) : ℚ :=
  if fareAfterDiscount ≤ 0 then engine.appFeeMinimumAmount
  else if fareAfterDiscount < engine.appFeeMinimumThreshold then engine.appFeeMinimumAmount
  else calculateMonetaryAmount (fareAfterDiscount * engine.appFeePercent / 100)

def calculateFare (distanceKm : ℚ) (discountAmount : Option JsNumber) :
    Except ServiceError FareCalculationResult := do
  let roundedDistanceKm := roundDistanceKm distanceKm
  let baseFare := max 0 (roundedDistanceKm * engine.fareRatePerKm)
  let normalizedDiscount ← resolveDiscountAmount baseFare discountAmount
  let fareAfterDiscount := calculateMonetaryAmount (baseFare - normalizedDiscount)
  let discountPercent := calculateDiscountPercent baseFare normalizedDiscount
  let appFeeAmount := engine.calculateAppFee fareAfterDiscount
  let finalFare := calculateMonetaryAmount (fareAfterDiscount + appFeeAmount)
  return { roundedDistanceKm, baseFare, discountPercent, discountAmount := normalizedDiscount,
           fareAfterDiscount, appFeeAmount, finalFare }

/-- The estimate of a known distance. -/
def calculateEstimatedFare (distanceKm : ℚ) : ℚ := toFixed 2 (distanceKm * engine.fareRatePerKm)

theorem resolveDiscountAmount_none (baseFare : ℚ) : resolveDiscountAmount baseFare none = .ok 0 := by
  unfold resolveDiscountAmount
  split <;> rfl

/-- Without a discount no distance is refused. -/
theorem calculateFare_none (distanceKm : ℚ) :
    ∃ fare, engine.calculateFare distanceKm none = .ok fare := by
  simp [calculateFare, resolveDiscountAmount_none, bind, Except.bind, pure, Except.pure]

end FareEngine

end NebLite
