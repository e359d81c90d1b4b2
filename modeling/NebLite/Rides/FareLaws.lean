import NebLite.Rides.Money

/-! The laws of the calculated fare: its amounts add up, and how it moves with
the distance and the discount. -/

namespace NebLite

/-- The discount is negative, not finite, or above the base fare. -/
def DiscountInvalid (baseFare : ℚ) : Option JsNumber → Prop
  | none => False
  | some .notFinite => True
  | some (.finite q) => q < 0 ∨ baseFare < q

/-- The number that a discount stands for; an absent one is zero. -/
def discountValue : Option JsNumber → Option ℚ
  | none => some 0
  | some .notFinite => none
  | some (.finite q) => some q

section Discount

variable {baseFare : ℚ} {discountAmount : Option JsNumber} {q : ℚ}

theorem resolveDiscount_free (hb : baseFare ≤ 0) : resolveDiscountAmount baseFare discountAmount = .ok 0 := by
  unfold resolveDiscountAmount
  rw [if_pos hb]

theorem resolveDiscount_invalid (hb : 0 < baseFare) (h : DiscountInvalid baseFare discountAmount) :
    ∃ e, resolveDiscountAmount baseFare discountAmount = .error e := by
  unfold resolveDiscountAmount
  rw [if_neg (not_le.mpr hb)]
  match discountAmount, h with
  | some .notFinite, _ => exact ⟨_, rfl⟩
  | some (.finite x), h =>
    simp only
    by_cases hx : x < 0
    · rw [if_pos hx]
      exact ⟨_, rfl⟩
    · rw [if_neg hx, if_pos (h.resolve_left hx)]
      exact ⟨_, rfl⟩

theorem resolveDiscount_valid (hb : 0 < baseFare) (h : ¬ DiscountInvalid baseFare discountAmount) :
    ∃ x, discountValue discountAmount = some x ∧ 0 ≤ x ∧ x ≤ baseFare ∧
      resolveDiscountAmount baseFare discountAmount = .ok (calculateMonetaryAmount x) := by
  have hzero : calculateMonetaryAmount 0 = 0 := if_pos le_rfl
  unfold resolveDiscountAmount
  rw [if_neg (not_le.mpr hb)]
  match discountAmount, h with
  | none, _ => exact ⟨0, rfl, le_rfl, hb.le, by rw [hzero]⟩
  | some .notFinite, h => exact absurd trivial h
  | some (.finite x), h =>
    obtain ⟨hx, hle⟩ : ¬ x < 0 ∧ ¬ baseFare < x := not_or.mp h
    refine ⟨x, rfl, not_lt.mp hx, not_lt.mp hle, ?_⟩
    simp only
    rw [if_neg hx, if_neg hle]
    by_cases hfree : x = 0
    · rw [if_pos hfree, hfree, hzero]
    · rw [if_neg hfree]

/-- What the accepted discount of a ride with a fare is rounded from. -/
theorem resolveDiscount_ok (hb : 0 < baseFare) (h : resolveDiscountAmount baseFare discountAmount = .ok q) :
    ∃ x, discountValue discountAmount = some x ∧ 0 ≤ x ∧ x ≤ baseFare ∧ q = calculateMonetaryAmount x := by
  by_cases hinvalid : DiscountInvalid baseFare discountAmount
  · obtain ⟨e, he⟩ := resolveDiscount_invalid hb hinvalid
    rw [h] at he
    cases he
  · obtain ⟨x, hx, hnonneg, hle, hok⟩ := resolveDiscount_valid hb hinvalid
    rw [h] at hok
    exact ⟨x, hx, hnonneg, hle, Except.ok.inj hok⟩

theorem calculateDiscountPercent_mem (baseFare discountAmount : ℚ) :
    0 ≤ calculateDiscountPercent baseFare discountAmount ∧ calculateDiscountPercent baseFare discountAmount ≤ 100 := by
  unfold calculateDiscountPercent
  split
  · norm_num
  split
  · norm_num
  · generalize hx : min (max (discountAmount / baseFare * 100) 0) 100 = x
    have hnonneg : 0 ≤ x := by
      rw [← hx]
      exact le_min (le_max_right _ _) (by norm_num)
    have hle : x ≤ 100 := by
      rw [← hx]
      exact min_le_right _ _
    have hlow : 0 ≤ mathRound (x * 100) := mathRound_nonneg (by linarith)
    have hhigh : mathRound (x * 100) ≤ 10000 := by
      have hmono : mathRound (x * 100) ≤ mathRound ((10000 : ℤ) : ℚ) := mathRound_mono (by push_cast; linarith)
      rwa [mathRound_intCast] at hmono
    have hlow' : (0 : ℚ) ≤ mathRound (x * 100) := Int.cast_nonneg hlow
    have hhigh' : (mathRound (x * 100) : ℚ) ≤ 10000 := by exact_mod_cast hhigh
    constructor <;> linarith

end Discount

namespace FareEngine

variable (engine : FareEngine)

def baseFare (distanceKm : ℚ) : ℚ := max 0 (roundDistanceKm distanceKm * engine.fareRatePerKm)

theorem baseFare_nonneg (distanceKm : ℚ) : 0 ≤ engine.baseFare distanceKm := le_max_left _ _

/-- The fare of a distance with the discount that has been accepted for it. -/
def fareWith (distanceKm discount : ℚ) : FareCalculationResult :=
  let fareAfterDiscount := calculateMonetaryAmount (engine.baseFare distanceKm - discount)
  let appFeeAmount := engine.calculateAppFee fareAfterDiscount
  { roundedDistanceKm := roundDistanceKm distanceKm
    baseFare := engine.baseFare distanceKm
    discountPercent := calculateDiscountPercent (engine.baseFare distanceKm) discount
    discountAmount := discount
    fareAfterDiscount, appFeeAmount
    finalFare := calculateMonetaryAmount (fareAfterDiscount + appFeeAmount) }

theorem calculateFare_eq (distanceKm : ℚ) (discountAmount : Option JsNumber) :
    engine.calculateFare distanceKm discountAmount =
      (resolveDiscountAmount (engine.baseFare distanceKm) discountAmount).map (engine.fareWith distanceKm) := by
  have hfare : engine.calculateFare distanceKm discountAmount =
      (resolveDiscountAmount (engine.baseFare distanceKm) discountAmount).bind
        fun discount => .ok (engine.fareWith distanceKm discount) := rfl
  rw [hfare]
  cases resolveDiscountAmount (engine.baseFare distanceKm) discountAmount <;> rfl

theorem calculateFare_ok {distanceKm : ℚ} {discountAmount : Option JsNumber} {fare : FareCalculationResult}
    (h : engine.calculateFare distanceKm discountAmount = .ok fare) :
    ∃ discount, resolveDiscountAmount (engine.baseFare distanceKm) discountAmount = .ok discount ∧
      fare = engine.fareWith distanceKm discount := by
  rw [calculateFare_eq] at h
  cases hdiscount : resolveDiscountAmount (engine.baseFare distanceKm) discountAmount with
  | error e =>
    rw [hdiscount] at h
    cases h
  | ok discount =>
    rw [hdiscount] at h
    exact ⟨discount, rfl, (Except.ok.inj h).symm⟩

end FareEngine

/-- The amounts of a fare add up: nothing is lost but at most half a cent of rounding. -/
structure FareCalculationResult.Conserved (fare : FareCalculationResult) : Prop where
  sum : fare.finalFare = fare.fareAfterDiscount + fare.appFeeAmount
  near : |fare.fareAfterDiscount + fare.discountAmount - fare.baseFare| ≤ 1 / 200
  nonneg : 0 ≤ fare.baseFare ∧ 0 ≤ fare.discountAmount ∧ 0 ≤ fare.fareAfterDiscount ∧ 0 ≤ fare.appFeeAmount
  cents : IsCents fare.discountAmount ∧ IsCents fare.fareAfterDiscount ∧ IsCents fare.appFeeAmount ∧
    IsCents fare.finalFare
  percent : 0 ≤ fare.discountPercent ∧ fare.discountPercent ≤ 100
  positive : 0 < fare.finalFare

section Conservation

variable {engine : FareEngine}

theorem appFee_spec (hmin : 0 < engine.appFeeMinimumAmount) (hcents : IsCents engine.appFeeMinimumAmount) (x : ℚ) :
    0 ≤ engine.calculateAppFee x ∧ IsCents (engine.calculateAppFee x) ∧ (x ≤ 0 → 0 < engine.calculateAppFee x) := by
  unfold FareEngine.calculateAppFee
  by_cases hx : x ≤ 0
  · rw [if_pos hx]
    exact ⟨hmin.le, hcents, fun _ => hmin⟩
  rw [if_neg hx]
  by_cases hlow : x < engine.appFeeMinimumThreshold
  · rw [if_pos hlow]
    exact ⟨hmin.le, hcents, fun _ => hmin⟩
  · rw [if_neg hlow]
    exact ⟨monetary_nonneg _, isCents_monetary _, fun h => absurd h hx⟩

/-- A discount of at most the base fare leaves what is missing of it, to half a cent. -/
theorem afterDiscount_near {base x : ℚ} (hx : 0 ≤ x) (hle : x ≤ base) :
    |calculateMonetaryAmount (base - calculateMonetaryAmount x) + calculateMonetaryAmount x - base| ≤ 1 / 200 := by
  by_cases hrest : 0 ≤ base - calculateMonetaryAmount x
  · have hnear := monetary_near hrest
    rw [abs_sub_comm] at hnear
    have hsame : calculateMonetaryAmount (base - calculateMonetaryAmount x) + calculateMonetaryAmount x - base =
        calculateMonetaryAmount (base - calculateMonetaryAmount x) - (base - calculateMonetaryAmount x) := by ring
    rw [hsame]
    exact hnear
  · -- the rounded discount is above the base fare, the discount is not
    have hneg : base - calculateMonetaryAmount x ≤ 0 := (not_le.mp hrest).le
    have hzero : calculateMonetaryAmount (base - calculateMonetaryAmount x) = 0 := if_pos hneg
    have hnear := abs_le.mp (monetary_near hx)
    rw [hzero, abs_le]
    constructor <;> linarith [hnear.1, hnear.2]

theorem fareWith_conserved (hmin : 0 < engine.appFeeMinimumAmount) (hcents : IsCents engine.appFeeMinimumAmount)
    {distanceKm x : ℚ} (hx : 0 ≤ x) (hle : x ≤ engine.baseFare distanceKm) :
    (engine.fareWith distanceKm (calculateMonetaryAmount x)).Conserved := by
  let net := calculateMonetaryAmount (engine.baseFare distanceKm - calculateMonetaryAmount x)
  have hnet : 0 ≤ net := monetary_nonneg _
  have hnetCents : IsCents net := isCents_monetary _
  obtain ⟨hfee, hfeeCents, hfeePos⟩ := appFee_spec hmin hcents net
  have htotal : 0 < net + engine.calculateAppFee net := by
    rcases hnet.eq_or_lt with hzero | hpos
    · have hpositive := hfeePos hzero.ge
      linarith
    · linarith
  have hsum : calculateMonetaryAmount (net + engine.calculateAppFee net) = net + engine.calculateAppFee net :=
    monetary_of_cents (hnetCents.add hfeeCents) htotal.le
  exact {
    sum := hsum
    near := afterDiscount_near hx hle
    nonneg := ⟨engine.baseFare_nonneg distanceKm, monetary_nonneg x, hnet, hfee⟩
    cents := ⟨isCents_monetary x, hnetCents, hfeeCents, isCents_monetary _⟩
    percent := calculateDiscountPercent_mem _ _
    positive := by
      show 0 < calculateMonetaryAmount (net + engine.calculateAppFee net)
      rw [hsum]
      exact htotal }

/-- Every fare that is calculated is conserved, and one is refused exactly for a discount
that does not fit a positive base fare. -/
theorem fare_conserved (engine : FareEngine) (hmin : 0 < engine.appFeeMinimumAmount)
    (hcents : IsCents engine.appFeeMinimumAmount) (distanceKm : ℚ) (discountAmount : Option JsNumber) :
    (∀ fare, engine.calculateFare distanceKm discountAmount = .ok fare → fare.Conserved) ∧
      ((∃ e, engine.calculateFare distanceKm discountAmount = .error e) ↔
        0 < engine.baseFare distanceKm ∧ DiscountInvalid (engine.baseFare distanceKm) discountAmount) := by
  have hbase : 0 ≤ engine.baseFare distanceKm := engine.baseFare_nonneg distanceKm
  have hzero : calculateMonetaryAmount 0 = 0 := if_pos le_rfl
  constructor
  · intro fare hfare
    obtain ⟨discount, hdiscount, rfl⟩ := engine.calculateFare_ok hfare
    rcases hbase.eq_or_lt with hfree | hpos
    · rw [resolveDiscount_free hfree.ge] at hdiscount
      obtain rfl := Except.ok.inj hdiscount
      rw [← hzero]
      exact fareWith_conserved hmin hcents le_rfl hbase
    · obtain ⟨x, -, hx, hle, rfl⟩ := resolveDiscount_ok hpos hdiscount
      exact fareWith_conserved hmin hcents hx hle
  · rw [FareEngine.calculateFare_eq]
    constructor
    · rintro ⟨e, he⟩
      rcases hbase.eq_or_lt with hfree | hpos
      · rw [resolveDiscount_free hfree.ge] at he
        cases he
      · refine ⟨hpos, ?_⟩
        by_contra hvalid
        obtain ⟨x, -, -, -, hok⟩ := resolveDiscount_valid hpos hvalid
        rw [hok] at he
        cases he
    · rintro ⟨hpos, hinvalid⟩
      obtain ⟨e, he⟩ := resolveDiscount_invalid hpos hinvalid
      exact ⟨e, by rw [he]; rfl⟩

/-- The default configuration. -/
def FareEngine.default : FareEngine := ⟨3000, 5, 3000, 10000⟩

theorem fare_conserved_default :
    (∀ fare, FareEngine.default.calculateFare (7 / 2) (some (.finite 500)) = .ok fare → fare.Conserved) ∧
      ((∃ e, FareEngine.default.calculateFare (7 / 2) (some (.finite 500)) = .error e) ↔
        0 < FareEngine.default.baseFare (7 / 2) ∧
          DiscountInvalid (FareEngine.default.baseFare (7 / 2)) (some (.finite 500))) :=
  fare_conserved FareEngine.default (by norm_num [FareEngine.default]) ⟨300000, by norm_num [FareEngine.default]⟩
    (7 / 2) (some (.finite 500))

end Conservation

section Monotone

/-- Among the fares that are so related, a larger distance with the same discount never costs less. -/
def FareEngine.GrowsWithDistance (engine : FareEngine) (among : FareCalculationResult → FareCalculationResult → Prop) :
    Prop :=
  ∀ near far discountAmount fare fare', near ≤ far → engine.calculateFare near discountAmount = .ok fare →
    engine.calculateFare far discountAmount = .ok fare' → among fare fare' → fare.finalFare ≤ fare'.finalFare

/-- Among the fares that are so related, a larger discount on the same distance never costs more. -/
def FareEngine.ShrinksWithDiscount (engine : FareEngine) (among : FareCalculationResult → FareCalculationResult → Prop) :
    Prop :=
  ∀ distanceKm discount discount' x x' fare fare', discountValue discount = some x → discountValue discount' = some x' →
    x ≤ x' → engine.calculateFare distanceKm discount = .ok fare →
    engine.calculateFare distanceKm discount' = .ok fare' → among fare' fare → fare'.finalFare ≤ fare.finalFare

/-- The fare after discount is charged the minimum fee. -/
def FareEngine.TakesMinimum (engine : FareEngine) (fare : FareCalculationResult) : Prop :=
  fare.fareAfterDiscount ≤ 0 ∨ fare.fareAfterDiscount < engine.appFeeMinimumThreshold

/-- Both fares are charged the minimum fee, or both the percentage. -/
def FareEngine.SameFee (engine : FareEngine) (fare fare' : FareCalculationResult) : Prop :=
  engine.TakesMinimum fare ↔ engine.TakesMinimum fare'

/-- The first fare after discount, in cents, that is charged the percentage. -/
def FareEngine.firstPercentCents (engine : FareEngine) : ℤ := max ⌈engine.appFeeMinimumThreshold * 100⌉ 1

/-- The percentage of a fare of `n` cents, in cents. -/
def FareEngine.percentCents (engine : FareEngine) (n : ℤ) : ℤ := centsOf (n / 100 * engine.appFeePercent / 100)

/-- The fare that a rider pays for `n` cents after discount, in cents. -/
def FareEngine.finalCents (engine : FareEngine) (n : ℤ) : ℤ :=
  n + if n < engine.firstPercentCents then centsOf engine.appFeeMinimumAmount else engine.percentCents n

/-- At the threshold the fee drops by at most the cent that the fare goes up. -/
def FareEngine.NoDrop (engine : FareEngine) : Prop :=
  centsOf engine.appFeeMinimumAmount ≤ engine.percentCents engine.firstPercentCents + 1

variable {engine : FareEngine}

theorem percentCents_mono (hpercent : 0 ≤ engine.appFeePercent) {n m : ℤ} (h : n ≤ m) :
    engine.percentCents n ≤ engine.percentCents m := by
  have hcast : (n : ℚ) ≤ m := Int.cast_le.mpr h
  refine centsOf_mono ?_
  have hscaled : (n : ℚ) / 100 * engine.appFeePercent ≤ m / 100 * engine.appFeePercent :=
    mul_le_mul_of_nonneg_right (by linarith) hpercent
  linarith

theorem firstPercentCents_pos (engine : FareEngine) : 1 ≤ engine.firstPercentCents := le_max_right _ _

theorem lt_firstPercentCents (engine : FareEngine) (n : ℤ) :
    n < engine.firstPercentCents ↔ (n : ℚ) / 100 ≤ 0 ∨ (n : ℚ) / 100 < engine.appFeeMinimumThreshold := by
  have hlow : (n : ℚ) / 100 ≤ 0 ↔ n < 1 := by
    have hsign : (n : ℚ) / 100 ≤ 0 ↔ (n : ℚ) ≤ 0 := by
      constructor <;> intro h <;> linarith
    rw [hsign, Int.cast_nonpos]
    omega
  have hthreshold : (n : ℚ) / 100 < engine.appFeeMinimumThreshold ↔ n < ⌈engine.appFeeMinimumThreshold * 100⌉ := by
    rw [Int.lt_ceil, div_lt_iff₀ (by norm_num)]
  rw [FareEngine.firstPercentCents, lt_max_iff, hlow, hthreshold]
  exact or_comm

theorem percentCents_nonneg (n : ℤ) : 0 ≤ engine.percentCents n := centsOf_nonneg _

/-- The final fare depends on the cents after discount alone. -/
theorem finalFare_eq (hmin : 0 ≤ engine.appFeeMinimumAmount) {n : ℤ} (hn : 0 ≤ n) :
    calculateMonetaryAmount (n / 100 + engine.calculateAppFee (n / 100)) = engine.finalCents n / 100 := by
  have hfee : 0 ≤ engine.calculateAppFee (n / 100) ∧ centsOf (engine.calculateAppFee (n / 100)) =
      if n < engine.firstPercentCents then centsOf engine.appFeeMinimumAmount else engine.percentCents n := by
    unfold FareEngine.calculateAppFee
    by_cases hlow : n < engine.firstPercentCents
    · rw [if_pos hlow]
      rcases (lt_firstPercentCents engine n).mp hlow with h | h
      · rw [if_pos h]
        exact ⟨hmin, rfl⟩
      · by_cases hzero : (n : ℚ) / 100 ≤ 0
        · rw [if_pos hzero]
          exact ⟨hmin, rfl⟩
        · rw [if_neg hzero, if_pos h]
          exact ⟨hmin, rfl⟩
    · obtain ⟨hpos, hhigh⟩ := not_or.mp (mt (lt_firstPercentCents engine n).mpr hlow)
      rw [if_neg hlow, if_neg hpos, if_neg hhigh, monetary_eq]
      exact ⟨div_nonneg (Int.cast_nonneg (percentCents_nonneg n)) (by norm_num), centsOf_cents (percentCents_nonneg n)⟩
  rw [monetary_eq, centsOf_add hn hfee.1, hfee.2, FareEngine.finalCents]

/-- On one side of the threshold what is paid grows with the cents after discount. -/
theorem finalCents_mono_side (hpercent : 0 ≤ engine.appFeePercent) {n m : ℤ} (h : n ≤ m)
    (hside : n < engine.firstPercentCents ↔ m < engine.firstPercentCents) : engine.finalCents n ≤ engine.finalCents m := by
  have hgrow := percentCents_mono hpercent h
  unfold FareEngine.finalCents
  by_cases hm : m < engine.firstPercentCents
  · rw [if_pos (hside.mpr hm), if_pos hm]
    omega
  · rw [if_neg (mt hside.mp hm), if_neg hm]
    omega

/-- Across the threshold it does, too, if the fee does not drop there. -/
theorem finalCents_mono (hpercent : 0 ≤ engine.appFeePercent) (hdrop : engine.NoDrop) {n m : ℤ} (h : n ≤ m) :
    engine.finalCents n ≤ engine.finalCents m := by
  by_cases hside : n < engine.firstPercentCents ↔ m < engine.firstPercentCents
  · exact finalCents_mono_side hpercent h hside
  · have hcross : n < engine.firstPercentCents ∧ engine.firstPercentCents ≤ m := by omega
    have hgrow := percentCents_mono hpercent hcross.2
    unfold FareEngine.NoDrop at hdrop
    unfold FareEngine.finalCents
    rw [if_pos hcross.1, if_neg (not_lt.mpr hcross.2)]
    omega

theorem fareWith_final (hmin : 0 ≤ engine.appFeeMinimumAmount) (distanceKm discount : ℚ) :
    (engine.fareWith distanceKm discount).finalFare =
      engine.finalCents (centsOf (engine.baseFare distanceKm - discount)) / 100 := by
  unfold FareEngine.fareWith
  rw [monetary_eq (engine.baseFare distanceKm - discount)]
  exact finalFare_eq hmin (centsOf_nonneg _)

theorem baseFare_mono (hrate : 0 ≤ engine.fareRatePerKm) {near far : ℚ} (h : near ≤ far) :
    engine.baseFare near ≤ engine.baseFare far :=
  max_le_max le_rfl (mul_le_mul_of_nonneg_right (toFixed_mono 3 h) hrate)

/-- The cents after discount grow with the distance. -/
theorem afterDiscount_distance (hrate : 0 ≤ engine.fareRatePerKm) {near far q q' : ℚ} {discountAmount : Option JsNumber}
    (h : near ≤ far) (hq : resolveDiscountAmount (engine.baseFare near) discountAmount = .ok q)
    (hq' : resolveDiscountAmount (engine.baseFare far) discountAmount = .ok q') :
    centsOf (engine.baseFare near - q) ≤ centsOf (engine.baseFare far - q') := by
  have hbase := baseFare_mono hrate h
  by_cases hnear : engine.baseFare near ≤ 0
  · rw [resolveDiscount_free hnear] at hq
    obtain rfl := Except.ok.inj hq
    have hfree : centsOf (engine.baseFare near - 0) = 0 := centsOf_of_nonpos (by linarith)
    rw [hfree]
    exact centsOf_nonneg _
  · have hpos : 0 < engine.baseFare near := not_le.mp hnear
    obtain ⟨x, hx, -, -, rfl⟩ := resolveDiscount_ok hpos hq
    obtain ⟨x', hx', -, -, rfl⟩ := resolveDiscount_ok (hpos.trans_le hbase) hq'
    obtain rfl : x = x' := Option.some.inj (hx.symm.trans hx')
    exact centsOf_mono (by linarith)

/-- The cents after discount shrink with the discount. -/
theorem afterDiscount_discount {distanceKm x x' q q' : ℚ} {discount discount' : Option JsNumber}
    (hx : discountValue discount = some x) (hx' : discountValue discount' = some x') (h : x ≤ x')
    (hq : resolveDiscountAmount (engine.baseFare distanceKm) discount = .ok q)
    (hq' : resolveDiscountAmount (engine.baseFare distanceKm) discount' = .ok q') :
    centsOf (engine.baseFare distanceKm - q') ≤ centsOf (engine.baseFare distanceKm - q) := by
  by_cases hfree : engine.baseFare distanceKm ≤ 0
  · rw [resolveDiscount_free hfree] at hq hq'
    rw [← Except.ok.inj hq, ← Except.ok.inj hq']
  · have hpos : 0 < engine.baseFare distanceKm := not_le.mp hfree
    obtain ⟨y, hy, -, -, rfl⟩ := resolveDiscount_ok hpos hq
    obtain ⟨y', hy', -, -, rfl⟩ := resolveDiscount_ok hpos hq'
    obtain rfl : x = y := Option.some.inj (hx.symm.trans hy)
    obtain rfl : x' = y' := Option.some.inj (hx'.symm.trans hy')
    have hmono := monetary_mono h
    exact centsOf_mono (by linarith)

theorem finalCents_le {n m : ℤ} (h : engine.finalCents n ≤ engine.finalCents m) :
    (engine.finalCents n : ℚ) / 100 ≤ engine.finalCents m / 100 :=
  div_le_div_of_nonneg_right (Int.cast_le.mpr h) (by norm_num)

theorem afterDiscount_unpriced (hrate : engine.fareRatePerKm = 0) {distanceKm q : ℚ} {discountAmount : Option JsNumber}
    (hq : resolveDiscountAmount (engine.baseFare distanceKm) discountAmount = .ok q) :
    centsOf (engine.baseFare distanceKm - q) = 0 := by
  have hbase : engine.baseFare distanceKm = 0 := by
    rw [FareEngine.baseFare, hrate, mul_zero, max_self]
  rw [resolveDiscount_free hbase.le] at hq
  obtain rfl := Except.ok.inj hq
  exact centsOf_of_nonpos (by linarith)

/-- The laws follow from what is paid for the cents after discount. -/
theorem monotone_of_cents {among : FareCalculationResult → FareCalculationResult → Prop}
    (hrate : 0 ≤ engine.fareRatePerKm) (hmin : 0 ≤ engine.appFeeMinimumAmount)
    (hmono : ∀ d q d' q', among (engine.fareWith d q) (engine.fareWith d' q') →
      centsOf (engine.baseFare d - q) ≤ centsOf (engine.baseFare d' - q') →
      engine.finalCents (centsOf (engine.baseFare d - q)) ≤ engine.finalCents (centsOf (engine.baseFare d' - q'))) :
    engine.GrowsWithDistance among ∧ engine.ShrinksWithDiscount among := by
  constructor
  · intro near far discountAmount fare fare' h hfare hfare' hamong
    obtain ⟨q, hq, rfl⟩ := engine.calculateFare_ok hfare
    obtain ⟨q', hq', rfl⟩ := engine.calculateFare_ok hfare'
    rw [fareWith_final hmin, fareWith_final hmin]
    exact finalCents_le (hmono near q far q' hamong (afterDiscount_distance hrate h hq hq'))
  · intro distanceKm discount discount' x x' fare fare' hx hx' h hfare hfare' hamong
    obtain ⟨q, hq, rfl⟩ := engine.calculateFare_ok hfare
    obtain ⟨q', hq', rfl⟩ := engine.calculateFare_ok hfare'
    rw [fareWith_final hmin, fareWith_final hmin]
    exact finalCents_le (hmono distanceKm q' distanceKm q hamong (afterDiscount_discount hx hx' h hq hq'))

theorem monotone_unpriced {among : FareCalculationResult → FareCalculationResult → Prop}
    (hrate : engine.fareRatePerKm = 0) (hmin : 0 ≤ engine.appFeeMinimumAmount) :
    engine.GrowsWithDistance among ∧ engine.ShrinksWithDiscount among := by
  have hfree (distanceKm : ℚ) (discountAmount : Option JsNumber) (fare : FareCalculationResult)
      (h : engine.calculateFare distanceKm discountAmount = .ok fare) : fare.finalFare = engine.finalCents 0 / 100 := by
    obtain ⟨q, hq, rfl⟩ := engine.calculateFare_ok h
    rw [fareWith_final hmin, afterDiscount_unpriced hrate hq]
  constructor
  · intro near far discountAmount fare fare' _ hfare hfare' _
    rw [hfree _ _ _ hfare, hfree _ _ _ hfare']
  · intro distanceKm discount discount' x x' fare fare' _ _ _ hfare hfare' _
    rw [hfree _ _ _ hfare, hfree _ _ _ hfare']

/-- With a rate, some distance costs a whole amount that is as large as one likes. -/
theorem exists_baseFare (hrate : 0 < engine.fareRatePerKm) (least : ℤ) :
    ∃ distanceKm : ℚ, ∃ amount : ℤ, least ≤ amount ∧ 0 ≤ amount ∧ engine.baseFare distanceKm = amount := by
  have hnum : 0 < engine.fareRatePerKm.num := Rat.num_pos.mpr hrate
  let km : ℕ := engine.fareRatePerKm.den * least.toNat
  refine ⟨km, engine.fareRatePerKm.num * least.toNat, ?_, by positivity, ?_⟩
  · have hleast : least ≤ least.toNat := Int.self_le_toNat least
    have hgrow : (least.toNat : ℤ) ≤ engine.fareRatePerKm.num * least.toNat :=
      le_mul_of_one_le_left (Int.natCast_nonneg _) hnum
    omega
  · have hden : (engine.fareRatePerKm.den : ℚ) ≠ 0 := Nat.cast_ne_zero.mpr engine.fareRatePerKm.den_nz
    have hprice : (km : ℚ) * engine.fareRatePerKm = (engine.fareRatePerKm.num * least.toNat : ℤ) := by
      have hsplit : (engine.fareRatePerKm.den : ℚ) * engine.fareRatePerKm = engine.fareRatePerKm.num := by
        rw [mul_comm, Rat.mul_den_eq_num]
      push_cast
      rw [← hsplit]
      simp only [km]
      push_cast
      ring
    have hnonneg : (0 : ℚ) ≤ (engine.fareRatePerKm.num * least.toNat : ℤ) := by
      exact_mod_cast mul_nonneg hnum.le (Int.natCast_nonneg least.toNat)
    have hdistance : roundDistanceKm km = km := toFixed_natCast 3 km
    rw [FareEngine.baseFare, hdistance, hprice, max_eq_right hnonneg]

theorem calculateFare_cents {distanceKm : ℚ} {amount n : ℤ} (hbase : engine.baseFare distanceKm = amount)
    (hn : 0 ≤ n) (hle : n ≤ 100 * amount) (hpos : 0 < amount) (hmin : 0 ≤ engine.appFeeMinimumAmount) :
    ∃ fare, engine.calculateFare distanceKm (some (.finite (n / 100))) = .ok fare ∧
      fare.finalFare = engine.finalCents (100 * amount - n) / 100 := by
  have hamount : (0 : ℚ) < engine.baseFare distanceKm := by
    rw [hbase]
    exact Int.cast_pos.mpr hpos
  have hcast : (0 : ℚ) ≤ n := Int.cast_nonneg hn
  have hfits : (n : ℚ) ≤ 100 * amount := by exact_mod_cast hle
  have hvalid : ¬ DiscountInvalid (engine.baseFare distanceKm) (some (.finite (n / 100))) := by
    rintro (h | h)
    · linarith
    · rw [hbase] at h
      linarith
  obtain ⟨x, hx, -, -, hok⟩ := resolveDiscount_valid hamount hvalid
  obtain rfl : (n : ℚ) / 100 = x := Option.some.inj hx
  have hsame : calculateMonetaryAmount ((n : ℚ) / 100) = n / 100 := by
    rw [monetary_eq, centsOf_cents hn]
  rw [hsame] at hok
  refine ⟨engine.fareWith distanceKm (n / 100), ?_, ?_⟩
  · rw [FareEngine.calculateFare_eq, hok]
    rfl
  · have hrest : engine.baseFare distanceKm - n / 100 = ((100 * amount - n : ℤ) : ℚ) / 100 := by
      rw [hbase]
      push_cast
      ring
    rw [fareWith_final hmin, hrest, centsOf_cents (by omega)]

/-- A drop at the threshold makes some discount cost the rider more. -/
theorem noDrop_of_shrinks (hrate : 0 < engine.fareRatePerKm) (hmin : 0 ≤ engine.appFeeMinimumAmount)
    (h : engine.ShrinksWithDiscount fun _ _ => True) : engine.NoDrop := by
  have hfirst := firstPercentCents_pos engine
  obtain ⟨distanceKm, amount, hleast, hamount, hbase⟩ := exists_baseFare hrate engine.firstPercentCents
  -- the two discounts leave the first fare with the percentage, and one cent less
  let n := 100 * amount - engine.firstPercentCents
  obtain ⟨fare, hfare, hfinal⟩ := calculateFare_cents hbase (n := n) (by omega) (by omega) (by omega) hmin
  obtain ⟨fare', hfare', hfinal'⟩ := calculateFare_cents hbase (n := n + 1) (by omega) (by omega) (by omega) hmin
  have hle : ((n : ℤ) : ℚ) / 100 ≤ ((n + 1 : ℤ) : ℚ) / 100 := by
    push_cast
    linarith
  have hshrinks := h distanceKm _ _ _ _ fare fare' rfl rfl hle hfare hfare' trivial
  rw [hfinal, hfinal', div_le_div_iff_of_pos_right (by norm_num), Int.cast_le] at hshrinks
  have hn : 100 * amount - n = engine.firstPercentCents := by omega
  have hn' : 100 * amount - (n + 1) = engine.firstPercentCents - 1 := by omega
  rw [hn, hn'] at hshrinks
  unfold FareEngine.finalCents at hshrinks
  rw [if_pos (by omega), if_neg (lt_irrefl _)] at hshrinks
  unfold FareEngine.NoDrop
  omega

theorem takesMinimum_fareWith (engine : FareEngine) (distanceKm discount : ℚ) :
    engine.TakesMinimum (engine.fareWith distanceKm discount) ↔
      centsOf (engine.baseFare distanceKm - discount) < engine.firstPercentCents := by
  rw [lt_firstPercentCents, FareEngine.TakesMinimum, FareEngine.fareWith, monetary_eq]

/-- Fares that are charged the same kind of fee move with the distance and against the discount;
all fares do exactly if there is no rate, or the fee does not drop at the threshold. -/
theorem fare_monotone_iff (engine : FareEngine) (hrate : 0 ≤ engine.fareRatePerKm) (hpercent : 0 ≤ engine.appFeePercent)
    (hmin : 0 ≤ engine.appFeeMinimumAmount) :
    (engine.GrowsWithDistance engine.SameFee ∧ engine.ShrinksWithDiscount engine.SameFee) ∧
      (engine.GrowsWithDistance (fun _ _ => True) ∧ engine.ShrinksWithDiscount (fun _ _ => True) ↔
        engine.fareRatePerKm = 0 ∨ engine.NoDrop) := by
  constructor
  · refine monotone_of_cents hrate hmin fun d q d' q' hsame h => finalCents_mono_side hpercent h ?_
    rw [← takesMinimum_fareWith, ← takesMinimum_fareWith]
    exact hsame
  · constructor
    · rintro ⟨-, hshrinks⟩
      rcases hrate.eq_or_lt with hfree | hpos
      · exact .inl hfree.symm
      · exact .inr (noDrop_of_shrinks hpos hmin hshrinks)
    · rintro (hfree | hdrop)
      · exact monotone_unpriced hfree hmin
      · exact monotone_of_cents hrate hmin fun _ _ _ _ _ h => finalCents_mono hpercent hdrop h

theorem fare_monotone_iff_default :
    (FareEngine.default.GrowsWithDistance FareEngine.default.SameFee ∧
        FareEngine.default.ShrinksWithDiscount FareEngine.default.SameFee) ∧
      (FareEngine.default.GrowsWithDistance (fun _ _ => True) ∧
          FareEngine.default.ShrinksWithDiscount (fun _ _ => True) ↔
        FareEngine.default.fareRatePerKm = 0 ∨ FareEngine.default.NoDrop) :=
  fare_monotone_iff FareEngine.default (by norm_num [FareEngine.default]) (by norm_num [FareEngine.default])
    (by norm_num [FareEngine.default])

/-- By default 3.333 km cost 12999 and 3.334 km cost 10502.10; and a discount of 3 on the latter
makes them cost 12999, too. -/
theorem longer_ride_cheaper : ¬ ∀ engine : FareEngine, 0 ≤ engine.fareRatePerKm → 0 ≤ engine.appFeePercent →
    0 ≤ engine.appFeeMinimumAmount → 0 ≤ engine.appFeeMinimumThreshold →
    engine.GrowsWithDistance (fun _ _ => True) ∧ engine.ShrinksWithDiscount (fun _ _ => True) := by
  intro h
  obtain ⟨hgrows, -⟩ := h FareEngine.default (by norm_num [FareEngine.default]) (by norm_num [FareEngine.default])
    (by norm_num [FareEngine.default]) (by norm_num [FareEngine.default])
  obtain ⟨near, hnear⟩ := FareEngine.default.calculateFare_none (3333 / 1000)
  obtain ⟨far, hfar⟩ := FareEngine.default.calculateFare_none (3334 / 1000)
  have hcheap : ((FareEngine.default.calculateFare (3334 / 1000) none).map (·.finalFare)).toOption =
      some (1050210 / 100) := by decide +kernel
  have hdear : ((FareEngine.default.calculateFare (3333 / 1000) none).map (·.finalFare)).toOption =
      some 12999 := by decide +kernel
  have hle := hgrows _ _ _ near far (by norm_num) hnear hfar trivial
  rw [hnear] at hdear
  rw [hfar] at hcheap
  have hnearFare : near.finalFare = 12999 := Option.some.inj hdear
  have hfarFare : far.finalFare = 1050210 / 100 := Option.some.inj hcheap
  rw [hnearFare, hfarFare] at hle
  norm_num at hle

end Monotone

end NebLite
