import NebLite.Rides.FieldOverride

/-! The two readers of a ride, `findById` of `RideRepository` and of `RidePaymentRepository`, make
the same of every field that both of them select. -/

namespace NebLite

open Atomic

/-- A row of a result whose columns are all named as the properties. -/
abbrev AliasedRow (N : Type) := RideProperty → RowValue N

/-- The query of `RidePaymentRepository.findById`. -/
inductive RidePaymentQuery (N : Type) where
  | findById (rideId : RowValue N)

abbrev RidePaymentQuery.Answer {N : Type} : RidePaymentQuery N → Type
  | findById _ => List (AliasedRow N)

abbrev RidePaymentReads (N α : Type) := Program (RidePaymentQuery N) RidePaymentQuery.Answer ServiceError α

namespace RidePaymentRepository

variable {N : Type} (js : JsConversions N)

/-- The columns that the SELECT casts, as in `fare_final::text`. -/
def castToText : RideColumn → Bool
  | .id | .rider_id | .driver_id | .fare_estimated | .fare_final | .discount_amount | .app_fee_amount => true
  | _ => false

/-- The properties that the SELECT names. -/
def selected : RideProperty → Bool
  | .note | .cancelReason | .updatedAt | .deletedAt => false
  | _ => true

/-- What the fresh `Ride` has of a property is `undefined`. -/
def mapRideRowToEntity (row : AliasedRow N) : RideObject N
  | .id => ((row .id).toString? js).coalesce ((row .id).coalesce .null)
  | .riderId => (row .riderId).coalesce .null
  | .driverId => (row .driverId).coalesce .null
  | .pickupLongitude => (row .pickupLongitude).numberOr js .undefined
  | .pickupLatitude => (row .pickupLatitude).numberOr js .undefined
  | .dropoffLongitude => (row .dropoffLongitude).numberOr js .undefined
  | .dropoffLatitude => (row .dropoffLatitude).numberOr js .undefined
  | .status => (row .status).coalesce .null
  | .fareEstimated => (row .fareEstimated).coalesce .undefined
  | .fareFinal => (row .fareFinal).coalesce .undefined
  | .discountPercent => (row .discountPercent).numberOr js .null
  | .discountAmount => (row .discountAmount).coalesce .undefined
  | .appFeeAmount => (row .appFeeAmount).coalesce .undefined
  | .distanceEstimatedKm => (row .distanceEstimatedKm).numberOr js .null
  | .durationEstimatedSeconds => (row .durationEstimatedSeconds).numberOr js .null
  | .distanceActualKm => (row .distanceActualKm).numberOr js .null
  | .paymentUrl => (row .paymentUrl).coalesce .null
  | .paymentStatus => (row .paymentStatus).coalesce .null
  | .createdAt => (row .createdAt).dateOr js .undefined
  | .note | .cancelReason | .updatedAt | .deletedAt => .undefined

def findById (rideId : RowValue N) : RidePaymentReads N (Option (RideObject N)) := do
  let rides ← Program.perform (.findById rideId)
  match rides with
  | [] => return none
  | ride :: _ => return some (mapRideRowToEntity js ride)

end RidePaymentRepository

/-- The cast of a column of `rides` to text. A bigint and a numeric come without it as the same text. -/
structure TextCast {N C : Type} (pg : RidesTable N C) where
  text : RideColumn → C → String
  read_text : ∀ (column : RideColumn) c, RidePaymentRepository.castToText column → pg.Holds column c →
    pg.read column c = .string (text column c)

namespace TextCast

variable {N C : Type} [DecidableEq C] {pg : RidesTable N C} (cast : TextCast pg)

/-- `column::text` as the driver hands it out: the cast of NULL is NULL. -/
def readText (column : RideColumn) (c : C) : RowValue N :=
  if c = pg.null then .null else .string (cast.text column c)

/-- The row as `RidePaymentRepository.findById` selects it. -/
def aliased (row : RowCells C) : AliasedRow N := fun p =>
  if RidePaymentRepository.selected p then
    if RidePaymentRepository.castToText p.column then cast.readText p.column (row p.column)
    else pg.read p.column (row p.column)
  else .undefined

/-- The query in a table with one row for each id. -/
def handle : Handler (RidePaymentQuery N) RidePaymentQuery.Answer ServiceError (List (RowCells C))
  | .findById id, rows =>
    match pg.store .id id with
    | none => (.error (.error "invalid input syntax for type bigint"), rows)
    | some key => (.ok ((rows.filter fun row => row .id = key).take 1 |>.map cast.aliased), rows)

end TextCast

/-- The status is valid and every bigint or numeric column holds a number or NULL. Nothing is asked of the
other columns. -/
structure RidesTable.Readable {N C : Type} (pg : RidesTable N C) (row : RowCells C) : Prop where
  status : pg.Holds .status (row .status)
  casts : ∀ column, RidePaymentRepository.castToText column → pg.Holds column (row column) ∨ row column = pg.null

section Readers

variable {N C : Type} {pg : RidesTable N C} {row : RowCells C}

theorem RidesTable.WellFormed.readable (hrow : pg.WellFormed row) : pg.Readable row where
  status := (hrow .status).resolve_right fun h => Bool.false_ne_true h.2
  casts column _ := (hrow column).imp_right And.left

namespace RidePaymentRepository

variable (js : JsConversions N)

/-- Two rows with the same values make the same of a field. -/
theorem mapRideRow_agrees {f : RideColumn → RowValue N} {aliased : AliasedRow N} {p : RideProperty}
    (hp : aliased p = f p.column) (hstatus : RideColumn.status.Yields (f .status))
    (hids : ∀ column ∈ [RideColumn.rider_id, .driver_id], f column = .null ∨ column.Yields (f column))
    (hselected : selected p) :
    (RideRepository.mapRideRow js ⟨f, fun _ => .undefined⟩ p).orNull = (mapRideRowToEntity js aliased p).orNull := by
  have hrider := hids .rider_id (by simp)
  have hdriver := hids .driver_id (by simp)
  cases p
  case status =>
    obtain ⟨status, hs⟩ := hstatus
    simp [RideRepository.mapRideRow, mapRideRowToEntity, hp, RideProperty.column, hs,
      RideRepository.normalizeStatus_text, RowValue.coalesce, RowValue.orNull]
  case riderId =>
    obtain h | ⟨s, h⟩ := hrider
    all_goals simp [RideRepository.mapRideRow, mapRideRowToEntity, hp, RideProperty.column, h, RowValue.coalesce,
      RowValue.orNull, RowValue.toString?]
  case driverId =>
    obtain h | ⟨s, h⟩ := hdriver
    all_goals simp [RideRepository.mapRideRow, mapRideRowToEntity, hp, RideProperty.column, h, RowValue.coalesce,
      RowValue.orNull, RowValue.toString?]
  case note | cancelReason | updatedAt | deletedAt => cases hselected
  -- every other field is read by the same conversion in both
  all_goals
    simp only [RideRepository.mapRideRow, mapRideRowToEntity, hp, RideProperty.column]
    generalize f _ = value
    cases value with
    | string s => by_cases hs : s = "" <;>
        simp [hs, RowValue.coalesce, RowValue.orNull, RowValue.numberOr, RowValue.dateOr, RowValue.toString?]
    | number n => cases hn : js.truthy n <;>
        simp [hn, RowValue.coalesce, RowValue.orNull, RowValue.numberOr, RowValue.dateOr, RowValue.toString?]
    | _ => simp [RowValue.coalesce, RowValue.orNull, RowValue.numberOr, RowValue.dateOr, RowValue.toString?]

variable [DecidableEq C] (cast : TextCast pg)

theorem aliased_eq_read (hrow : pg.Readable row) {p : RideProperty} (hp : selected p) :
    cast.aliased row p = pg.read p.column (row p.column) := by
  unfold TextCast.aliased
  rw [if_pos hp]
  split
  · next hcast =>
    unfold TextCast.readText
    obtain hholds | hnull := hrow.casts p.column hcast
    · have hne : row p.column ≠ pg.null := fun h =>
        (pg.read_yields p.column _ hholds).ne_null (by rw [h, pg.read_null])
      rw [if_neg hne, cast.read_text p.column _ hcast hholds]
    · rw [if_pos hnull, hnull, pg.read_null]
  · rfl

theorem mapRideRowToEntity_agrees (hrow : pg.Readable row) {p : RideProperty} (hp : selected p) :
    (RideRepository.mapRideRow js (pg.object row) p).orNull = (mapRideRowToEntity js (cast.aliased row) p).orNull := by
  refine mapRideRow_agrees js (aliased_eq_read cast hrow hp) (pg.read_yields .status _ hrow.status) ?_ hp
  intro column hcolumn
  have hcast : castToText column := by
    simp only [List.mem_cons, List.not_mem_nil, or_false] at hcolumn
    obtain rfl | rfl := hcolumn <;> rfl
  obtain hholds | hnull := hrow.casts column hcast
  · exact .inr (pg.read_yields column _ hholds)
  · exact .inl (by rw [hnull, pg.read_null])

theorem run_findById {id : RowValue N} {key : C} (hkey : pg.store .id id = some key) (rows : List (RowCells C)) :
    (findById js id).run cast.handle rows =
      (.ok ((rows.find? fun row => row .id = key).map fun row => mapRideRowToEntity js (cast.aliased row)), rows) := by
  unfold findById
  rw [Program.run_bind, Program.run_perform]
  simp only [TextCast.handle, hkey]
  rw [← List.head?_filter]
  cases rows.filter fun row => row .id = key with
  | nil => rfl
  | cons row rest => rfl

end RidePaymentRepository

end Readers

variable {N C : Type} [DecidableEq C]

/-- Lifecycle and payment read the same ride: the two readers find the row and agree on every field that both
select, up to `undefined` for a column that is NULL. -/
theorem ride_readers_agree (pg : RidesTable N C) (cast : TextCast pg) (js : JsConversions N) (rows : List (RowCells C))
    (row : RowCells C) (id : RowValue N) (now : Time) (hkeys : (rows.map (· .id)).Nodup) (hmem : row ∈ rows)
    (hid : pg.store .id id = some (row .id)) (hrow : pg.Readable row) :
    ∃ ride payment : RideObject N,
      (RideRepository.findById js id).run (pg.handle now) rows = (.ok (some ride), rows) ∧
      (RidePaymentRepository.findById js id).run cast.handle rows = (.ok (some payment), rows) ∧
      ride = RideRepository.mapRideRow js (pg.object row) ∧
      payment = RidePaymentRepository.mapRideRowToEntity js (cast.aliased row) ∧
      ∀ p, RidePaymentRepository.selected p → (ride p).orNull = (payment p).orNull := by
  have hfind := RideRepository.find?_key hkeys hmem
  have hride := RideRepository.run_findById pg js hid now rows
  have hpayment := RidePaymentRepository.run_findById js cast hid rows
  rw [hfind] at hride hpayment
  exact ⟨_, _, hride, hpayment, rfl, rfl, fun p hp => RidePaymentRepository.mapRideRowToEntity_agrees js cast hrow hp⟩

def plainCast : TextCast (plainRides ℤ) where
  text _ value :=
    match value with
    | .string s => s
    | _ => ""
  read_text column value hcast hvalue := by
    have hstring : ∃ s, value = .string s := by
      cases column
      case id =>
        obtain ⟨s, hs, -⟩ := hvalue
        exact ⟨s, hs⟩
      case rider_id | driver_id | fare_estimated | fare_final | discount_amount | app_fee_amount => exact hvalue
      all_goals cases hcast
    obtain ⟨s, rfl⟩ := hstring
    rfl

theorem ride_readers_agree_enroute : ∃ ride payment : RideObject ℤ,
    (RideRepository.findById intConversions (.string "7")).run ((plainRides ℤ).handle 30)
        [Function.update rowEnroute .id (.string "8"), rowEnroute] =
      (.ok (some ride), [Function.update rowEnroute .id (.string "8"), rowEnroute]) ∧
    (RidePaymentRepository.findById intConversions (.string "7")).run plainCast.handle
        [Function.update rowEnroute .id (.string "8"), rowEnroute] =
      (.ok (some payment), [Function.update rowEnroute .id (.string "8"), rowEnroute]) ∧
    (ride .fareEstimated).orNull = (payment .fareEstimated).orNull ∧ payment .fareEstimated = .string "12000.00" ∧
    (ride .fareFinal).orNull = (payment .fareFinal).orNull ∧ payment .fareFinal = .undefined ∧
    (ride .discountPercent).orNull = (payment .discountPercent).orNull ∧ payment .discountPercent = .null := by
  obtain ⟨ride, payment, hride, hpayment, -, rfl, hagree⟩ := ride_readers_agree (plainRides ℤ) plainCast intConversions
    [Function.update rowEnroute .id (.string "8"), rowEnroute] rowEnroute (.string "7") 30 (by decide) (by simp) rfl
    rowEnroute_wellFormed.readable
  exact ⟨ride, _, hride, hpayment, hagree .fareEstimated rfl, rfl, hagree .fareFinal rfl, rfl,
    hagree .discountPercent rfl, rfl⟩

end NebLite
