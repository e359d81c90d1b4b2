import NebLite.Rides.FieldOverride

/-! A `Ride` as a row of the table, and what `updateRide` makes of it: the row of the ride whose
columns were written from the merge. -/

namespace NebLite

open Atomic

def ERidePaymentStatus.text : ERidePaymentStatus → String
  | pending => "pending"
  | onProcess => "on_process"
  | paid => "paid"

section Cells

variable {α N : Type}

def nullableCell (cell : α → RowValue N) : Option α → RowValue N
  | none => .null
  | some a => cell a

def JsField.cell (cell : α → RowValue N) : JsField α → RowValue N
  | undefined => .undefined
  | null => .null
  | val a => cell a

def definedCell (cell : α → RowValue N) : Option α → RowValue N
  | none => .undefined
  | some a => cell a

/-- The driver hands an identifier out as its decimal text. -/
def idCell (id : Id) : RowValue N := .string (Nat.repr id)

theorem idCell_inj {a b : Id} (h : idCell (N := N) a = idCell b) : a = b := by
  have hrepr := RowValue.string.inj h
  have hdigits : Nat.toDigits 10 a = Nat.toDigits 10 b := String.ofList_injective hrepr
  rw [← Nat.ofDigitChars_ten_toDigits (n := a), hdigits, Nat.ofDigitChars_ten_toDigits]

end Cells

variable (amount : ℚ → String)

/-- The row of a ride; `amount` is the text of a numeric column. -/
def Ride.cells (r : Ride) (updatedAt : Time) : RowCells (RowValue ℚ)
  | .id => idCell r.id
  | .rider_id => idCell r.riderId
  | .driver_id => nullableCell idCell r.driverId
  | .pickup_lon => .number r.pickupLongitude
  | .pickup_lat => .number r.pickupLatitude
  | .dropoff_lon => .number r.dropoffLongitude
  | .dropoff_lat => .number r.dropoffLatitude
  | .status => .string r.status.text
  | .fare_estimated => nullableCell (fun f => .string (amount f)) r.fareEstimated
  | .fare_final => nullableCell (fun f => .string (amount f)) r.fareFinal
  | .discount_percent => nullableCell .number r.discountPercent
  | .discount_amount => nullableCell (fun f => .string (amount f)) r.discountAmount
  | .app_fee_amount => nullableCell (fun f => .string (amount f)) r.appFeeAmount
  | .distance_estimated_km => nullableCell .number r.distanceEstimatedKm
  | .duration_estimated_seconds => nullableCell (fun n : ℤ => .number n) r.durationEstimatedSeconds
  | .distance_actual_km => nullableCell .number r.distanceActualKm
  | .payment_url => nullableCell .string r.paymentUrl
  | .payment_status => nullableCell (fun s => .string s.text) r.paymentStatus
  | .note => nullableCell .string r.note
  | .cancel_reason => nullableCell .string r.cancelReason
  | .created_at => .date r.createdAt
  | .updated_at => .date updatedAt
  | .deleted_at => nullableCell .date r.deletedAt

def RideChanges.object (c : RideChanges) : RideObject ℚ
  | .id => idCell c.id
  | .riderId => definedCell idCell c.riderId
  | .driverId => c.driverId.cell idCell
  | .pickupLongitude => definedCell .number c.pickupLongitude
  | .pickupLatitude => definedCell .number c.pickupLatitude
  | .dropoffLongitude => definedCell .number c.dropoffLongitude
  | .dropoffLatitude => definedCell .number c.dropoffLatitude
  | .status => definedCell (fun s => .string s.text) c.status
  | .fareEstimated => c.fareEstimated.cell fun f => .string (amount f)
  | .fareFinal => c.fareFinal.cell fun f => .string (amount f)
  | .discountPercent => c.discountPercent.cell .number
  | .discountAmount => c.discountAmount.cell fun f => .string (amount f)
  | .appFeeAmount => c.appFeeAmount.cell fun f => .string (amount f)
  | .distanceEstimatedKm => c.distanceEstimatedKm.cell .number
  | .durationEstimatedSeconds => c.durationEstimatedSeconds.cell fun n : ℤ => .number n
  | .distanceActualKm => c.distanceActualKm.cell .number
  | .paymentUrl => c.paymentUrl.cell .string
  | .paymentStatus => c.paymentStatus.cell fun s => .string s.text
  | .note => c.note.cell .string
  | .cancelReason => c.cancelReason.cell .string
  | .createdAt | .updatedAt | .deletedAt => .undefined

theorem Ride.cells_wellFormed (r : Ride) (updatedAt : Time) : (plainRides ℚ).WellFormed (r.cells amount updatedAt) := by
  have hnullable {α : Type} {column : RideColumn} {cell : α → RowValue ℚ} (hcell : ∀ a, column.Yields (cell a))
      (hnull : column.nullable = true) (value : Option α) : (plainRides ℚ).Fits column (nullableCell cell value) := by
    cases value with
    | none => exact .inr ⟨rfl, hnull⟩
    | some a => exact .inl (hcell a)
  intro column
  cases column
  case id => exact .inl ⟨_, rfl, Nat.repr_ne_empty⟩
  case rider_id | status => exact .inl ⟨_, rfl⟩
  case pickup_lon | pickup_lat | dropoff_lon | dropoff_lat => exact .inl ⟨_, rfl⟩
  case created_at | updated_at => exact .inl ⟨_, rfl⟩
  all_goals
    refine hnullable (fun a => ?_) rfl _
    exact ⟨_, rfl⟩

theorem RideChanges.object_admitted (c : RideChanges) (p : RideProperty) :
    (plainRides ℚ).Admits p (c.object amount p) := by
  have hvalue {p : RideProperty} {value : RowValue ℚ} (h : p.column.Yields value) : (plainRides ℚ).Admits p value := by
    refine .inr (.inr ⟨value, h, ?_, rfl⟩)
    cases value with
    | undefined => exact absurd rfl h.orNull_eq.1
    | _ => rfl
  have hdefined {α : Type} {p : RideProperty} {cell : α → RowValue ℚ} (hcell : ∀ a, p.column.Yields (cell a))
      (value : Option α) : (plainRides ℚ).Admits p (definedCell cell value) := by
    cases value with
    | none => exact .inl rfl
    | some a => exact hvalue (hcell a)
  have hfield {α : Type} {p : RideProperty} {cell : α → RowValue ℚ} (hcell : ∀ a, p.column.Yields (cell a))
      (hnull : p.column.nullable = true) (value : JsField α) : (plainRides ℚ).Admits p (value.cell cell) := by
    cases value with
    | undefined => exact .inl rfl
    | null => exact .inr (.inl ⟨rfl, hnull⟩)
    | val a => exact hvalue (hcell a)
  cases p
  case id =>
    refine hvalue ?_
    exact ⟨_, rfl, Nat.repr_ne_empty⟩
  case riderId | pickupLongitude | pickupLatitude | dropoffLongitude | dropoffLatitude | status =>
    refine hdefined (fun a => ?_) _
    exact ⟨_, rfl⟩
  case createdAt | updatedAt | deletedAt => exact .inl rfl
  all_goals
    refine hfield (fun a => ?_) rfl _
    exact ⟨_, rfl⟩

section Override

variable {α N : Type}

/-- A value that is not undefined stands in for the current one. -/
def RowValue.over (value current : RowValue N) : RowValue N :=
  match value with
  | .undefined => current
  | value => value

theorem definedCell_over {cell : α → RowValue N} (hcell : ∀ a, (cell a).orNull = cell a ∧ cell a ≠ .undefined)
    (value : Option α) (current : α) :
    ((definedCell cell value).over (cell current)).orNull = cell (value.getD current) := by
  cases value with
  | none => exact (hcell current).1
  | some a =>
    have ha := hcell a
    simp only [definedCell, Option.getD_some]
    cases hvalue : cell a with
    | undefined => exact absurd hvalue ha.2
    | _ => rfl

theorem JsField.cell_over {cell : α → RowValue N} (hcell : ∀ a, (cell a).orNull = cell a ∧ cell a ≠ .undefined)
    (value : JsField α) (current : Option α) :
    ((value.cell cell).over (nullableCell cell current)).orNull = nullableCell cell (value.over current) := by
  cases value with
  | undefined =>
    cases current with
    | none => rfl
    | some a => exact (hcell a).1
  | null => rfl
  | val a =>
    have ha := hcell a
    simp only [JsField.cell, JsField.over, nullableCell]
    cases hvalue : cell a with
    | undefined => exact absurd hvalue ha.2
    | _ => rfl

end Override

/-- The merge of the entities, column by column. -/
theorem override_cells (r : Ride) (c : RideChanges) (updatedAt now : Time) {p : RideProperty} (hp : p.updatable) :
    ((plainRides ℚ).override (r.cells amount updatedAt) (c.object amount) p).orNull =
      (r.writeColumns (mergeRideData r c)).cells amount now p.column := by
  have hover : (plainRides ℚ).override (r.cells amount updatedAt) (c.object amount) p =
      (c.object amount p).over (r.cells amount updatedAt p.column) := rfl
  rw [hover]
  cases p
  case id | createdAt | updatedAt | deletedAt => exact absurd hp (by decide)
  case riderId | pickupLongitude | pickupLatitude | dropoffLongitude | dropoffLatitude | status =>
    refine definedCell_over (fun a => ?_) _ _
    exact ⟨rfl, nofun⟩
  all_goals
    refine JsField.cell_over (fun a => ?_) _ _
    exact ⟨rfl, nofun⟩

/-- The UPDATE of the typed rows is what `updateRide` does to their cells. -/
theorem run_updateRide_cells (js : JsConversions ℚ) (rides : List Ride) (updatedAt : Ride → Time) (now : Time) {r : Ride}
    {c : RideChanges} (hkeys : (rides.map (·.id)).Nodup) (hr : r ∈ rides) (hid : c.id = r.id) :
    ((RideRepository.updateRide js (c.object amount)).run ((plainRides ℚ).handle now)
        (rides.map fun x => x.cells amount (updatedAt x))).2 =
      rides.map fun x => if x.id = r.id then (r.writeColumns (mergeRideData r c)).cells amount now
        else x.cells amount (updatedAt x) := by
  have hnodup : ((rides.map fun x => x.cells amount (updatedAt x)).map (· .id)).Nodup := by
    rw [List.map_map]
    have hmap : ((rides.map (·.id)).map (idCell (N := ℚ))).Nodup := hkeys.map fun a b => idCell_inj
    rwa [List.map_map] at hmap
  have hmem : r.cells amount (updatedAt r) ∈ rides.map fun x => x.cells amount (updatedAt x) := List.mem_map_of_mem hr
  obtain ⟨written, hwritten, -, -, hrun⟩ := RideRepository.run_updateRide (plainRides ℚ) js now hnodup hmem
    (r.cells_wellFormed amount _) (congrArg idCell hid) fun p _ => c.object_admitted amount p
  have hcells : written = (r.writeColumns (mergeRideData r c)).cells amount now := by
    funext column
    cases hcolumn : column.property.updatable with
    | true =>
      have hvalue := hwritten.override _ hcolumn
      rw [override_cells amount r c _ now hcolumn, column.column_property] at hvalue
      exact hvalue
    | false =>
      cases column
      case id => exact hwritten.id
      case created_at => exact hwritten.created_at
      case updated_at => exact hwritten.updated_at
      case deleted_at => exact hwritten.deleted_at
      all_goals exact absurd hcolumn (by decide)
  rw [hrun, hcells, List.map_map]
  refine List.map_congr_left fun x _ => ?_
  have hiff : x.cells amount (updatedAt x) .id = r.cells amount (updatedAt r) .id ↔ x.id = r.id :=
    ⟨fun h => idCell_inj h, congrArg idCell⟩
  simp only [Function.comp_apply, hiff]

end NebLite
