import NebLite.Rides.RideColumns

/-! `updateRide` overrides a ride field by field: every property that the argument defines gets
its value, every other one keeps what is stored. -/

namespace NebLite

open Atomic

/-- What the driver hands out of a column that is not NULL: a bigint, a numeric, a text or an enum as
a string, a double or an integer as a number, a timestamp as a date. -/
def RideColumn.Yields {N : Type} (column : RideColumn) (value : RowValue N) : Prop :=
  match column with
  | id => ∃ s, value = .string s ∧ s ≠ ""
  | status => ∃ status : ERideStatus, value = .string status.text
  | rider_id | driver_id | fare_estimated | fare_final | discount_amount | app_fee_amount | payment_url
  | payment_status | note | cancel_reason => ∃ s, value = .string s
  | pickup_lon | pickup_lat | dropoff_lon | dropoff_lat | discount_percent | distance_estimated_km
  | duration_estimated_seconds | distance_actual_km => ∃ n, value = .number n
  | created_at | updated_at | deleted_at => ∃ t, value = .date t

/-- PostgreSQL and its driver for the table `rides`. A column holds values of its type, which are
among `C`, or NULL. -/
structure RidesTable (N C : Type) where
  null : C
  ofTime : Time → C
  Holds : RideColumn → C → Prop
  /-- A parameter as the value of a column; the statement fails where there is none. -/
  store : RideColumn → RowValue N → Option C
  /-- What the driver hands out of a column. -/
  read : RideColumn → C → RowValue N
  holds_ofTime : ∀ t, Holds .updated_at (ofTime t)
  read_null : ∀ column, read column null = .null
  store_null : ∀ column, column.nullable → store column .null = some null
  read_yields : ∀ (column : RideColumn) c, Holds column c → column.Yields (read column c)
  /-- What was read from a column that `updateRide` names can be written to it again. -/
  store_read : ∀ property : RideProperty, property.updatable ∨ property = .id → ∀ c, Holds property.column c →
    store property.column (read property.column c) = some c

/-- A row of `rides`. -/
abbrev RowCells (C : Type) := RideColumn → C

namespace RidesTable

variable {N C : Type} (pg : RidesTable N C)

/-- The row as the driver hands it out. -/
def object (row : RowCells C) : RowObject N where
  column column := pg.read column (row column)
  property _ := .undefined

/-- The values of the SET clause, unless the statement fails. -/
def assigned (parameters : List (RowValue N)) : Option (List (RideColumn × C)) :=
  RideRepository.assignments.mapM fun (column, n) => do
    let parameter ← parameters[n - 1]?
    let value ← pg.store column parameter
    return (column, value)

def updateRow (values : List (RideColumn × C)) (now : Time) (row : RowCells C) : RowCells C :=
  fun column => (values.lookup column).getD (if column = .updated_at then pg.ofTime now else row column)

/-- The value is one of the column, or NULL where the column may be. -/
def Fits (column : RideColumn) (c : C) : Prop := pg.Holds column c ∨ c = pg.null ∧ column.nullable = true

def WellFormed (row : RowCells C) : Prop := ∀ column, pg.Fits column (row column)

/-- The property is undefined, null where its column may be, or a value that its column stores exactly. -/
def Admits (p : RideProperty) (value : RowValue N) : Prop :=
  value = .undefined ∨ value = .null ∧ p.column.nullable = true ∨
    ∃ c, pg.Holds p.column c ∧ pg.store p.column value = some c ∧ pg.read p.column c = value

/-- What `updateRide` is to make of a property: the value of the argument, or else the stored one. -/
def override (row : RowCells C) (ride : RideObject N) (p : RideProperty) : RowValue N :=
  match ride p with
  | .undefined => pg.read p.column (row p.column)
  | value => value

/-- The queries in a table with one row for each id. -/
def handle [DecidableEq C] (now : Time) : Handler (RidesQuery N) RidesQuery.Answer ServiceError (List (RowCells C))
  | .findById id, rows =>
    match pg.store .id id with
    | none => (.error (.error "invalid input syntax for type bigint"), rows)
    | some key => (.ok ((rows.filter fun row => row .id = key).take 1 |>.map pg.object), rows)
  | .updateRide parameters, rows =>
    match (parameters[0]?).bind (pg.store .id), pg.assigned parameters with
    | some key, some values =>
      (.ok ((rows.filter fun row => row .id = key).map fun row => pg.read .id (row .id),
          rows.countP fun row => row .id = key),
        rows.map fun row => if row .id = key then pg.updateRow values now row else row)
    | _, _ => (.error (.error "the UPDATE of rides fails"), rows)

end RidesTable

section Values

variable {N : Type} {js : JsConversions N}

theorem RideColumn.Yields.ne_null {column : RideColumn} {value : RowValue N} (h : column.Yields value) :
    value ≠ .null := by
  cases column
  case id =>
    obtain ⟨s, rfl, -⟩ := h
    exact nofun
  all_goals
    obtain ⟨x, rfl⟩ := h
    exact nofun

theorem RideColumn.Yields.orNull_eq {column : RideColumn} {value : RowValue N} (h : column.Yields value) :
    value ≠ .undefined ∧ value.orNull = value := by
  cases column
  case id =>
    obtain ⟨s, rfl, -⟩ := h
    exact ⟨nofun, rfl⟩
  all_goals
    obtain ⟨x, rfl⟩ := h
    exact ⟨nofun, rfl⟩

theorem RowValue.orNull_of_ne {value : RowValue N} (h : value.orNull ≠ .null) : value.orNull = value := by
  cases value with
  | undefined => exact absurd rfl h
  | _ => rfl

/-- The table that keeps every value as the driver hands it out. -/
def plainRides (N : Type) : RidesTable N (RowValue N) where
  null := .null
  ofTime := .date
  Holds := RideColumn.Yields
  store _ value :=
    match value with
    | .undefined => none
    | value => some value
  read _ value := value
  holds_ofTime t := ⟨t, rfl⟩
  read_null _ := rfl
  store_null _ _ := rfl
  read_yields _ _ h := h
  store_read _ _ value h := by
    have hne := h.orNull_eq.1
    cases value with
    | undefined => exact absurd rfl hne
    | _ => rfl

end Values

namespace RideRepository

section Values

variable {N : Type} (js : JsConversions N)

/-- The row mapper hands on what the driver gives, up to `undefined` for a column that is NULL. -/
theorem mapRideRow_column {f : RideColumn → RowValue N}
    (hf : ∀ column, column.nullable ∧ f column = .null ∨ column.Yields (f column)) (p : RideProperty) :
    (mapRideRow js ⟨f, fun _ => .undefined⟩ p).orNull = f p.column := by
  have hp := hf p.column
  cases p
  all_goals
    simp only [RideProperty.column, RideColumn.nullable, RideColumn.Yields, Bool.false_eq_true, false_and, false_or,
      true_and] at hp
  case status =>
    obtain ⟨status, hs⟩ := hp
    simp [mapRideRow, RideProperty.column, hs, normalizeStatus_text, RowValue.coalesce, RowValue.orNull]
  case id =>
    obtain ⟨s, hs, -⟩ := hp
    simp [mapRideRow, RideProperty.column, hs, RowValue.coalesce, RowValue.orNull, RowValue.toString?]
  case riderId | pickupLongitude | pickupLatitude | dropoffLongitude | dropoffLatitude | createdAt | updatedAt =>
    obtain ⟨x, hx⟩ := hp
    simp [mapRideRow, RideProperty.column, hx, RowValue.coalesce, RowValue.orNull, RowValue.toString?,
      RowValue.numberOr, RowValue.dateOr]
  all_goals
    obtain hx | ⟨x, hx⟩ := hp
    all_goals
      simp [mapRideRow, RideProperty.column, hx, RowValue.coalesce, RowValue.orNull, RowValue.toString?,
        RowValue.numberOr, RowValue.dateOr]

/-- The parameter that a property becomes. -/
def parameterOf (ride : RideObject N) (p : RideProperty) : RowValue N :=
  if p.column.nullable then (ride p).coalesce .null else ride p

/-- Every assignment of the UPDATE takes the parameter of the property of its column. -/
theorem assignments_parameter (value : RowValue N) (ride : RideObject N) :
    ∀ x ∈ assignments, ∃ p : RideProperty, p.updatable ∧ p.column = x.1 ∧
      (value :: extractRideParams ride)[x.2 - 1]? = some (parameterOf ride p) := by
  simp only [assignments, List.forall_mem_cons, List.not_mem_nil, false_imp_iff, implies_true, and_true]
  exact ⟨⟨.riderId, rfl, rfl, rfl⟩, ⟨.driverId, rfl, rfl, rfl⟩, ⟨.pickupLongitude, rfl, rfl, rfl⟩,
    ⟨.pickupLatitude, rfl, rfl, rfl⟩, ⟨.dropoffLongitude, rfl, rfl, rfl⟩, ⟨.dropoffLatitude, rfl, rfl, rfl⟩,
    ⟨.status, rfl, rfl, rfl⟩, ⟨.fareEstimated, rfl, rfl, rfl⟩, ⟨.fareFinal, rfl, rfl, rfl⟩,
    ⟨.discountPercent, rfl, rfl, rfl⟩, ⟨.discountAmount, rfl, rfl, rfl⟩, ⟨.appFeeAmount, rfl, rfl, rfl⟩,
    ⟨.distanceEstimatedKm, rfl, rfl, rfl⟩, ⟨.durationEstimatedSeconds, rfl, rfl, rfl⟩,
    ⟨.distanceActualKm, rfl, rfl, rfl⟩, ⟨.paymentUrl, rfl, rfl, rfl⟩, ⟨.paymentStatus, rfl, rfl, rfl⟩,
    ⟨.note, rfl, rfl, rfl⟩, ⟨.cancelReason, rfl, rfl, rfl⟩⟩

end Values

section Update

variable {N C : Type} (pg : RidesTable N C) (js : JsConversions N) {row : RowCells C} {ride : RideObject N}
  {p : RideProperty}

theorem mapRideRow_object (hrow : pg.WellFormed row) (p : RideProperty) :
    (mapRideRow js (pg.object row) p).orNull = pg.read p.column (row p.column) := by
  refine mapRideRow_column js (fun column => ?_) p
  obtain hc | ⟨hnull, hnullable⟩ := hrow column
  · exact .inr (pg.read_yields column _ hc)
  · exact .inl ⟨hnullable, by rw [hnull, pg.read_null]⟩

/-- The value that the UPDATE gives the column of a property. -/
theorem exists_assigned (hrow : pg.WellFormed row) (hp : p.updatable) (hadmits : pg.Admits p (ride p)) :
    ∃ c, pg.store p.column (parameterOf (mergeRideData (mapRideRow js (pg.object row)) ride) p) = some c ∧
      pg.read p.column c = (pg.override row ride p).orNull ∧ pg.Fits p.column c := by
  -- a property that is not null becomes a parameter as it is
  have hkept {value : RowValue N} (hvalue : value.orNull = value) :
      (if p.column.nullable then value.coalesce .null else value) = value := by
    split
    · exact hvalue
    · rfl
  have hcurrent := mapRideRow_object pg js hrow p
  unfold parameterOf mergeRideData RidesTable.override
  obtain hundefined | ⟨hnull, hnullable⟩ | ⟨c, hc, hstore, hread⟩ := hadmits
  · rw [hundefined]
    obtain hc | ⟨hc, hnullable⟩ := hrow p.column
    · have hyields := pg.read_yields p.column _ hc
      have hread := hyields.orNull_eq.2
      have hvalue : mapRideRow js (pg.object row) p = pg.read p.column (row p.column) := by
        rw [← hcurrent, RowValue.orNull_of_ne]
        rw [hcurrent]
        exact hyields.ne_null
      simp only [hvalue, hkept hread]
      exact ⟨row p.column, pg.store_read p (.inl hp) _ hc, hread.symm, .inl hc⟩
    · rw [hc, pg.read_null] at hcurrent ⊢
      simp only [if_pos hnullable]
      refine ⟨pg.null, ?_, pg.read_null _, .inr ⟨rfl, hnullable⟩⟩
      exact (congrArg (pg.store p.column) hcurrent).trans (pg.store_null _ hnullable)
  · rw [hnull]
    simp only [if_pos hnullable]
    exact ⟨pg.null, pg.store_null _ hnullable, pg.read_null _, .inr ⟨rfl, hnullable⟩⟩
  · have hyields := hread ▸ pg.read_yields p.column c hc
    have hvalue := hyields.orNull_eq
    cases hv : ride p with
    | undefined => exact absurd hv hvalue.1
    | _ =>
      simp only
      rw [hkept (hv ▸ hvalue.2), ← hv, hstore]
      exact ⟨c, rfl, hread.trans hvalue.2.symm, .inl hc⟩

theorem mapM_eq_some {α β : Type} {l : List α} {f : α → Option β} {g : α → β} (h : ∀ a ∈ l, f a = some (g a)) :
    l.mapM f = some (l.map g) := by
  induction l with
  | nil => rfl
  | cons a l ih =>
    rw [List.mapM_cons, h a List.mem_cons_self, ih fun b hb => h b (List.mem_cons_of_mem a hb)]
    rfl

/-- The row that the UPDATE makes of `row`. -/
theorem exists_updateRow (hrow : pg.WellFormed row) (hadmits : ∀ p, p.updatable → pg.Admits p (ride p)) (now : Time)
    (value : RowValue N) :
    ∃ values, pg.assigned (value :: extractRideParams (mergeRideData (mapRideRow js (pg.object row)) ride)) = some values ∧
      (∀ row, pg.updateRow values now row .id = row .id ∧
        pg.updateRow values now row .created_at = row .created_at ∧
        pg.updateRow values now row .deleted_at = row .deleted_at ∧
        pg.updateRow values now row .updated_at = pg.ofTime now) ∧
      pg.WellFormed (pg.updateRow values now row) ∧
      ∀ p, p.updatable → pg.read p.column (pg.updateRow values now row p.column) = (pg.override row ride p).orNull := by
  have hcell (p : RideProperty) : ∃ c, p.updatable →
      pg.store p.column (parameterOf (mergeRideData (mapRideRow js (pg.object row)) ride) p) = some c ∧
      pg.read p.column c = (pg.override row ride p).orNull ∧ pg.Fits p.column c := by
    by_cases hp : p.updatable = true
    · obtain ⟨c, hc⟩ := exists_assigned pg js hrow hp (hadmits p hp)
      exact ⟨c, fun _ => hc⟩
    · exact ⟨pg.null, fun h => absurd h hp⟩
  choose cell hcell using hcell
  have hlookup (p : RideProperty) (hp : p.updatable) :
      (assignments.map fun x => (x.1, cell x.1.property)).lookup p.column = some (cell p) := by
    cases p <;> first | rfl | cases hp
  refine ⟨assignments.map fun x => (x.1, cell x.1.property), ?_, fun row => ⟨rfl, rfl, rfl, rfl⟩, ?_, ?_⟩
  · refine mapM_eq_some fun x hx => ?_
    obtain ⟨p, hp, hcolumn, hparameter⟩ := assignments_parameter value
      (mergeRideData (mapRideRow js (pg.object row)) ride) x hx
    obtain ⟨column, n⟩ := x
    simp only at hcolumn hparameter ⊢
    rw [hparameter, ← hcolumn, p.property_column]
    simp [(hcell p hp).1]
  · intro column
    by_cases hp : column.property.updatable = true
    · rw [← column.column_property, RidesTable.updateRow, hlookup _ hp]
      exact (hcell _ hp).2.2
    · cases column
      case id => exact hrow .id
      case created_at => exact hrow .created_at
      case updated_at => exact .inl (pg.holds_ofTime now)
      case deleted_at => exact hrow .deleted_at
      all_goals exact absurd rfl hp
  · intro p hp
    rw [RidesTable.updateRow, hlookup p hp]
    exact (hcell p hp).2.1

variable [DecidableEq C]

theorem run_query (q : RidesQuery N) (now : Time) (rows : List (RowCells C)) :
    (query q).run (pg.handle now) rows = pg.handle now q rows := Program.run_perform _ _ _

theorem run_findById {id : RowValue N} {key : C} (hkey : pg.store .id id = some key) (now : Time)
    (rows : List (RowCells C)) : (findById js id).run (pg.handle now) rows =
      (.ok ((rows.find? fun row => row .id = key).map fun row => mapRideRow js (pg.object row)), rows) := by
  unfold findById
  rw [Program.run_bind, run_query]
  simp only [RidesTable.handle, hkey]
  rw [← List.head?_filter]
  cases rows.filter fun row => row .id = key with
  | nil => rfl
  | cons row rest => rfl

/-- The row `written` is what `updateRide` leaves of `row`. -/
structure Overrides (row : RowCells C) (ride : RideObject N) (now : Time) (written : RowCells C) : Prop where
  wellFormed : pg.WellFormed written
  override : ∀ p, p.updatable → pg.read p.column (written p.column) = (pg.override row ride p).orNull
  id : written .id = row .id
  created_at : written .created_at = row .created_at
  deleted_at : written .deleted_at = row .deleted_at
  updated_at : written .updated_at = pg.ofTime now

/-- The primary key identifies a row. -/
theorem find?_key {rows : List (RowCells C)} (hkeys : (rows.map (· .id)).Nodup) (hmem : row ∈ rows) :
    (rows.find? fun x => x .id = row .id) = some row := by
  cases hrows : rows.find? fun x => x .id = row .id with
  | none => exact absurd (List.find?_eq_none.mp hrows row hmem) (by simp)
  | some x =>
    have hmatches : x .id = row .id := by simpa using List.find?_some hrows
    rw [List.inj_on_of_nodup_map hkeys (List.mem_of_find?_eq_some hrows) hmem hmatches]

/-- The ids are those of the primary key, and the argument has the id of `row`. -/
theorem run_updateRide {rows : List (RowCells C)} (now : Time) (hkeys : (rows.map (· .id)).Nodup) (hmem : row ∈ rows)
    (hrow : pg.WellFormed row) (hid : ride .id = pg.read .id (row .id))
    (hadmits : ∀ p, p.updatable → pg.Admits p (ride p)) :
    ∃ written, Overrides pg row ride now written ∧ pg.store .id (ride .id) = some (row .id) ∧
      ((rows.map fun x => if x .id = row .id then written else x).find? fun x => x .id = row .id) = some written ∧
      (updateRide js ride).run (pg.handle now) rows = (.ok (mapRideRow js (pg.object written)),
        rows.map fun x => if x .id = row .id then written else x) := by
  have hidentified : ∀ x ∈ rows, x .id = row .id → x = row := fun x hx he =>
    List.inj_on_of_nodup_map hkeys hx hmem he
  have hholds : pg.Holds .id (row .id) := (hrow .id).resolve_right fun h => Bool.false_ne_true h.2
  obtain ⟨text, htext, hnonempty⟩ := pg.read_yields .id _ hholds
  have hkey : pg.store .id (ride .id) = some (row .id) := by
    rw [hid]
    exact pg.store_read .id (.inr rfl) _ hholds
  have hfind := find?_key hkeys hmem
  obtain ⟨values, hvalues, hkept, hwritten, hoverride⟩ := exists_updateRow pg js hrow hadmits now (ride .id)
  obtain ⟨hsame, hcreated, hdeleted, hupdated⟩ := hkept row
  generalize hw : pg.updateRow values now row = written at hwritten hoverride hsame hcreated hdeleted hupdated
  refine ⟨written, ⟨hwritten, hoverride, hsame, hcreated, hdeleted, hupdated⟩, hkey, ?_⟩
  generalize hrows : rows.map (fun x => if x .id = row .id then written else x) = rows'
  have hfind' : (rows'.find? fun x => x .id = row .id) = some written := by
    have hcomp : ((fun x : RowCells C => decide (x .id = row .id)) ∘
        fun x => if x .id = row .id then written else x) = fun x => decide (x .id = row .id) := by
      funext x
      simp only [Function.comp_apply]
      split
      · next he => simp [hsame, he]
      · rfl
    rw [← hrows, List.find?_map, hcomp, hfind]
    simp
  refine ⟨hfind', ?_⟩
  have htruthy : (ride .id).truthy js = true := by
    rw [hid, htext]
    simpa [RowValue.truthy] using hnonempty
  have hmerged : mergeRideData (mapRideRow js (pg.object row)) ride .id = ride .id := by
    rw [mergeRideData, hid, htext]
  have hupdate : pg.handle now (.updateRide (mergeRideData (mapRideRow js (pg.object row)) ride .id ::
      extractRideParams (mergeRideData (mapRideRow js (pg.object row)) ride))) rows =
      (.ok ((rows.filter fun x => x .id = row .id).map fun x => pg.read .id (x .id),
        rows.countP fun x => x .id = row .id), rows') := by
    simp only [RidesTable.handle, hmerged, List.getElem?_cons_zero, Option.bind_some, hkey, hvalues]
    rw [← hrows, ← hw]
    congr 1
    refine List.map_congr_left fun x hx => ?_
    split
    · next he => rw [hidentified x hx he]
    · rfl
  have hread := run_findById pg js hkey now rows'
  rw [hfind'] at hread
  unfold updateRide
  simp only [htruthy, Bool.not_true, Bool.false_eq_true, if_false]
  rw [Program.run_bind_ok _ (run_findById pg js hkey now rows), hfind]
  simp only [Option.map_some, hmerged]
  rw [Program.run_bind, run_query, hupdate]
  simp only [UpdatedRides.length, Nat.reduceEqDiff, if_false]
  rw [Program.run_bind_ok _ hread]
  rfl

end Update

end RideRepository

open RideRepository

variable {N C : Type} [DecidableEq C]

/-- `updateRide` writes what the argument defines and keeps the rest, in the ride that it returns and in
what is read after it. -/
theorem updateRide_overrides (pg : RidesTable N C) (js : JsConversions N) (rows : List (RowCells C))
    (stored : RowCells C) (ride : RideObject N) (now later : Time) (hkeys : (rows.map (· .id)).Nodup)
    (hstored : stored ∈ rows) (hrow : pg.WellFormed stored) (hid : ride .id = pg.read .id (stored .id))
    (hadmits : ∀ p, p.updatable → pg.Admits p (ride p)) :
    ∃ (result : RideObject N) (written : RowCells C) (rows' : List (RowCells C)),
      rows' = rows.map (fun row => if row .id = stored .id then written else row) ∧
      (RideRepository.updateRide js ride).run (pg.handle now) rows = (.ok result, rows') ∧
      (RideRepository.findById js (ride .id)).run (pg.handle later) rows' = (.ok (some result), rows') ∧
      (∀ p, p.updatable → (result p).orNull = (pg.override stored ride p).orNull) ∧
      result .createdAt = mapRideRow js (pg.object stored) .createdAt ∧
      result .deletedAt = mapRideRow js (pg.object stored) .deletedAt ∧
      written .created_at = stored .created_at ∧ written .deleted_at = stored .deleted_at := by
  obtain ⟨written, hwritten, hkey, hfind, hrun⟩ := run_updateRide pg js now hkeys hstored hrow hid hadmits
  refine ⟨mapRideRow js (pg.object written), written, _, rfl, hrun, ?_, fun p hp => ?_, ?_, ?_,
    hwritten.created_at, hwritten.deleted_at⟩
  · rw [run_findById pg js hkey later, hfind]
    rfl
  · rw [mapRideRow_object pg js hwritten.wellFormed]
    exact hwritten.override p hp
  · simp only [mapRideRow, RidesTable.object, hwritten.created_at]
  · simp only [mapRideRow, RidesTable.object, hwritten.deleted_at]

/-- A ride on its way, and the update that completes it and takes its note back. -/
def rowEnroute : RowCells (RowValue ℤ)
  | .id => .string "7"
  | .rider_id => .string "3"
  | .driver_id => .string "5"
  | .pickup_lon => .number 106
  | .pickup_lat => .number (-6)
  | .dropoff_lon => .number 107
  | .dropoff_lat => .number (-7)
  | .status => .string ERideStatus.enroute.text
  | .fare_estimated => .string "12000.00"
  | .note => .string "at the gate"
  | .created_at => .date 10
  | .updated_at => .date 20
  | _ => .null

def changesCompleted : RideObject ℤ
  | .id => .string "7"
  | .status => .string ERideStatus.completed.text
  | .fareFinal => .string "13500.00"
  | .note => .null
  | _ => .undefined

theorem rowEnroute_wellFormed : (plainRides ℤ).WellFormed rowEnroute := by
  intro column
  cases column
  case id => exact .inl ⟨"7", rfl, by decide⟩
  case rider_id | driver_id | fare_estimated | note => exact .inl ⟨_, rfl⟩
  case pickup_lon | pickup_lat | dropoff_lon | dropoff_lat => exact .inl ⟨_, rfl⟩
  case status => exact .inl ⟨.enroute, rfl⟩
  case created_at | updated_at => exact .inl ⟨_, rfl⟩
  all_goals exact .inr ⟨rfl, rfl⟩

theorem changesCompleted_admitted (p : RideProperty) : (plainRides ℤ).Admits p (changesCompleted p) := by
  cases p
  case id => exact .inr (.inr ⟨_, ⟨"7", rfl, by decide⟩, rfl, rfl⟩)
  case status => exact .inr (.inr ⟨_, ⟨.completed, rfl⟩, rfl, rfl⟩)
  case fareFinal => exact .inr (.inr ⟨_, ⟨"13500.00", rfl⟩, rfl, rfl⟩)
  case note => exact .inr (.inl ⟨rfl, rfl⟩)
  all_goals exact .inl rfl

def intConversions : JsConversions ℤ where
  number s := s.toInt?.getD 0
  text n := toString n
  truthy n := n != 0
  dateText t := toString t
  dateNumber t := t
  parseDate s := s.toNat?.getD 0
  dateOf n := n.toNat

theorem updateRide_overrides_completed : ∃ (result : RideObject ℤ) (written : RowCells (RowValue ℤ)),
    (RideRepository.updateRide intConversions changesCompleted).run ((plainRides ℤ).handle 30)
        [rowEnroute, Function.update rowEnroute .id (.string "8")] =
      (.ok result, [written, Function.update rowEnroute .id (.string "8")]) ∧
    (RideRepository.findById intConversions (.string "7")).run ((plainRides ℤ).handle 40)
        [written, Function.update rowEnroute .id (.string "8")] =
      (.ok (some result), [written, Function.update rowEnroute .id (.string "8")]) ∧
    (result .status).orNull = .string "completed" ∧ (result .fareFinal).orNull = .string "13500.00" ∧
    (result .note).orNull = .null ∧ (result .fareEstimated).orNull = .string "12000.00" ∧
    result .createdAt = .date 10 ∧ written .created_at = .date 10 := by
  obtain ⟨result, written, rows', hrows, hrun, hread, hoverride, hcreated, -, hwritten, -⟩ :=
    updateRide_overrides (plainRides ℤ) intConversions
      [rowEnroute, Function.update rowEnroute .id (.string "8")] rowEnroute changesCompleted 30 40 (by decide)
      List.mem_cons_self rowEnroute_wellFormed rfl fun p _ => changesCompleted_admitted p
  have hother : (if Function.update rowEnroute .id (.string "8") .id = rowEnroute .id then written
      else Function.update rowEnroute .id (.string "8")) = Function.update rowEnroute .id (.string "8") :=
    if_neg (by decide)
  rw [List.map_cons, if_pos rfl, List.map_cons, hother, List.map_nil] at hrows
  subst hrows
  exact ⟨result, written, hrun, hread, hoverride .status rfl, hoverride .fareFinal rfl, hoverride .note rfl,
    hoverride .fareEstimated rfl, hcreated, hwritten⟩

end NebLite
