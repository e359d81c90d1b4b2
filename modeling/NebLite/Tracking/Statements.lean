import NebLite.Tracking.TripTracking
import NebLite.Atomic.SqlText

/-! The two INSERT statements of `persistFlush`, as texts with their parameters. -/

namespace NebLite

open Atomic Atomic.SqlText

/-- A parameter of a statement; `json` stands for the text that `JSON.stringify` writes. -/
inductive SqlValue where
  | id (id : Id)
  | role (role : EClientType)
  | number (q : ℚ)
  | date (recordedAt : String)
  | json (payload : ParticipantLocation)
  | null
  deriving DecidableEq

/-- The cast `value::type` in PostgreSQL, for the one type that the statements use. -/
def SqlValue.cast (type : List Char) : SqlValue → Option SqlValue
  | .json payload => if type = "jsonb".toList then some (.json payload) else none
  | .null => some .null
  | _ => none

/-- `value ?? null`. -/
def SqlValue.orNull {α : Type} (f : α → SqlValue) (value : Option α) : SqlValue :=
  (value.map f).getD .null

theorem SqlValue.cast_jsonb {payload : Option ParticipantLocation} :
    SqlValue.cast "jsonb".toList (SqlValue.orNull .json payload) = some (SqlValue.orNull .json payload) := by
  cases payload <;> rfl

/-- The properties of a `TripTrack` that its repository writes. -/
structure TripTrackEntry where
  rideId : Id
  clientId : Id
  clientRole : EClientType
  longitude : ℚ
  latitude : ℚ
  distanceDeltaMeters : ℚ
  totalDistanceMeters : Option ℚ
  recordedAt : String

structure TripSummaryEntry where
  rideId : Id
  clientId : Id
  clientRole : EClientType
  locationPayload : Option ParticipantLocation
  totalDistanceMeters : Option ℚ

def buildInsertManyStatement (entries : List TripTrackEntry) : SqlStatement SqlValue :=
  let valueColumns := 8
  let values := entries.mapIdx fun index _ =>
    let offset := index * valueColumns
    s!"(${offset + 1}, ${offset + 2}, ${offset + 3}, ${offset + 4}, ${offset + 5}, ${offset + 6}, ${offset + 7}, ${offset + 8})"
  let parameters := entries.flatMap fun entry =>
    [.id entry.rideId, .id entry.clientId, .role entry.clientRole, .number entry.longitude,
      .number entry.latitude, .number entry.distanceDeltaMeters,
      SqlValue.orNull .number entry.totalDistanceMeters, .date entry.recordedAt]
  let sql := "\n      INSERT INTO trip_track " ++ "(" ++
    "
        ride_id,
        client_id,
        client_role,
        longitude,
        latitude,
        distance_delta_meters,
        total_distance_meters,
        recorded_at
      " ++ ") VALUES " ++ String.intercalate ", " values ++ "\n    "
  { sql, parameters }

/-- The query of `upsertSummaries`, where it makes one. -/
def upsertSummaries (summaries : List TripSummaryEntry) : Option (SqlStatement SqlValue) :=
  if summaries.isEmpty then none
  else
    let valueColumns := 5
    let values := summaries.mapIdx fun index _ =>
      let offset := index * valueColumns
      s!"(${offset + 1}, ${offset + 2}, ${offset + 3}, ${offset + 4}::jsonb, ${offset + 5})"
    let parameters := summaries.flatMap fun summary =>
      [.id summary.rideId, .id summary.clientId, .role summary.clientRole,
        SqlValue.orNull .json summary.locationPayload,
        SqlValue.orNull .number summary.totalDistanceMeters]
    let sql := "\n      INSERT INTO trip_summary " ++ "(" ++
      "
        ride_id,
        client_id,
        client_role,
        location_payload,
        total_distance_meters
      " ++ ") VALUES " ++ String.intercalate ", " values ++
      "
      ON CONFLICT (ride_id, client_role)
      DO UPDATE SET
        client_id = EXCLUDED.client_id,
        location_payload = EXCLUDED.location_payload,
        total_distance_meters = EXCLUDED.total_distance_meters,
        updated_at = NOW()
    "
    some { sql, parameters }

/-- The row of `trip_track` that an entry is to become, in the order of its columns. -/
def TripTrackEntry.values (entry : TripTrackEntry) : List SqlValue :=
  [.id entry.rideId, .id entry.clientId, .role entry.clientRole, .number entry.longitude,
    .number entry.latitude, .number entry.distanceDeltaMeters,
    SqlValue.orNull .number entry.totalDistanceMeters, .date entry.recordedAt]

def TripSummaryEntry.values (summary : TripSummaryEntry) : List SqlValue :=
  [.id summary.rideId, .id summary.clientId, .role summary.clientRole,
    SqlValue.orNull .json summary.locationPayload, SqlValue.orNull .number summary.totalDistanceMeters]

set_option maxRecDepth 2000 in
theorem insertMany_rows {entries : List TripTrackEntry} (hne : entries ≠ []) :
    placeholders (buildInsertManyStatement entries).sql.toList = List.range' 1 (8 * entries.length) ∧
      (buildInsertManyStatement entries).insertion SqlValue.cast = some
        (["ride_id", "client_id", "client_role", "longitude", "latitude", "distance_delta_meters",
          "total_distance_meters", "recorded_at"], entries.map fun entry => entry.values.map some) := by
  have hrow : ∀ offset, (s!"(${offset + 1}, ${offset + 2}, ${offset + 3}, ${offset + 4}, ${offset + 5}, ${offset + 6}, ${offset + 7}, ${offset + 8})").toList =
      tupleText ((List.replicate 8 ([] : List Char)).mapIdx fun j type => ⟨offset + j + 1, type⟩) := by
    intro offset
    simp [tupleText, Cell.text, String.toList_append, List.intercalate_cons_cons, toString_string]
  have h := SqlStatement.insertion_eq SqlValue.cast (List.replicate 8 [])
    (s := buildInsertManyStatement entries) hne (by simp) (by simp) (fun _ _ => rfl)
    (by rw [String.toList_ofList]; decide) (by rw [String.toList_ofList]; decide) (by decide)
    (values_layout hrow) rfl rfl
  refine ⟨h.1, h.2.trans ?_⟩
  rw [String.toList_ofList]
  rfl

set_option maxRecDepth 2000 in
theorem upsertSummaries_rows {summaries : List TripSummaryEntry} (hne : summaries ≠ []) :
    ∃ upsert, upsertSummaries summaries = some upsert ∧
      upsert.parameters = summaries.flatMap TripSummaryEntry.values ∧
      placeholders upsert.sql.toList = List.range' 1 (5 * summaries.length) ∧
      upsert.insertion SqlValue.cast = some
        (["ride_id", "client_id", "client_role", "location_payload", "total_distance_meters"],
        summaries.map fun summary => summary.values.map some) := by
  have hrow : ∀ offset, (s!"(${offset + 1}, ${offset + 2}, ${offset + 3}, ${offset + 4}::jsonb, ${offset + 5})").toList =
      tupleText ([[], [], [], "jsonb".toList, []].mapIdx fun j type => ⟨offset + j + 1, type⟩) := by
    intro offset
    simp [tupleText, Cell.text, String.toList_append, List.intercalate_cons_cons, toString_string]
  refine ⟨_, if_neg (by simpa using hne), rfl, ?_⟩
  refine And.imp id (fun h => h.trans ?_) (SqlStatement.insertion_eq SqlValue.cast
    [[], [], [], "jsonb".toList, []] hne (by simp) (by simp) (fun _ _ => rfl)
    (by rw [String.toList_ofList]; decide) (by rw [String.toList_ofList]; decide)
    (by rw [String.toList_ofList]; decide) (values_layout hrow) rfl rfl)
  have hvalues : summaries.map (fun summary => List.zipWith
      (fun type v => if type = [] then some v else SqlValue.cast type v)
      [[], [], [], "jsonb".toList, []] summary.values) = summaries.map fun summary => summary.values.map some :=
    List.map_congr_left fun summary _ => by
      simpa [TripSummaryEntry.values] using SqlValue.cast_jsonb
  rw [String.toList_ofList]
  exact congrArg (fun rows => some (_, rows)) hvalues

/-- The parameters of either statement are referred to in order, each once, and row by
row and column by column the VALUES list is the list of the entries' fields. -/
theorem flush_statements_positional {entries : List TripTrackEntry} {summaries : List TripSummaryEntry}
    (he : entries ≠ []) (hs : summaries ≠ []) :
    (placeholders (buildInsertManyStatement entries).sql.toList = List.range' 1 (8 * entries.length) ∧
      (buildInsertManyStatement entries).parameters.length = 8 * entries.length ∧
      (buildInsertManyStatement entries).insertion SqlValue.cast = some
        (["ride_id", "client_id", "client_role", "longitude", "latitude", "distance_delta_meters",
          "total_distance_meters", "recorded_at"], entries.map fun entry => entry.values.map some)) ∧
    ∃ upsert, upsertSummaries summaries = some upsert ∧
      placeholders upsert.sql.toList = List.range' 1 (5 * summaries.length) ∧
      upsert.parameters.length = 5 * summaries.length ∧
      upsert.insertion SqlValue.cast = some
        (["ride_id", "client_id", "client_role", "location_payload", "total_distance_meters"],
        summaries.map fun summary => summary.values.map some) := by
  obtain ⟨hplaces, hrows⟩ := insertMany_rows he
  obtain ⟨upsert, hupsert, hparameters', hplaces', hrows'⟩ := upsertSummaries_rows hs
  have hparameters : (buildInsertManyStatement entries).parameters = entries.flatMap TripTrackEntry.values := rfl
  have hcount : (buildInsertManyStatement entries).parameters.length = 8 * entries.length := by
    rw [hparameters, List.length_flatMap]
    simp [TripTrackEntry.values, Nat.mul_comm]
  have hcount' : upsert.parameters.length = 5 * summaries.length := by
    rw [hparameters', List.length_flatMap]
    simp [TripSummaryEntry.values, Nat.mul_comm]
  exact ⟨⟨hplaces, hcount, hrows⟩, upsert, hupsert, hplaces', hcount', hrows'⟩

theorem flush_statements_positional_batch :
    let entry : TripTrackEntry := ⟨7, 3, .rider, 106, -6, 12, none, "2025-01-01T00:00:00.000Z"⟩
    let summary : TripSummaryEntry := ⟨7, 3, .rider, none, some 12⟩
    (buildInsertManyStatement [entry, entry]).insertion SqlValue.cast = some
      (["ride_id", "client_id", "client_role", "longitude", "latitude", "distance_delta_meters",
        "total_distance_meters", "recorded_at"], [entry.values.map some, entry.values.map some]) ∧
    ∃ upsert, upsertSummaries [summary] = some upsert ∧
      placeholders upsert.sql.toList = [1, 2, 3, 4, 5] := by
  intro entry summary
  obtain ⟨⟨-, -, hrows⟩, upsert, hupsert, hplaces, -, -⟩ :=
    flush_statements_positional (List.cons_ne_nil entry [entry]) (List.cons_ne_nil summary [])
  exact ⟨hrows, upsert, hupsert, hplaces⟩

def TripTrack.properties (t : TripTrack) : TripTrackEntry where
  rideId := t.rideId
  clientId := t.clientId
  clientRole := t.clientRole
  longitude := t.longitude
  latitude := t.latitude
  distanceDeltaMeters := t.distanceDeltaMeters
  totalDistanceMeters := some t.totalDistanceMeters
  recordedAt := t.recordedAt

/-- A flushed batch becomes one row for each of its events, in their order. -/
theorem flushed_rows {rideId : Id} {batch : List QueuedEvent} (hne : batch ≠ []) :
    ((buildInsertManyStatement (batch.map fun q => (q.entry rideId).properties)).insertion
        SqlValue.cast).map Prod.snd =
      some (batch.map fun q => [some (.id rideId), some (.id q.event.clientId), some (.role q.event.role),
        some (.number q.event.longitude), some (.number q.event.latitude),
        some (.number q.event.distanceDeltaMeters), some (.number q.event.totalDistanceMeters),
        some (.date q.event.recordedAt)]) := by
  have hrows := (insertMany_rows (mt List.map_eq_nil_iff.mp hne : batch.map (fun q => (q.entry rideId).properties) ≠ [])).2
  rw [hrows, Option.map_some, List.map_map]
  rfl

end NebLite
