import NebLite.Location.GeoKeys
import NebLite.Rides.FareEngine
import NebLite.Atomic.Program

/-! `getNearbyDrivers`: three replies of Redis joined into one list. The replies are
positional, each over the ids that its command was sent. -/

namespace NebLite

open Atomic

inductive JsValue where
  | undefined
  | null
  | boolean (b : Bool)
  | number (n : JsNumber)
  | string (s : String)
  | array (items : List JsValue)
  | object (properties : List (String × JsValue))

/-- What the language does with texts: `Number` of a string, `String` of a number, and
`JSON.parse`, which gives nothing where it throws. -/
structure JsRuntime where
  number : String → JsNumber
  text : JsNumber → String
  parse : String → Option JsValue

namespace JsValue

variable (js : JsRuntime)

mutual

/-- `String(value)`. -/
def text : JsValue → String
  | undefined => "undefined"
  | null => "null"
  | boolean b => toString b
  | number n => js.text n
  | string s => s
  | array items => String.intercalate "," (joined items)
  | object _ => "[object Object]"

/-- The pieces of `Array.prototype.join`. -/
def joined : List JsValue → List String
  | [] => []
  | undefined :: items | null :: items => "" :: joined items
  | item :: items => item.text :: joined items

end

/-- `Number(value)`. -/
def toNumber : JsValue → JsNumber
  | undefined => .notFinite
  | null => .finite 0
  | boolean b => .finite (if b then 1 else 0)
  | number n => n
  | string s => js.number s
  | array items => js.number ((array items).text js)
  | object _ => .notFinite

def element (items : List JsValue) (index : ℕ) : JsValue := items[index]?.getD .undefined

/-- `value?.[0]`; of a string it is the first character. -/
def first? : JsValue → JsValue
  | array items => items.head?.getD .undefined
  | string s => (s.toList.head?.map fun c => .string (String.singleton c)).getD .undefined
  | object properties => (properties.lookup "0").getD .undefined
  | _ => .undefined

/-- `value.key` for a key that only an object can have; it throws on `null` and `undefined`. -/
def property (key : String) : JsValue → Option JsValue
  | undefined | null => none
  | object properties => some ((properties.lookup key).getD .undefined)
  | _ => some .undefined

/-- Of the numbers that are not finite only `NaN` is false, but the text of the others
does not parse either. -/
def truthy : JsValue → Bool
  | undefined | null => false
  | boolean b => b
  | number (.finite q) => q != 0
  | number .notFinite => false
  | string s => s != ""
  | array _ | object _ => true

end JsValue

structure DriverMetadata where
  accuracyMeters : JsValue
  updatedAt : JsValue

structure GeospatialQueryResult where
  driverId : String
  distanceMeters : ℚ
  location : Coordinate
  metadata : Option DriverMetadata

inductive NearbyCall where
  | georadius (longitude latitude radiusMeters : ℚ) (limit : ℕ)
  | dateNow
  | zmscore (driverIds : List String)
  | hmget (driverIds : List String)

abbrev NearbyCall.Answer : NearbyCall → Type
  | georadius _ _ _ _ => JsValue
  | dateNow => ℤ
  | zmscore _ => List JsValue
  | hmget _ => List JsValue

abbrev NearbyService (α : Type) := Program NearbyCall NearbyCall.Answer ServiceError α

def nearbyCall (c : NearbyCall) : NearbyService c.Answer := .perform c

def JsNumber.finite? : JsNumber → Option ℚ
  | .finite q => some q
  | .notFinite => none

section Repository

variable (js : JsRuntime)

def driverIdOf (entry : JsValue) : Option String :=
  match entry.first? with
  | .string driverId => some driverId
  | _ => none

/-- The test of a score that the loop over the driver ids makes. -/
def hasActiveScore (cutoff : ℤ) : Option JsValue → Bool
  | none | some .null | some .undefined => false
  | some scoreRaw =>
    match scoreRaw.toNumber js with
    | .notFinite => false
    | .finite score => !(score < cutoff)

/-- What the loop over the active driver ids sets for a metadata value. -/
def parseMetadata (metadataValue : Option JsValue) : Option DriverMetadata := do
  let value ← metadataValue
  if value.truthy then
    let parsed ← js.parse (value.text js)
    let accuracyMeters ← parsed.property "accuracyMeters"
    let updatedAt ← parsed.property "updatedAt"
    return { accuracyMeters, updatedAt }
  else none

def mapGeoradiusEntry (metadataMap : String → Option DriverMetadata) (activeDriverSet : List String)
    (entry : JsValue) : Option GeospatialQueryResult :=
  match entry with
  | .array (.string driverIdRaw :: distanceRaw :: coordinatesRaw :: _) =>
    if driverIdRaw ∈ activeDriverSet then do
      let coordinates := match coordinatesRaw with
        | .array items => items
        | _ => []
      let longitude ← ((JsValue.element coordinates 0).toNumber js).finite?
      let latitude ← ((JsValue.element coordinates 1).toNumber js).finite?
      return {
        driverId := driverIdRaw
        distanceMeters := (distanceRaw.toNumber js).finite?.getD 0
        location := ⟨longitude, latitude⟩
        metadata := metadataMap driverIdRaw }
    else none
  | _ => none

/-- `metadataMap.set`, where there is something to set. -/
def setMetadata (metadataResults : List JsValue) (metadataMap : String → Option DriverMetadata)
    (driver : String × ℕ) : String → Option DriverMetadata :=
  match parseMetadata js metadataResults[driver.2]? with
  | none => metadataMap
  | some metadata => Function.update metadataMap driver.1 (some metadata)

/-- The scores are asked for where there is an id to ask for, and likewise the metadata. -/
def readScores (driverIds : List String) : NearbyService (List JsValue) :=
  if driverIds.length ≠ 0 then nearbyCall (.zmscore driverIds) else pure []

def readMetadata (activeDriverIds : List String) : NearbyService (List JsValue) :=
  if activeDriverIds.length ≠ 0 then nearbyCall (.hmget activeDriverIds) else pure []

def getNearbyDrivers (longitude latitude radiusMeters : ℚ) (limit : ℕ) :
    NearbyService (List GeospatialQueryResult) := do
  let rawResults ← nearbyCall (.georadius longitude latitude radiusMeters limit)
  match rawResults with
  | .array [] => return []
  | .array entries =>
    let driverIds := entries.filterMap driverIdOf
    let now ← nearbyCall .dateNow
    let cutoff := now - thresholdDriverIdleMs
    let scoreResults ← readScores driverIds
    let activeDriverIds :=
      (driverIds.zipIdx.filter fun driver => hasActiveScore js cutoff scoreResults[driver.2]?).map Prod.fst
    let metadataResults ← readMetadata activeDriverIds
    if activeDriverIds.length = 0 then
      return []
    let metadataMap := activeDriverIds.zipIdx.foldl (setMetadata js metadataResults) fun _ => none
    return entries.filterMap (mapGeoradiusEntry js metadataMap activeDriverIds)
  | _ => return []

end Repository

/-- A well-formed entry with finite coordinates. -/
structure GeoEntry where
  driverId : String
  distanceMeters : ℚ
  location : Coordinate

section Join

variable (js : JsRuntime)

def geoRecord? : JsValue → Option GeoEntry
  | .array (.string driverId :: distance :: .array coordinates :: _) =>
    match (JsValue.element coordinates 0).toNumber js, (JsValue.element coordinates 1).toNumber js with
    | .finite longitude, .finite latitude =>
      some ⟨driverId, (distance.toNumber js).finite?.getD 0, ⟨longitude, latitude⟩⟩
    | _, _ => none
  | _ => none

/-- The element of a reply for an id, by the place at which the id was sent. -/
def ownReply (ids : List String) (reply : List JsValue) (id : String) : Option JsValue := reply[ids.idxOf id]?

/-- The ids with an own score that is at least the cutoff. -/
def activeIds (cutoff : ℤ) (ids : List String) (scores : List JsValue) : List String :=
  ids.filter fun id => hasActiveScore js cutoff (ownReply ids scores id)

variable {js}

theorem mapGeoradiusEntry_eq (metadataMap : String → Option DriverMetadata) (activeDriverSet : List String)
    (entry : JsValue) : mapGeoradiusEntry js metadataMap activeDriverSet entry =
      (geoRecord? js entry).bind fun e =>
        if e.driverId ∈ activeDriverSet then
          some ⟨e.driverId, e.distanceMeters, e.location, metadataMap e.driverId⟩
        else none := by
  have hnone (index : ℕ) : (JsValue.element [] index).toNumber js = .notFinite := rfl
  unfold mapGeoradiusEntry
  split
  · rename_i driverId distance coordinates rest
    cases coordinates with
    | array items =>
      simp only [geoRecord?]
      cases (JsValue.element items 0).toNumber js with
      | notFinite => simp [JsNumber.finite?]
      | finite longitude =>
        cases (JsValue.element items 1).toNumber js with
        | notFinite => simp [JsNumber.finite?]
        | finite latitude => simp [JsNumber.finite?]
    | _ => simp [geoRecord?, hnone, JsNumber.finite?]
  · rename_i hshape
    unfold geoRecord?
    split
    · exact absurd rfl (hshape _ _ _ _)
    · rfl

theorem driverIdOf_of_geoRecord {entry : JsValue} {e : GeoEntry} (h : geoRecord? js entry = some e) :
    driverIdOf entry = some e.driverId := by
  unfold geoRecord? at h
  split at h
  · split at h
    · cases h
      rfl
    · cases h
  · cases h

section Activity

variable {cutoff : ℤ} {ids : List String} {scores : List JsValue}

/-- With the ids pairwise distinct, what the loop collects by index is what the scores say by id. -/
theorem activeIds_eq (hids : ids.Nodup) :
    (ids.zipIdx.filter fun driver => hasActiveScore js cutoff scores[driver.2]?).map Prod.fst =
      activeIds js cutoff ids scores := by
  have hplace : ∀ driver ∈ ids.zipIdx, hasActiveScore js cutoff scores[driver.2]? =
      hasActiveScore js cutoff (ownReply ids scores driver.1) := by
    intro driver hdriver
    obtain ⟨hlt, hget⟩ := List.getElem?_eq_some_iff.mp (List.mem_zipIdx_iff_getElem?.mp hdriver)
    rw [ownReply, ← hget, hids.idxOf_getElem]
  have hmap := List.filter_map (p := fun id => hasActiveScore js cutoff (ownReply ids scores id))
    (f := Prod.fst) (l := ids.zipIdx)
  rw [List.zipIdx_map_fst] at hmap
  rw [List.filter_congr hplace, activeIds, hmap]
  rfl

/-- Without ids no command is sent, and none is missed. -/
theorem activeIds_sent : activeIds js cutoff ids (if ids.length ≠ 0 then scores else []) =
    activeIds js cutoff ids scores := by
  cases ids with
  | nil => rfl
  | cons id ids => rw [if_pos (by simp)]

theorem activeIds_nodup (hids : ids.Nodup) : (activeIds js cutoff ids scores).Nodup := hids.filter _

end Activity

section Metadata

variable {reply : List JsValue} {drivers : List (String × ℕ)} {map : String → Option DriverMetadata} {id : String}

theorem setMetadata_apply (driver : String × ℕ) : setMetadata js reply map driver id =
    if id = driver.1 then (parseMetadata js reply[driver.2]?).or (map id) else map id := by
  unfold setMetadata
  cases parseMetadata js reply[driver.2]? with
  | none => simp
  | some metadata => simp [Function.update_apply]

theorem foldl_setMetadata_absent (hid : id ∉ drivers.map Prod.fst) :
    drivers.foldl (setMetadata js reply) map id = map id := by
  induction drivers generalizing map with
  | nil => rfl
  | cons driver drivers ih =>
    rw [List.map_cons, List.mem_cons, not_or] at hid
    rw [List.foldl_cons, ih hid.2, setMetadata_apply, if_neg hid.1]

theorem foldl_setMetadata {index : ℕ} (hdrivers : (drivers.map Prod.fst).Nodup) (hmem : (id, index) ∈ drivers) :
    drivers.foldl (setMetadata js reply) map id = (parseMetadata js reply[index]?).or (map id) := by
  induction drivers generalizing map with
  | nil => simp at hmem
  | cons driver drivers ih =>
    rw [List.map_cons, List.nodup_cons] at hdrivers
    rw [List.foldl_cons]
    rcases List.mem_cons.mp hmem with rfl | hmem
    · rw [foldl_setMetadata_absent hdrivers.1, setMetadata_apply, if_pos rfl]
    · have hne : id ≠ driver.1 := fun h => hdrivers.1 (h ▸ List.mem_map_of_mem hmem)
      rw [ih hdrivers.2 hmem, setMetadata_apply, if_neg hne]

/-- The map holds for each id what the value at its own place parses to. -/
theorem metadataMap_eq {ids : List String} (hids : ids.Nodup) (hid : id ∈ ids) :
    ids.zipIdx.foldl (setMetadata js reply) (fun _ => none) id = parseMetadata js (ownReply ids reply id) := by
  have hmem : (id, ids.idxOf id) ∈ ids.zipIdx := by
    rw [List.mem_zipIdx_iff_getElem?, List.getElem?_eq_getElem (List.idxOf_lt_length_of_mem hid),
      List.getElem_idxOf]
  rw [foldl_setMetadata (by rwa [List.zipIdx_map_fst]) hmem, Option.or_none]
  rfl

end Metadata

theorem hasActiveScore_iff {cutoff : ℤ} {scoreRaw : Option JsValue} : hasActiveScore js cutoff scoreRaw ↔
    ∃ raw score, scoreRaw = some raw ∧ raw ≠ .null ∧ raw ≠ .undefined ∧ raw.toNumber js = .finite score ∧
      cutoff ≤ score := by
  unfold hasActiveScore
  split
  · simp
  · simp
  · simp
  · rename_i raw hnull hundefined
    cases hraw : raw.toNumber js with
    | notFinite => simp [hraw]
    | finite score =>
      have hraw' : raw ≠ .null ∧ raw ≠ .undefined := ⟨fun h => hnull (h ▸ rfl), fun h => hundefined (h ▸ rfl)⟩
      simp [hraw, hraw']

theorem filterMap_ite {α β : Type} {p : α → Bool} {f : α → β} (l : List α) :
    (l.filterMap fun a => if p a then some (f a) else none) = (l.filter p).map f := by
  induction l with
  | nil => rfl
  | cons a l ih => by_cases ha : p a <;> simp [ha, ih]

/-- The entries mapped through the set and the map are the entries joined with their own replies. -/
theorem filterMap_mapGeoradiusEntry {cutoff : ℤ} {entries scores : List JsValue} (metadata : List JsValue) {ids active : List String}
    {metadataMap : String → Option DriverMetadata} (hids : entries.filterMap driverIdOf = ids)
    (hactive : activeIds js cutoff ids scores = active)
    (hmap : ∀ id ∈ active, metadataMap id = parseMetadata js (ownReply active metadata id)) :
    entries.filterMap (mapGeoradiusEntry js metadataMap active) =
      ((entries.filterMap (geoRecord? js)).filter fun e =>
        hasActiveScore js cutoff (ownReply ids scores e.driverId)).map fun e =>
          ⟨e.driverId, e.distanceMeters, e.location, parseMetadata js (ownReply active metadata e.driverId)⟩ := by
  rw [← filterMap_ite, List.filterMap_filterMap]
  refine List.filterMap_congr fun entry hentry => ?_
  rw [mapGeoradiusEntry_eq]
  cases he : geoRecord? js entry with
  | none => rfl
  | some e =>
    have hid : e.driverId ∈ ids := by
      rw [← hids]
      exact List.mem_filterMap.mpr ⟨entry, hentry, driverIdOf_of_geoRecord he⟩
    have hmem : e.driverId ∈ active ↔ hasActiveScore js cutoff (ownReply ids scores e.driverId) := by
      rw [← hactive, activeIds, List.mem_filter]
      exact and_iff_right hid
    by_cases hscore : hasActiveScore js cutoff (ownReply ids scores e.driverId)
    · simp [hmem.mpr hscore, hscore, hmap _ (hmem.mpr hscore)]
    · simp [mt hmem.mp hscore, hscore]

end Join

/-- What Redis and the clock answer: the entries, the time, and for each command with
ids the reply over them. -/
def nearbyReplies (reply : JsValue) (now : ℤ) (zmscore hmget : List String → List JsValue) :
    Handler NearbyCall NearbyCall.Answer ServiceError Unit
  | .georadius _ _ _ _, s => (.ok reply, s)
  | .dateNow, s => (.ok now, s)
  | .zmscore driverIds, s => (.ok (zmscore driverIds), s)
  | .hmget driverIds, s => (.ok (hmget driverIds), s)

def JsValue.items : JsValue → List JsValue
  | .array items => items
  | _ => []

section Run

variable {js : JsRuntime} {reply : JsValue} {now : ℤ} {zmscore hmget : List String → List JsValue}

theorem run_getNearbyDrivers {ids active : List String} (longitude latitude radiusMeters : ℚ) (limit : ℕ)
    (hids : reply.items.filterMap driverIdOf = ids) (hdistinct : ids.Nodup)
    (hactive : activeIds js (now - thresholdDriverIdleMs) ids (zmscore ids) = active) :
    (getNearbyDrivers js longitude latitude radiusMeters limit).run (nearbyReplies reply now zmscore hmget) () =
      (.ok (((reply.items.filterMap (geoRecord? js)).filter fun e =>
          hasActiveScore js (now - thresholdDriverIdleMs) (ownReply ids (zmscore ids) e.driverId)).map fun e =>
          ⟨e.driverId, e.distanceMeters, e.location, parseMetadata js (ownReply active (hmget active) e.driverId)⟩),
        ()) := by
  cases reply with
  | array entries =>
    cases entries with
    | nil => rfl
    | cons entry entries =>
      rw [JsValue.items] at hids
      have hscores : (readScores ids).run (nearbyReplies (.array (entry :: entries)) now zmscore hmget) () =
          (.ok (if ids.length ≠ 0 then zmscore ids else []), ()) := by
        unfold readScores
        split <;> rfl
      have hloop : (ids.zipIdx.filter fun driver => hasActiveScore js (now - thresholdDriverIdleMs)
          (if ids.length ≠ 0 then zmscore ids else [])[driver.2]?).map Prod.fst = active := by
        rw [activeIds_eq hdistinct, activeIds_sent, hactive]
      have hmetadata : (readMetadata active).run (nearbyReplies (.array (entry :: entries)) now zmscore hmget) () =
          (.ok (if active.length ≠ 0 then hmget active else []), ()) := by
        unfold readMetadata
        split <;> rfl
      have hactiveDistinct : active.Nodup := by
        rw [← hactive]
        exact activeIds_nodup hdistinct
      have hjoin (metadata : List JsValue) := filterMap_mapGeoradiusEntry metadata hids hactive
        fun id hid => metadataMap_eq hactiveDistinct hid
      rw [getNearbyDrivers, Program.run_bind_ok _ (a := .array (entry :: entries)) rfl]
      simp only [hids]
      refine (Program.run_bind_ok _ (a := now) rfl _).trans ((Program.run_bind_ok _ hscores _).trans ?_)
      simp only [hloop]
      refine (Program.run_bind_ok _ hmetadata _).trans ?_
      by_cases hnone : active.length = 0
      · have hempty (map : String → Option DriverMetadata) :
            (entry :: entries).filterMap (mapGeoradiusEntry js map active) = [] := by
          rw [List.filterMap_eq_nil_iff]
          intro e _
          rw [mapGeoradiusEntry_eq, List.length_eq_zero_iff.mp hnone]
          cases geoRecord? js e <;> simp
        rw [if_pos hnone]
        exact congrArg (fun results => (Except.ok results, ())) ((hempty _).symm.trans (hjoin _))
      · rw [if_neg hnone, if_pos hnone]
        exact congrArg (fun results => (Except.ok results, ())) (hjoin _)
  | _ => rfl

/-- Whatever the replies are, as long as the ids are distinct: the output lists in order
the well-formed entries whose own score counts, each with its own position and distance
and with what its own metadata parses to. -/
theorem nearby_join_aligned (js : JsRuntime) (longitude latitude radiusMeters : ℚ) (limit : ℕ) (reply : JsValue)
    (now : ℤ) (zmscore hmget : List String → List JsValue) (hdistinct : (reply.items.filterMap driverIdOf).Nodup) :
    let ids := reply.items.filterMap driverIdOf
    let cutoff := now - thresholdDriverIdleMs
    let active := activeIds js cutoff ids (zmscore ids)
    ∃ counts : GeoEntry → Bool,
      (∀ e, counts e ↔ ∃ raw score, ownReply ids (zmscore ids) e.driverId = some raw ∧ raw ≠ .null ∧
        raw ≠ .undefined ∧ raw.toNumber js = .finite score ∧ cutoff ≤ score) ∧
      (getNearbyDrivers js longitude latitude radiusMeters limit).run (nearbyReplies reply now zmscore hmget) () =
        (.ok (((reply.items.filterMap (geoRecord? js)).filter counts).map fun e =>
          ⟨e.driverId, e.distanceMeters, e.location, parseMetadata js (ownReply active (hmget active) e.driverId)⟩),
        ()) := by
  intro ids cutoff active
  exact ⟨_, fun e => hasActiveScore_iff,
    run_getNearbyDrivers longitude latitude radiusMeters limit rfl hdistinct rfl⟩

end Run

/-- Numbers and one object as the language reads them. -/
def sampleRuntime : JsRuntime where
  number s := (([("1", 1), ("2", 2), ("3", 3), ("4", 4), ("10", 10), ("20", 20), ("600000", 600000)] :
    List (String × ℚ)).lookup s).elim .notFinite .finite
  text _ := "NaN"
  parse s :=
    if s = "\x7b\"accuracyMeters\":3,\"updatedAt\":\"t\"\x7d" then
      some (.object [("accuracyMeters", .number (.finite 3)), ("updatedAt", .string "t")])
    else none

def sampleEntries : JsValue :=
  .array [.array [.string "a", .string "10", .array [.string "1", .string "2"]], .null,
    .array [.string "b", .string "20", .array [.string "1", .string "2"]],
    .array [.string "c", .string "far", .array [.string "3", .string "4"]]]

/-- Something that is no entry, a driver without a score and a metadata that does not parse
stand before the last entry, which still gets what is its own. -/
theorem nearby_join_aligned_sample :
    (getNearbyDrivers sampleRuntime 0 0 3000 10).run (nearbyReplies sampleEntries 600000
        (fun _ => [.string "600000", .null, .string "600000"])
        fun _ => [.string "?", .string "\x7b\"accuracyMeters\":3,\"updatedAt\":\"t\"\x7d"]) () =
      (.ok [⟨"a", 10, ⟨1, 2⟩, none⟩, ⟨"c", 0, ⟨3, 4⟩, some ⟨.number (.finite 3), .string "t"⟩⟩], ()) := by
  obtain ⟨counts, hcounts, hrun⟩ := nearby_join_aligned sampleRuntime 0 0 3000 10 sampleEntries 600000
    (fun _ => [.string "600000", .null, .string "600000"])
    (fun _ => [.string "?", .string "\x7b\"accuracyMeters\":3,\"updatedAt\":\"t\"\x7d"]) (by decide)
  have ha : counts ⟨"a", 10, ⟨1, 2⟩⟩ = true :=
    (hcounts _).mpr ⟨.string "600000", 600000, rfl, nofun, nofun, rfl, by norm_num [thresholdDriverIdleMs]⟩
  have hb : counts ⟨"b", 20, ⟨1, 2⟩⟩ = false := by
    rw [← Bool.not_eq_true, hcounts]
    rintro ⟨raw, score, hraw, hnull, -⟩
    exact hnull (Option.some.inj hraw).symm
  have hc : counts ⟨"c", 0, ⟨3, 4⟩⟩ = true :=
    (hcounts _).mpr ⟨.string "600000", 600000, rfl, nofun, nofun, rfl, by norm_num [thresholdDriverIdleMs]⟩
  have hentries : sampleEntries.items.filterMap (geoRecord? sampleRuntime) =
      [⟨"a", 10, ⟨1, 2⟩⟩, ⟨"b", 20, ⟨1, 2⟩⟩, ⟨"c", 0, ⟨3, 4⟩⟩] := rfl
  rw [hrun, hentries]
  simp only [List.filter, ha, hb, hc]
  rfl

end NebLite
