import NebLite.Location.NearbyDrivers
import NebLite.Atomic.Nearest

/-! `getNearbyDrivers` over the driver keys. Redis selects the nearest drivers before the
service looks at their scores. -/

namespace NebLite

open Atomic

namespace LocationService

structure NearbyDriver where
  driverId : String
  distanceMeters : ℚ
  accuracyMeters : JsValue
  updatedAt : JsValue

def getNearbyDrivers (js : JsRuntime) (searchRadiusMeters longitude latitude : ℚ) (limit : ℕ := 10) :
    NearbyService (List NearbyDriver) := do
  let results ← NebLite.getNearbyDrivers js longitude latitude searchRadiusMeters limit
  return results.map fun result => {
    driverId := result.driverId
    distanceMeters := result.distanceMeters
    accuracyMeters := (result.metadata.map (·.accuracyMeters)).getD .undefined
    updatedAt := (result.metadata.map (·.updatedAt)).getD .undefined }

end LocationService

/-- How numbers and entries are written to and by Redis. -/
structure RedisTexts where
  double : ℚ → String
  distance : ℚ → String
  json : DriverLocationEntry → String

/-- The id that a text writes; the members of the three keys are the texts of ids. -/
def idOfText (text : String) : Id := Nat.ofDigitChars 10 text.toList 0

/-- A member of the geo set with its position. -/
abbrev GeoMember := Id × Coordinate

namespace GeoKeys

variable (texts : RedisTexts) (distance : Coordinate → ℚ) (w : GeoKeys)

/-- The reply of GEORADIUS with distances and positions for these members. -/
def georadiusEntry (m : GeoMember) : JsValue :=
  .array [.string (toString m.1), .string (texts.distance (distance m.2)),
    .array [.string (texts.double m.2.longitude), .string (texts.double m.2.latitude)]]

def zmscoreReply (driverId : String) : JsValue :=
  match w.active.score (idOfText driverId) with
  | some score => .string (texts.double score)
  | none => .null

def hmgetReply (driverId : String) : JsValue :=
  match w.metadata (idOfText driverId) with
  | some entry => .string (texts.json entry)
  | none => .null

/-- What the keys answer when GEORADIUS selects the members `near`. -/
def replies (near : List GeoMember) (now : ℤ) : Handler NearbyCall NearbyCall.Answer ServiceError Unit :=
  nearbyReplies (.array (near.map (georadiusEntry texts distance))) now (fun ids => ids.map (w.zmscoreReply texts))
    fun ids => ids.map (w.hmgetReply texts)

/-- The driver has a score that is at least the cutoff. -/
def activeSince (cutoff : ℤ) (m : GeoMember) : Bool := (w.active.score m.1).any (cutoff ≤ ·)

/-- The members of the geo set within the radius. -/
structure Within (radiusMeters : ℚ) (within : List GeoMember) : Prop where
  distinct : within.Nodup
  mem : ∀ m, m ∈ within ↔ w.geo m.1 = some m.2 ∧ distance m.2 ≤ radiusMeters

/-- The numbers in the keys are read as they were written. -/
structure Readable (js : JsRuntime) (within : List GeoMember) : Prop where
  longitude : ∀ m ∈ within, js.number (texts.double m.2.longitude) = .finite m.2.longitude
  latitude : ∀ m ∈ within, js.number (texts.double m.2.latitude) = .finite m.2.latitude
  score : ∀ m ∈ within, ∀ score ∈ w.active.score m.1, js.number (texts.double score) = .finite score

end GeoKeys

section Nearest

open GeoKeys

variable {texts : RedisTexts} {distance : Coordinate → ℚ} {w : GeoKeys} {js : JsRuntime} {radiusMeters : ℚ}
  {within near : List GeoMember} {cutoff : ℤ} {m : GeoMember}

theorem driverIds_eq : (JsValue.array (near.map (georadiusEntry texts distance))).items.filterMap driverIdOf =
    near.map fun m => toString m.1 := by
  rw [JsValue.items, List.filterMap_map, ← List.filterMap_eq_map]
  rfl

theorem idOfText_toString (d : Id) : idOfText (toString d) = d := by
  have htext : (toString d).toList = Nat.toDigits 10 d := Nat.toList_repr
  rw [idOfText, htext, Nat.ofDigitChars_ten_toDigits]

theorem toString_injective : Function.Injective (toString : Id → String) :=
  Function.LeftInverse.injective idOfText_toString

theorem ownReply_map {ids : List String} {id : String} (g : String → JsValue) (hid : id ∈ ids) :
    ownReply ids (ids.map g) id = some (g id) := by
  rw [ownReply, List.getElem?_map, List.getElem?_eq_getElem (List.idxOf_lt_length_of_mem hid), List.getElem_idxOf]
  rfl

theorem hasActiveScore_eq (hread : w.Readable texts js within) (hm : m ∈ within) :
    hasActiveScore js cutoff (some (w.zmscoreReply texts (toString m.1))) = w.activeSince cutoff m := by
  rw [zmscoreReply, idOfText_toString, activeSince]
  cases hscore : w.active.score m.1 with
  | none => rfl
  | some score =>
    simp only [hasActiveScore, JsValue.toNumber, hread.score m hm score hscore]
    rw [Option.any_some]
    by_cases hle : cutoff ≤ score
    · have hle' : (cutoff : ℚ) ≤ score := by exact_mod_cast hle
      simp [hle, not_lt.mpr hle']
    · have hlt : (score : ℚ) < cutoff := by exact_mod_cast not_le.mp hle
      simp [hle, hlt]

theorem geoRecord_eq (hread : w.Readable texts js within) (hm : m ∈ within) :
    geoRecord? js (georadiusEntry texts distance m) =
      some ⟨toString m.1, (js.number (texts.distance (distance m.2))).finite?.getD 0, m.2⟩ := by
  have hlongitude := hread.longitude m hm
  have hlatitude := hread.latitude m hm
  simp only [geoRecord?, georadiusEntry, JsValue.element, List.getElem?_cons_zero, List.getElem?_cons_succ,
    Option.getD_some, JsValue.toNumber, hlongitude, hlatitude]

theorem GeoKeys.Within.id_injOn (hwithin : w.Within distance radiusMeters within) {m' : GeoMember} (hm : m ∈ within)
    (hm' : m' ∈ within) (hid : m.1 = m'.1) : m = m' := by
  have hgeo := ((hwithin.mem m).mp hm).1
  rw [hid, ((hwithin.mem m').mp hm').1] at hgeo
  exact Prod.ext hid (Option.some.inj hgeo).symm

/-- The members within the radius are told apart by the texts of their ids. -/
theorem GeoKeys.Within.eq_of_texts (hwithin : w.Within distance radiusMeters within) {l l' : List GeoMember}
    (hl : l ⊆ within) (hl' : l' ⊆ within)
    (htexts : (l.map fun m => toString m.1) = l'.map fun m => toString m.1) : l = l' := by
  induction l generalizing l' with
  | nil => simpa using htexts.symm
  | cons m l ih =>
    cases l' with
    | nil => simp at htexts
    | cons m' l' =>
      rw [List.map_cons, List.map_cons, List.cons.injEq] at htexts
      rw [List.cons_subset] at hl hl'
      have hhead : m = m' := hwithin.id_injOn hl.1 hl'.1 (toString_injective htexts.1)
      rw [hhead, ih hl.2 hl'.2 htexts.2]

/-- What the repository returns of the members that Redis selects are the active ones. -/
theorem run_replies (limit : ℕ) (now : ℤ) (longitude latitude : ℚ) (hwithin : w.Within distance radiusMeters within)
    (hread : w.Readable texts js within) (hdistinct : near.Nodup) (hnear : near ⊆ within) :
    ∃ results, (getNearbyDrivers js longitude latitude radiusMeters limit).run
        (w.replies texts distance near now) () = (.ok results, ()) ∧
      (results.map (·.driverId)) =
        (near.filter (w.activeSince (now - thresholdDriverIdleMs))).map fun m => toString m.1 := by
  have hidsDistinct : (near.map fun m => toString m.1).Nodup :=
    hdistinct.map_on fun m hm m' hm' h => hwithin.id_injOn (hnear hm) (hnear hm') (toString_injective h)
  refine ⟨_, run_getNearbyDrivers longitude latitude radiusMeters limit driverIds_eq hidsDistinct rfl, ?_⟩
  have hentries : (JsValue.array (near.map (georadiusEntry texts distance))).items.filterMap (geoRecord? js) =
      near.map fun m => ⟨toString m.1, (js.number (texts.distance (distance m.2))).finite?.getD 0, m.2⟩ := by
    rw [JsValue.items, List.filterMap_map, ← List.filterMap_eq_map]
    exact List.filterMap_congr fun m hm => geoRecord_eq hread (hnear hm)
  have hscore : ∀ m ∈ near, hasActiveScore js (now - thresholdDriverIdleMs)
      (ownReply (near.map fun m => toString m.1) ((near.map fun m => toString m.1).map (w.zmscoreReply texts))
        (toString m.1)) = w.activeSince (now - thresholdDriverIdleMs) m := by
    intro m hm
    rw [ownReply_map _ (List.mem_map_of_mem hm)]
    exact hasActiveScore_eq hread (hnear hm)
  rw [hentries, List.filter_map, List.map_map, List.map_map]
  exact congrArg (List.map fun m => toString m.1) (List.filter_congr hscore)

/-- The service passes the drivers on. -/
theorem run_locationService (limit : ℕ) (now : ℤ) (longitude latitude : ℚ) (hwithin : w.Within distance radiusMeters within)
    (hread : w.Readable texts js within) (hdistinct : near.Nodup) (hnear : near ⊆ within) :
    ∃ drivers, (LocationService.getNearbyDrivers js radiusMeters longitude latitude limit).run
        (w.replies texts distance near now) () = (.ok drivers, ()) ∧
      (drivers.map (·.driverId)) =
        (near.filter (w.activeSince (now - thresholdDriverIdleMs))).map fun m => toString m.1 := by
  obtain ⟨results, hrun, hids⟩ := run_replies limit now longitude latitude hwithin hread hdistinct hnear
  refine ⟨_, Program.run_bind_ok _ hrun _, ?_⟩
  rw [List.map_map, ← hids]
  rfl

/-- The drivers are the nearest of the active members within the radius. -/
def GeoKeys.Nearest (distance : Coordinate → ℚ) (w : GeoKeys) (within : List GeoMember) (cutoff : ℤ) (limit : ℕ)
    (drivers : List LocationService.NearbyDriver) : Prop :=
  ∃ members, (drivers.map (·.driverId)) = members.map (fun m => toString m.1) ∧
    NearestOf (fun m => distance m.2) limit (within.filter (w.activeSince cutoff)) members

/-- With the members that Redis selects, the nearest within the radius: what the service
returns are the nearest active drivers exactly when all selected members are active, or
no active driver is left out. -/
theorem nearest_active_iff (js : JsRuntime) (texts : RedisTexts) (distance : Coordinate → Coordinate → ℚ)
    (w : GeoKeys) (centre : Coordinate) (radiusMeters : ℚ) (limit : ℕ) (now : ℤ) (within near : List GeoMember)
    (hwithin : w.Within (distance centre) radiusMeters within) (hread : w.Readable texts js within)
    (hnear : NearestOf (fun m => distance centre m.2) limit within near) :
    ∃ drivers, (LocationService.getNearbyDrivers js radiusMeters centre.longitude centre.latitude limit).run
        (w.replies texts (distance centre) near now) () = (.ok drivers, ()) ∧
      (w.Nearest (distance centre) within (now - thresholdDriverIdleMs) limit drivers ↔
        (∀ m ∈ near, w.activeSince (now - thresholdDriverIdleMs) m) ∨
          ∀ m ∈ within, w.activeSince (now - thresholdDriverIdleMs) m → m ∈ near) := by
  obtain ⟨drivers, hrun, hids⟩ := run_locationService limit now
    centre.longitude centre.latitude hwithin hread hnear.distinct hnear.subset
  refine ⟨drivers, hrun, ?_⟩
  rw [← hnear.filter_iff hwithin.distinct]
  constructor
  · rintro ⟨members, hmembers, hnearest⟩
    have hsame : members = near.filter (w.activeSince (now - thresholdDriverIdleMs)) := by
      refine hwithin.eq_of_texts ?_ ?_ (hmembers.symm.trans hids)
      · exact fun m hm => List.mem_of_mem_filter (hnearest.subset hm)
      · exact fun m hm => hnear.subset (List.mem_of_mem_filter hm)
    rwa [← hsame]
  · intro hnearest
    exact ⟨_, hids, hnearest⟩

end Nearest

section Sample

open GeoKeys

/-- Driver 1 has reported long ago and driver 2 just now. -/
def idleAndActive : GeoKeys :=
  (GeoKeys.empty.storeDriverLocation ⟨1, ⟨⟨1, 1⟩, none⟩, "10:00", 20⟩).storeDriverLocation
    ⟨2, ⟨⟨2, 2⟩, none⟩, "10:10", 600000⟩

def sampleTexts : RedisTexts where
  double q := toString q.num
  distance q := toString q.num
  json _ := "?"

/-- On a line through the centre. -/
def eastOf (centre c : Coordinate) : ℚ := c.longitude - centre.longitude

def bothDrivers : List GeoMember := [(1, ⟨1, 1⟩), (2, ⟨2, 2⟩)]

theorem idleAndActive_within : idleAndActive.Within (eastOf ⟨0, 0⟩) 3000 bothDrivers where
  distinct := by decide
  mem := by
    rintro ⟨d, c⟩
    have hgeo : idleAndActive.geo d = if d = 2 then some ⟨2, 2⟩ else if d = 1 then some ⟨1, 1⟩ else none := by
      simp [idleAndActive, storeDriverLocation, Function.update_apply, GeoKeys.empty]
    rw [hgeo]
    constructor
    · intro h
      have hcases : d = 1 ∧ c = ⟨1, 1⟩ ∨ d = 2 ∧ c = ⟨2, 2⟩ := by simpa [bothDrivers] using h
      rcases hcases with ⟨rfl, rfl⟩ | ⟨rfl, rfl⟩
      · exact ⟨rfl, by norm_num [eastOf]⟩
      · exact ⟨rfl, by norm_num [eastOf]⟩
    · rintro ⟨h, -⟩
      split_ifs at h with h2 h1
      · simp [bothDrivers, h2, Option.some.inj h]
      · simp [bothDrivers, h1, Option.some.inj h]

theorem idleAndActive_readable : idleAndActive.Readable sampleTexts sampleRuntime bothDrivers := by
  have hscores : idleAndActive.active.score 1 = some 20 ∧ idleAndActive.active.score 2 = some 600000 := by
    decide +kernel
  have hmem : ∀ m ∈ bothDrivers, m = (1, ⟨1, 1⟩) ∨ m = (2, ⟨2, 2⟩) := by simp [bothDrivers]
  constructor
  · intro m hm
    rcases hmem m hm with rfl | rfl <;> rfl
  · intro m hm
    rcases hmem m hm with rfl | rfl <;> rfl
  · intro m hm score hscore
    rcases hmem m hm with rfl | rfl
    · rw [hscores.1, Option.mem_some_iff] at hscore
      subst hscore
      rfl
    · rw [hscores.2, Option.mem_some_iff] at hscore
      subst hscore
      rfl

theorem eastOf_nearest : NearestOf (fun m : GeoMember => eastOf ⟨0, 0⟩ m.2) 1 bothDrivers [(1, ⟨1, 1⟩)] where
  ordered := List.pairwise_singleton _ _
  distinct := List.nodup_singleton _
  subset := by simp [bothDrivers]
  length := rfl
  nearest := by simp [bothDrivers, eastOf]

theorem eastOf_all : NearestOf (fun m : GeoMember => eastOf ⟨0, 0⟩ m.2) 2 bothDrivers bothDrivers where
  ordered := by simp [bothDrivers, eastOf]
  distinct := by decide
  subset := List.Subset.refl _
  length := rfl
  nearest x hx hout := absurd hx hout

theorem nearest_active_iff_both :
    ∃ drivers, (LocationService.getNearbyDrivers sampleRuntime 3000 0 0 2).run
        (idleAndActive.replies sampleTexts (eastOf ⟨0, 0⟩) bothDrivers 600000) () = (.ok drivers, ()) ∧
      idleAndActive.Nearest (eastOf ⟨0, 0⟩) bothDrivers (600000 - thresholdDriverIdleMs) 2 drivers := by
  obtain ⟨drivers, hrun, hiff⟩ := nearest_active_iff sampleRuntime sampleTexts eastOf idleAndActive ⟨0, 0⟩ 3000 2
    600000 bothDrivers bothDrivers idleAndActive_within idleAndActive_readable eastOf_all
  exact ⟨drivers, hrun, hiff.mpr (Or.inr fun m hm _ => hm)⟩

/-- The nearest driver is idle, so the service returns nobody. -/
theorem idle_driver_hides_active :
    NearestOf (fun m : GeoMember => eastOf ⟨0, 0⟩ m.2) 1 bothDrivers [(1, ⟨1, 1⟩)] ∧
      (LocationService.getNearbyDrivers sampleRuntime 3000 0 0 1).run
        (idleAndActive.replies sampleTexts (eastOf ⟨0, 0⟩) [(1, ⟨1, 1⟩)] 600000) () = (.ok [], ()) ∧
      ¬ idleAndActive.Nearest (eastOf ⟨0, 0⟩) bothDrivers (600000 - thresholdDriverIdleMs) 1 [] := by
  refine ⟨eastOf_nearest, ?_, ?_⟩
  · have hidle : [((1, ⟨1, 1⟩) : GeoMember)].filter (idleAndActive.activeSince (600000 - thresholdDriverIdleMs)) = [] := by
      decide +kernel
    obtain ⟨drivers, hrun, hids⟩ := run_locationService 1 600000 0 0 idleAndActive_within idleAndActive_readable
      eastOf_nearest.distinct eastOf_nearest.subset
    rw [hidle] at hids
    rw [hrun, List.map_eq_nil_iff.mp hids]
  · have hactive : bothDrivers.filter (idleAndActive.activeSince (600000 - thresholdDriverIdleMs)) = [(2, ⟨2, 2⟩)] := by
      decide +kernel
    rintro ⟨members, hmembers, hnearest⟩
    have hlength := hnearest.length
    rw [hactive] at hlength
    have hempty : members = [] := by simpa using hmembers.symm
    simp [hempty] at hlength

end Sample

end NebLite
