import NebLite.Atomic.Lift
import NebLite.Location.Coherence
import NebLite.Location.NearestDrivers
import NebLite.Payment.Recipients

/-! The rides together with the positions of the drivers. A creation asks Redis which drivers
are near by commands of its own, while drivers report and the cleanup removes idle ones. -/

namespace NebLite

open Atomic Knowledge GeoTransaction

/-- The driver keys with the passes of the cleanup, and the clock. -/
structure Moment (κ : Type) where
  geo : GeoSystem κ
  clock : ℤ
  follows : geo.keys.Follow geo.log

/-- The tables and the driver keys, all moments at which a call was executed, the latest
first, and what Redis answers to reads while it is down. -/
structure DispatchStore (κ : Type) where
  world : World
  moment : Moment κ
  past : List (Moment κ)
  down : Option ServiceError

inductive DispatchCall (κ : Type) where
  | ride (c : Call)
  | lookup (c : NearbyCall)
  | geo (a : GeoStep κ)
  | clock (now : ℤ)
  | redis (down : Option ServiceError)

abbrev DispatchCall.Answer {κ : Type} : DispatchCall κ → Type
  | ride c => c.Answer
  | lookup c => c.Answer
  | geo _ => Unit
  | clock _ => Unit
  | redis _ => Unit

abbrev DispatchService (κ α : Type) := Program (DispatchCall κ) DispatchCall.Answer ServiceError α

def dispatchCall {κ : Type} (c : DispatchCall κ) : DispatchService κ c.Answer := .perform c

/-- What lies outside: `select` are the members that GEORADIUS lists, which are within the
radius; scores are read as they were written. -/
structure GeoRedis where
  js : JsRuntime
  texts : RedisTexts
  distance : Coordinate → Coordinate → ℚ
  select : GeoKeys → Coordinate → ℚ → ℕ → List GeoMember
  searchRadiusMeters : ℚ
  selected : ∀ keys centre radiusMeters limit, ∀ m ∈ select keys centre radiusMeters limit,
    keys.geo m.1 = some m.2 ∧ distance centre m.2 ≤ radiusMeters
  scores : ∀ score : ℤ, js.number (texts.double score) = .finite score

section Calls

variable {κ : Type} (env : Environment) (R : GeoRedis)

/-- What a read of the driver keys is answered. -/
def GeoRedis.answer (m : Moment κ) : (c : NearbyCall) → c.Answer
  | .georadius longitude latitude radiusMeters limit =>
    .array ((R.select m.geo.keys ⟨longitude, latitude⟩ radiusMeters limit).map
      (GeoKeys.georadiusEntry R.texts (R.distance ⟨longitude, latitude⟩)))
  | .dateNow => m.clock
  | .zmscore ids => ids.map (m.geo.keys.zmscoreReply R.texts)
  | .hmget ids => ids.map (m.geo.keys.hmgetReply R.texts)

def dispatchHandle [DecidableEq κ] : Handler (DispatchCall κ) DispatchCall.Answer ServiceError (DispatchStore κ)
  | .ride c, s => ((handle env c s.world).1, { s with world := (handle env c s.world).2, past := s.moment :: s.past })
  | .lookup c, s =>
    (match s.down with
      | some e => .error e
      | none => .ok (R.answer s.moment c), { s with past := s.moment :: s.past })
  | .geo a, s =>
    (.ok (), { s with
      moment := ⟨s.moment.geo.step a, s.moment.clock, s.moment.follows.step a⟩
      past := s.moment :: s.past })
  | .clock now, s => (.ok (), { s with moment := { s.moment with clock := now }, past := s.moment :: s.past })
  | .redis down, s => (.ok (), { s with down, past := s.moment :: s.past })

/-- A driver of the location service, as its id is stored. -/
def storedDriver (driver : LocationService.NearbyDriver) : NearbyDriver where
  driverId := if trim driver.driverId = "" then none else some (idOfText driver.driverId)
  distanceMeters := some driver.distanceMeters

/-- The reads of the driver keys among all other calls. -/
def readsKeys {α : Type} (p : NearbyService α) : DispatchService κ α := p.lift .lookup fun _ a => a

/-- The calls of the operations on rides; `nearbyDrivers` is the program of the location service. -/
def dispatchImplement : (c : Call) → DispatchService κ c.Answer
  | .nearbyDrivers centre limit => do
    let drivers ← readsKeys (LocationService.getNearbyDrivers R.js R.searchRadiusMeters centre.longitude
      centre.latitude limit)
    return drivers.map storedDriver
  | c => dispatchCall (.ride c)

/-- An operation on rides, a report or a step of the cleanup, a reading of the clock, or a change of Redis. -/
inductive DispatchOp (κ : Type) where
  | ride (op : RideOp)
  | geo (a : GeoStep κ)
  | clock (now : ℤ)
  | redis (down : Option ServiceError)

def DispatchOp.program : DispatchOp κ → DispatchService κ Unit
  | ride op => (op.program env).expand (dispatchImplement R)
  | geo a => dispatchCall (.geo a)
  | clock now => dispatchCall (.clock now)
  | redis down => dispatchCall (.redis down)

def DispatchStore.start (whitelist : List String) (clocks : κ → ℤ) : DispatchStore κ where
  world := .initial whitelist
  moment := ⟨.start clocks, 0, GeoKeys.follow_empty⟩
  past := []
  down := none

/-- One after the other, Redis listed the driver for the radius around the centre, the clock
was read, and the driver's score was read. His report was near at the first of these moments,
and at the last it was at most five minutes older than the clock. -/
def Sighted (past : List (Moment κ)) (centre : Coordinate) (d : Id) : Prop :=
  ∃ scored read listed u v, [scored, read, listed].Sublist past ∧
    report d listed.geo.log = some u ∧ R.distance centre u.location.coordinate ≤ R.searchRadiusMeters ∧
    report d scored.geo.log = some v ∧ read.clock - thresholdDriverIdleMs ≤ v.now

end Calls

section Hosting

variable {κ : Type} {env : Environment} {R : GeoRedis} {w : World} {past past' : List (Moment κ)}
  {known : List (PartyFact (List (Moment κ) → Prop))}

/-- What a run has passed through: a fact is about moments in it, the latest first. -/
def passedBy (R : GeoRedis) (past : List (Moment κ)) : Beyond (List (Moment κ) → Prop) where
  seen := Sighted R past
  holds φ := ∃ ms, ms.Sublist past ∧ φ ms

theorem Sighted.later (h : past.Sublist past') {centre : Coordinate} {d : Id} (hs : Sighted R past centre d) :
    Sighted R past' centre d := by
  obtain ⟨scored, read, listed, u, v, hms, hrest⟩ := hs
  exact ⟨scored, read, listed, u, v, hms.trans h, hrest⟩

theorem holds_later (h : past.Sublist past') {f : PartyFact (List (Moment κ) → Prop)}
    (hf : f.Holds (passedBy R past) w) : f.Holds (passedBy R past') w := by
  cases f with
  | sighted p d => exact Sighted.later h hf
  | beyond φ =>
    obtain ⟨ms, hms, hφ⟩ := hf
    exact ⟨ms, hms.trans h, hφ⟩
  | _ => exact hf

theorem World.AddressedAll.later (h : past.Sublist past') (hw : w.AddressedAll (Sighted R past)) :
    w.AddressedAll (Sighted R past') where
  near c hc := by
    obtain ⟨r, hr, hseen⟩ := hw.near c hc
    exact ⟨r, hr, hseen.later h⟩
  seated := hw.seated
  sent := hw.sent

/-- The knowledge of the parties while time passes. -/
abbrev dispatched (R : GeoRedis) : Knowledge (PartyFact (List (Moment κ) → Prop)) (DispatchStore κ) :=
  hosted (·.world) fun s => passedBy R s.past

theorem dispatched_respects {s t : DispatchStore κ} (hpast : s.past.Sublist t.past)
    (hworld : (parties (passedBy R s.past)).Respects s.world t.world) : (dispatched R).Respects s t :=
  ⟨World.AddressedAll.later hpast hworld.inv, fun f hf => holds_later hpast (hworld.facts f hf)⟩

/-- A step beside the tables. -/
theorem dispatched_beside {s t : DispatchStore κ} (hs : (dispatched R).inv s) (hpast : s.past.Sublist t.past)
    (hworld : t.world = s.world) : (dispatched R).Respects s t := by
  apply dispatched_respects hpast
  rw [hworld]
  exact .refl hs

theorem hasActiveScore_zmscoreReply {keys : GeoKeys} {cutoff : ℤ} {d : Id}
    (h : hasActiveScore R.js cutoff (some (keys.zmscoreReply R.texts (toString d))) = true) :
    ∃ score, keys.active.score d = some score ∧ cutoff ≤ score := by
  rw [GeoKeys.zmscoreReply, idOfText_toString] at h
  cases hscore : keys.active.score d with
  | none =>
    rw [hscore] at h
    cases h
  | some score =>
    simp only [hscore, hasActiveScore, JsValue.toNumber, R.scores, Bool.not_eq_true', decide_eq_false_iff_not,
      not_lt] at h
    exact ⟨score, rfl, by exact_mod_cast h⟩

theorem mem_of_mapGeoradiusEntry {js : JsRuntime} {metadataMap : String → Option DriverMetadata} {ids : List String}
    {entry : JsValue} {result : GeospatialQueryResult}
    (h : mapGeoradiusEntry js metadataMap ids entry = some result) : result.driverId ∈ ids := by
  rw [mapGeoradiusEntry_eq] at h
  obtain ⟨e, -, he⟩ := Option.bind_eq_some_iff.mp h
  split at he
  · next hmem =>
    cases he
    exact hmem
  · cases he

/-- The ids whose own score is recent, as the loop over the replies keeps them. -/
def keptIds (js : JsRuntime) (cutoff : ℤ) (ids : List String) (scores : List JsValue) : List String :=
  (ids.zipIdx.filter fun driver => hasActiveScore js cutoff scores[driver.2]?).map Prod.fst

/-- A driver that Redis has listed near the centre and whose score is recent has been sighted. -/
theorem sighted_of_keptIds {centre : Coordinate} {limit : ℕ} {scored read listed : Moment κ} {ids : List String}
    (hids : ids = (R.select listed.geo.keys centre R.searchRadiusMeters limit).map fun m => toString m.1)
    (hpast : [scored, read, listed].Sublist past) {id : String}
    (hid : id ∈ keptIds R.js (read.clock - thresholdDriverIdleMs) ids (R.answer scored (.zmscore ids))) :
    Sighted R past centre (idOfText id) := by
  obtain ⟨⟨x, i⟩, hmem, rfl⟩ := List.mem_map.mp hid
  obtain ⟨hat, hactive⟩ := List.mem_filter.mp hmem
  have hat : ids[i]? = some x := List.mk_mem_zipIdx_iff_getElem?.mp hat
  obtain ⟨m, hm, rfl⟩ := List.mem_map.mp (hids ▸ List.mem_of_getElem? hat)
  have hreply : (R.answer scored (.zmscore ids))[i]? = some (scored.geo.keys.zmscoreReply R.texts (toString m.1)) := by
    show (ids.map (scored.geo.keys.zmscoreReply R.texts))[i]? = _
    rw [List.getElem?_map, hat]
    rfl
  rw [hreply] at hactive
  obtain ⟨score, hscore, hrecent⟩ := hasActiveScore_zmscoreReply hactive
  obtain ⟨hplace, hnear⟩ := R.selected _ _ _ _ m hm
  rw [listed.follows.geo] at hplace
  rw [scored.follows.active] at hscore
  obtain ⟨u, hu, hplace⟩ := Option.map_eq_some_iff.mp hplace
  obtain ⟨v, hv, rfl⟩ := Option.map_eq_some_iff.mp hscore
  rw [idOfText_toString]
  exact ⟨scored, read, listed, u, v, hpast, hu, hplace ▸ hnear, hv, hrecent⟩

section Lookup

variable [DecidableEq κ] {α β : Type}

/-- The program of the location service, carried out beside the tables. -/
abbrev Looking (env : Environment) (R : GeoRedis) (known : List (PartyFact (List (Moment κ) → Prop)))
    (p : NearbyService α) (learnt : α → List (PartyFact (List (Moment κ) → Prop))) : Prop :=
  (dispatched R).Minds (dispatchHandle env R) known (readsKeys p) (fun _ => True) learnt

theorem looking_bind {p : NearbyService α} {f : α → NearbyService β}
    {learnt : α → List (PartyFact (List (Moment κ) → Prop))} {told : β → List (PartyFact (List (Moment κ) → Prop))}
    (hp : Looking env R known p learnt) (hf : ∀ a, Looking env R (learnt a ++ known) (f a) told) :
    Looking env R known (p >>= f) told := by
  have hreads : (readsKeys (p >>= f) : DispatchService κ β) = readsKeys p >>= fun a => readsKeys (f a) :=
    Program.lift_bind p f
  show (dispatched R).Minds (dispatchHandle env R) known (readsKeys (p >>= f)) _ told
  rw [hreads]
  exact Minds.bind hp fun a _ => hf a

theorem looking_call {c : NearbyCall} {learnt : c.Answer → List (PartyFact (List (Moment κ) → Prop))}
    (h : ∀ s : DispatchStore κ, (dispatched R).Knows known s → ∀ f ∈ learnt (R.answer s.moment c),
      f.Holds (passedBy R (s.moment :: s.past)) s.world) : Looking env R known (nearbyCall c) learnt := by
  have hreads : (readsKeys (nearbyCall c) : DispatchService κ c.Answer) = dispatchCall (.lookup c) >>= fun a => pure a :=
    Program.lift_perform c
  show (dispatched R).Minds (dispatchHandle env R) known (readsKeys (nearbyCall c)) _ learnt
  rw [hreads, bind_pure]
  apply minds_perform
  · exact fun s hs => dispatched_beside hs.inv (List.sublist_cons_self _ _) rfl
  · intro s a hs ha
    refine ⟨trivial, ?_⟩
    simp only [dispatchHandle] at ha
    cases hdown : s.down with
    | some e => simp [hdown] at ha
    | none =>
      obtain rfl : R.answer s.moment c = a := by simpa [hdown] using ha
      exact h s hs

/-- Moments that were passed through, the first of them when `c` was answered `a`. -/
def OnRecord (R : GeoRedis) (c : NearbyCall) (a : c.Answer) (φ : List (Moment κ) → Prop) (ms : List (Moment κ)) : Prop :=
  ∃ m rest, ms = m :: rest ∧ a = R.answer m c ∧ φ rest

/-- A read whose answer is put on record, with the moments that were passed through before it. -/
theorem looking_recorded (c : NearbyCall) (φ : List (Moment κ) → Prop)
    (hφ : ∀ s : DispatchStore κ, (dispatched R).Knows known s → ∃ ms, ms.Sublist s.past ∧ φ ms) :
    Looking env R known (nearbyCall c) fun a => [.beyond (OnRecord R c a φ)] := by
  apply looking_call
  intro s hs f hf
  obtain rfl := List.mem_singleton.mp hf
  obtain ⟨ms, hms, h⟩ := hφ s hs
  exact ⟨s.moment :: ms, hms.cons_cons _, s.moment, ms, rfl, rfl, h⟩

theorem looking_pure {a : α} {learnt : α → List (PartyFact (List (Moment κ) → Prop))} (h : learnt a ⊆ known) :
    Looking env R known (pure a) learnt := minds_pure trivial h

/-- What `readScores` brings, once a listing and a reading of the clock are on record. -/
theorem looking_readScores {centre : Coordinate} (limit : ℕ) {entries : List JsValue} {now : ℤ}
    (hknown : .beyond (OnRecord R .dateNow now (OnRecord R
      (.georadius centre.longitude centre.latitude R.searchRadiusMeters limit) (.array entries) (· = []))) ∈ known) :
    Looking env R known (readScores (entries.filterMap driverIdOf)) fun scores =>
      (keptIds R.js (now - thresholdDriverIdleMs) (entries.filterMap driverIdOf) scores).map fun id =>
        .sighted centre (idOfText id) := by
  unfold readScores
  split
  · apply looking_call
    intro s hs f hf
    obtain ⟨ms, hms, read, rest, rfl, rfl, listed, last, rfl, hlisting, rfl⟩ := hs.facts _ hknown
    obtain ⟨id, hid, rfl⟩ := List.mem_map.mp hf
    have hentries : entries = (R.select listed.geo.keys centre R.searchRadiusMeters limit).map
        (GeoKeys.georadiusEntry R.texts (R.distance centre)) := JsValue.array.inj hlisting
    have hids : entries.filterMap driverIdOf =
        (R.select listed.geo.keys centre R.searchRadiusMeters limit).map fun m => toString m.1 := by
      rw [hentries]
      exact driverIds_eq
    exact sighted_of_keptIds hids (hms.cons_cons _) hid
  · next hnone =>
    have hempty : entries.filterMap driverIdOf = [] := List.eq_nil_of_length_eq_zero (not_not.mp hnone)
    apply looking_pure
    rw [hempty]
    exact List.nil_subset _

theorem looking_readMetadata (ids : List String) : Looking env R known (readMetadata ids) fun _ => [] := by
  unfold readMetadata
  split
  · exact looking_call fun _ _ _ hf => absurd hf List.not_mem_nil
  · exact looking_pure (List.nil_subset _)

/-- Every driver that the repository returns has been sighted near the centre. -/
theorem looking_getNearbyDrivers (centre : Coordinate) (limit : ℕ) :
    Looking env R known (getNearbyDrivers R.js centre.longitude centre.latitude R.searchRadiusMeters limit)
      fun results => results.map fun result => .sighted centre (idOfText result.driverId) := by
  unfold getNearbyDrivers
  refine looking_bind (looking_recorded _ (· = []) fun _ _ => ⟨[], List.nil_sublist _, rfl⟩) fun raw => ?_
  cases raw with
  | array entries =>
    cases entries with
    | nil => exact looking_pure (List.nil_subset _)
    | cons entry rest =>
      have hlisted (s : DispatchStore κ) (hs : (dispatched R).Knows (.beyond (OnRecord R
          (.georadius centre.longitude centre.latitude R.searchRadiusMeters limit) (.array (entry :: rest)) (· = [])) :: known) s) :=
        hs.facts _ List.mem_cons_self
      refine looking_bind (looking_recorded .dateNow _ hlisted) fun now => ?_
      refine looking_bind (looking_readScores limit List.mem_cons_self) fun scores => ?_
      refine looking_bind (looking_readMetadata _) fun metadata => ?_
      split
      · exact looking_pure (List.nil_subset _)
      · apply looking_pure
        intro f hf
        obtain ⟨result, hresult, rfl⟩ := List.mem_map.mp hf
        obtain ⟨e, -, hmapped⟩ := List.mem_filterMap.mp hresult
        have hkept : result.driverId ∈ keptIds R.js (now - thresholdDriverIdleMs)
            ((entry :: rest).filterMap driverIdOf) scores := mem_of_mapGeoradiusEntry hmapped
        exact List.mem_append_right [] (List.mem_append_left _ (List.mem_map.mpr ⟨_, hkept, rfl⟩))
  | _ => exact looking_pure (List.nil_subset _)

variable (env R) in
/-- The drivers that the location service returns have been sighted near the centre. -/
theorem minds_nearby (centre : Coordinate) (limit : ℕ) : (dispatched R).Minds (dispatchHandle env R) known
    (dispatchImplement R (.nearbyDrivers centre limit) : DispatchService κ (List NearbyDriver))
    (fun _ => True) (sightings centre) := by
  have hservice : Looking env R known (LocationService.getNearbyDrivers R.js R.searchRadiusMeters centre.longitude
      centre.latitude limit) fun drivers => drivers.map fun driver => .sighted centre (idOfText driver.driverId) := by
    refine looking_bind (looking_getNearbyDrivers centre limit) fun results => looking_pure ?_
    rw [List.map_map]
    exact List.subset_append_left _ _
  refine Minds.bind hservice fun drivers _ => minds_pure trivial fun f hf => ?_
  obtain ⟨stored, hstored, hf⟩ := List.mem_filterMap.mp hf
  obtain ⟨driver, hdriver, rfl⟩ := List.mem_map.mp hstored
  obtain ⟨d, hd, rfl⟩ := Option.map_eq_some_iff.mp hf
  have hid : idOfText driver.driverId = d := by
    simp only [storedDriver] at hd
    split at hd
    · cases hd
    · exact Option.some.inj hd
  exact List.mem_append_left _ (List.mem_map.mpr ⟨driver, hdriver, hid ▸ rfl⟩)

variable (env R) in
/-- The operations on rides beside the driver keys. -/
def dispatchHosting (κ : Type) [DecidableEq κ] :
    Hosting (DispatchCall κ) DispatchCall.Answer (DispatchStore κ) (List (Moment κ) → Prop) where
  env
  handler := dispatchHandle env R
  implement := dispatchImplement R
  world := (·.world)
  beyond s := passedBy R s.past
  carried := by
    intro c known P learnt hc h
    have hdirect : dispatchImplement (κ := κ) R c = dispatchCall (.ride c) := by
      cases c with
      | nearbyDrivers => exact absurd trivial hc
      | _ => rfl
    rw [hdirect]
    apply minds_perform
    · intro s hs
      exact dispatched_respects (List.sublist_cons_self _ _) (h s.world _ ⟨hs.inv, hs.facts⟩).1
    · intro s a hs ha
      obtain ⟨hP, hlearnt⟩ := (h s.world _ ⟨hs.inv, hs.facts⟩).2 a ha
      exact ⟨hP, fun f hf => holds_later (List.sublist_cons_self _ _) (hlearnt f hf)⟩
  looks known centre limit := minds_nearby env R centre limit

theorem minds_beside {c : DispatchCall κ} (h : ∀ s : DispatchStore κ, (dispatchHandle env R c s).2.world = s.world ∧
    (dispatchHandle env R c s).2.past = s.moment :: s.past) :
    (dispatched R).Minds (dispatchHandle env R) known (dispatchCall c) (fun _ => True) fun _ => [] := by
  apply minds_perform
  · intro s hs
    have hpast : s.past.Sublist (dispatchHandle env R c s).2.past := (h s).2 ▸ List.sublist_cons_self _ _
    exact dispatched_beside hs.inv hpast (h s).1
  · exact fun _ _ _ _ => ⟨trivial, fun _ hf => absurd hf List.not_mem_nil⟩

variable (env R) in
theorem DispatchOp.minds (op : DispatchOp κ) : (dispatched R).Minds (dispatchHandle env R) known (op.program env R)
    (fun _ => True) fun _ => [] := by
  cases op with
  | ride op =>
    have hpolite : (dispatchHosting env R κ).Polite known (op.program env) := op.polite env
    exact hpolite
  | geo a =>
    have h : (dispatched R).Minds (dispatchHandle env R) known (dispatchCall (.geo a)) (fun _ => True) fun _ => [] :=
      minds_beside fun _ => ⟨rfl, rfl⟩
    exact h
  | clock now =>
    have h : (dispatched R).Minds (dispatchHandle env R) known (dispatchCall (.clock now : DispatchCall κ))
        (fun _ => True) fun _ => [] := minds_beside fun _ => ⟨rfl, rfl⟩
    exact h
  | redis down =>
    have h : (dispatched R).Minds (dispatchHandle env R) known (dispatchCall (.redis down : DispatchCall κ))
        (fun _ => True) fun _ => [] := minds_beside fun _ => ⟨rfl, rfl⟩
    exact h

end Lookup

end Hosting

def dispatchCalls {ι κ : Type} (env : Environment) (R : GeoRedis) (ops : ι → DispatchOp κ) (i : ι) :
    DispatchService κ Unit := (ops i).program env R

def dispatchRun {ι κ : Type} [DecidableEq ι] [DecidableEq κ] (env : Environment) (R : GeoRedis)
    (whitelist : List String) (clocks : κ → ℤ) (ops : ι → DispatchOp κ) (sched : List ι) : DispatchStore κ :=
  ((Pool.start (dispatchCalls env R ops) (.start whitelist clocks)).exec (dispatchHandle env R) sched).store

section Sample

/-- `Number` of a text of decimal digits. -/
def readDigits : List Char → JsNumber
  | '-' :: digits => .finite (-(Nat.ofDigitChars 10 digits 0 : ℕ))
  | digits => .finite (Nat.ofDigitChars 10 digits 0 : ℕ)

theorem readDigits_repr (n : ℕ) : readDigits (Nat.toDigits 10 n) = .finite n := by
  have hdigits : ∀ c ∈ Nat.toDigits 10 n, c ≠ '-' := by
    rintro c hc rfl
    exact absurd (Nat.isDigit_of_mem_toDigits (by decide) (by decide) hc) (by decide)
  have hread : readDigits (Nat.toDigits 10 n) = .finite (Nat.ofDigitChars 10 (Nat.toDigits 10 n) 0 : ℕ) := by
    cases h : Nat.toDigits 10 n with
    | nil => rfl
    | cons c rest =>
      unfold readDigits
      split
      · next hc => exact absurd (List.cons.inj hc).1 (hdigits c (h ▸ List.mem_cons_self))
      · rfl
  rw [hread, Nat.ofDigitChars_ten_toDigits]

theorem readDigits_toString (z : ℤ) : readDigits (toString z).toList = .finite z := by
  cases z with
  | ofNat n =>
    have htext : (toString (Int.ofNat n)).toList = Nat.toDigits 10 n := Nat.toList_repr
    rw [htext, readDigits_repr]
    rfl
  | negSucc n =>
    have htext : (toString (Int.negSucc n)).toList = '-' :: Nat.toDigits 10 (n + 1) := by
      show ("-" ++ Nat.repr (n + 1)).toList = _
      rw [String.toList_append, Nat.toList_repr]
      rfl
    rw [htext, readDigits, Nat.ofDigitChars_ten_toDigits, Int.cast_negSucc]

/-- Numbers in decimal digits, on a line from west to east. -/
def lineRedis : GeoRedis where
  js :=
    { number := fun text => readDigits text.toList
      text := fun _ => "NaN"
      parse := fun _ => none }
  texts :=
    { double := fun q => toString q.num
      distance := fun q => toString q.num
      json := fun _ => "?" }
  distance centre c := |c.longitude - centre.longitude|
  select keys centre radiusMeters limit :=
    (keys.active.entries.filterMap fun entry =>
      (keys.geo (ofLex entry).2).bind fun c =>
        if |c.longitude - centre.longitude| ≤ radiusMeters then some ((ofLex entry).2, c) else none).take limit
  searchRadiusMeters := 3000
  selected keys centre radiusMeters limit m hm := by
    obtain ⟨entry, -, hentry⟩ := List.mem_filterMap.mp (List.mem_of_mem_take hm)
    obtain ⟨c, hc, hm⟩ := Option.bind_eq_some_iff.mp hentry
    split at hm
    · next hnear =>
      cases hm
      exact ⟨hc, hnear⟩
    · cases hm
  scores score := readDigits_toString score

/-- A driver reports, the clock is read, and a rider books a ride. -/
def reportAndBook (i : Fin 3) : DispatchOp Empty :=
  match i with
  | 0 => .geo (.store ⟨8, ⟨⟨1, 1⟩, none⟩, "10:00", 500000⟩)
  | 1 => .clock 600000
  | 2 => .ride (.lifecycle (.createRide (some 1) ⟨⟨1, 1⟩, ⟨2, 2⟩, none, none⟩ 0))

end Sample

end NebLite
