import NebLite.Location.NearbyDrivers

/-! `fetchRouteEstimates`: the request to the routing service, the walk through the reply, and
which replies become an estimate. -/

namespace NebLite

open Atomic

/-- What `Number` skips around a numeral. -/
def isJsSpace (c : Char) : Bool :=
  let point := c.toNat
  (9 ≤ point && point ≤ 13) || point = 0x20 || point = 0xA0 || point = 0x1680 ||
    (0x2000 ≤ point && point ≤ 0x200A) || point = 0x2028 || point = 0x2029 || point = 0x202F || point = 0x205F ||
    point = 0x3000 || point = 0xFEFF

def Blank (s : String) : Prop := ∀ c ∈ s.toList, isJsSpace c

/-- What the language says about `Number` of a string. -/
structure JsRuntime.Lawful (js : JsRuntime) : Prop where
  number_blank : ∀ s, Blank s → js.number s = .finite 0
  number_text : ∀ n, (∃ q, js.number (js.text n) = .finite q) ↔ ∃ q, n = .finite q
  number_comma : ∀ s : String, ',' ∈ s.toList → js.number s = .notFinite
  number_word : ∀ s ∈ ["true", "false", "[object Object]"], js.number s = .notFinite

namespace JsValue

variable (js : JsRuntime)

/-- `value?.key`. -/
def optional (key : String) (value : JsValue) : JsValue := (value.property key).getD .undefined

/-- `value && typeof value === 'object'`. -/
def isObject : JsValue → Bool
  | array _ | object _ => true
  | _ => false

/-- A member of an object. -/
def field (key : String) : JsValue → Option JsValue
  | object properties => properties.lookup key
  | _ => none

/-- A finite number, or a numeric string of one. -/
inductive Numeric : JsValue → ℚ → Prop where
  | number (q : ℚ) : Numeric (.number (.finite q)) q
  | string {s : String} {q : ℚ} (hs : ¬ Blank s) (h : js.number s = .finite q) : Numeric (.string s) q

/-- Neither, but `Number` makes a finite number of it. -/
inductive Coerced : JsValue → Prop where
  | null : Coerced .null
  | boolean (b : Bool) : Coerced (.boolean b)
  | blank {s : String} (h : Blank s) : Coerced (.string s)
  | empty : Coerced (.array [])
  | hole : Coerced (.array [.undefined])
  | numeric {item : JsValue} {q : ℚ} (h : Numeric js item q) : Coerced (.array [item])
  | nested {item : JsValue} (hitem : ∀ b, item ≠ .boolean b) (h : Coerced item) : Coerced (.array [item])

variable {js}

theorem Numeric.toNumber {value : JsValue} {q : ℚ} (h : Numeric js value q) : value.toNumber js = .finite q := by
  cases h with
  | number => rfl
  | string hs h => exact h

theorem Coerced.not_numeric {value : JsValue} (h : Coerced js value) (q : ℚ) : ¬ Numeric js value q := by
  intro hq
  cases h with
  | blank hs =>
    cases hq with
    | string hblank => exact hblank hs
  | _ => cases hq

section Arrays

theorem text_array (items : List JsValue) :
    (array items).text js = String.intercalate "," (joined js items) := by rw [text]

/-- The piece of a single item. -/
theorem text_single (item : JsValue) :
    (array [item]).text js = match item with
      | undefined | null => ""
      | item => item.text js := by
  rw [text_array]
  cases item <;> simp only [joined, String.intercalate_singleton]

/-- Two items are joined with a comma. -/
theorem comma_mem_text (item next : JsValue) (rest : List JsValue) :
    ',' ∈ ((array (item :: next :: rest)).text js).toList := by
  have hcons (item : JsValue) (rest : List JsValue) : ∃ piece, joined js (item :: rest) = piece :: joined js rest := by
    cases item <;> simp [joined]
  obtain ⟨piece, hpiece⟩ := hcons item (next :: rest)
  obtain ⟨piece', hpiece'⟩ := hcons next rest
  rw [text_array, hpiece, hpiece', String.intercalate_cons_cons]
  simp

variable (hjs : js.Lawful)

include hjs

theorem coerced_array_iff : ∀ items : List JsValue,
    (∃ q, js.number ((array items).text js) = .finite q) ↔ Coerced js (array items)
  | [] => by
    rw [text_array]
    exact ⟨fun _ => .empty, fun _ => ⟨0, hjs.number_blank _ nofun⟩⟩
  | item :: next :: rest => by
    rw [hjs.number_comma _ (comma_mem_text item next rest)]
    exact ⟨nofun, nofun⟩
  | [undefined] => by
    rw [text_single]
    exact ⟨fun _ => .hole, fun _ => ⟨0, hjs.number_blank _ nofun⟩⟩
  | [null] => by
    rw [text_single]
    exact ⟨fun _ => .nested nofun .null, fun _ => ⟨0, hjs.number_blank _ nofun⟩⟩
  | [boolean b] => by
    have hword : js.number (toString b) = .notFinite := hjs.number_word _ (by cases b <;> decide)
    rw [text_single]
    simp only [text, hword]
    refine ⟨nofun, fun h => ?_⟩
    cases h with
    | numeric h => cases h
    | nested hitem h => exact absurd rfl (hitem b)
  | [number n] => by
    rw [text_single]
    simp only [text]
    rw [hjs.number_text]
    constructor
    · intro ⟨q, hn⟩
      rw [hn]
      exact .numeric (.number q)
    · intro h
      cases h with
      | numeric h =>
        cases h with
        | number => exact ⟨_, rfl⟩
      | nested hitem h => cases h
  | [string s] => by
    rw [text_single]
    simp only [text]
    constructor
    · intro ⟨q, hq⟩
      by_cases hs : Blank s
      · exact .nested nofun (.blank hs)
      · exact .numeric (.string hs hq)
    · intro h
      cases h with
      | numeric h => exact ⟨_, h.toNumber⟩
      | nested hitem h =>
        cases h with
        | blank hs => exact ⟨0, hjs.number_blank s hs⟩
  | [array items] => by
    rw [text_single, coerced_array_iff items]
    refine ⟨fun h => .nested nofun h, fun h => ?_⟩
    cases h with
    | numeric h => cases h
    | nested hitem h => exact h
  | [object properties] => by
    have hword : js.number "[object Object]" = .notFinite := hjs.number_word _ (by simp)
    rw [text_single]
    simp only [text, hword]
    refine ⟨nofun, fun h => ?_⟩
    cases h with
    | numeric h => cases h
    | nested hitem h => cases h

/-- What `Number` makes a finite number of. -/
theorem toNumber_finite_iff (value : JsValue) :
    (∃ q, value.toNumber js = .finite q) ↔ (∃ q, Numeric js value q) ∨ Coerced js value := by
  cases value with
  | undefined => exact ⟨nofun, nofun⟩
  | null => exact ⟨fun _ => .inr .null, fun _ => ⟨0, rfl⟩⟩
  | boolean b => exact ⟨fun _ => .inr (.boolean b), fun _ => ⟨_, rfl⟩⟩
  | number n =>
    constructor
    · intro ⟨q, hq⟩
      rw [show n = .finite q from hq]
      exact .inl ⟨q, .number q⟩
    · intro h
      obtain ⟨q, hq⟩ | h := h
      · exact ⟨q, hq.toNumber⟩
      · cases h
  | string s =>
    constructor
    · intro ⟨q, hq⟩
      by_cases hs : Blank s
      · exact .inr (.blank hs)
      · exact .inl ⟨q, .string hs hq⟩
    · intro h
      obtain ⟨q, hq⟩ | h := h
      · exact ⟨q, hq.toNumber⟩
      · cases h with
        | blank hs => exact ⟨0, hjs.number_blank s hs⟩
  | array items =>
    refine (coerced_array_iff hjs items).trans ⟨.inr, fun h => ?_⟩
    obtain ⟨q, hq⟩ | h := h
    · cases hq
    · exact h
  | object properties => exact ⟨nofun, nofun⟩

end Arrays

end JsValue

/-- The settings of the routing service; `SKIP_ORS_CALL` may be a boolean, a number or a string. -/
structure RoutingConfig where
  SKIP_ORS_CALL : JsValue
  MOCK_ORS_URL : Option String
  ORS_URL : Option String
  ORS_APIKEY : Option String

/-- The class `URL`; `new URL` throws where there is no value. -/
structure JsUrl where
  Url : Type
  parse : String → Option Url
  setParam : Url → String → String → Url
  text : Url → String

/-- `httpService.get`, which answers with the data of the response. -/
inductive RouteCall where
  | get (url : String) (headers : Option (List (String × String)))

abbrev RouteCall.Answer : RouteCall → Type
  | get _ _ => JsValue

abbrev RouteService (α : Type) := Program RouteCall RouteCall.Answer ServiceError α

structure RouteSummary where
  distanceMeters : ℚ
  durationSeconds : ℚ
  deriving DecidableEq

/-- The texts that are compared with are ASCII, where `toLower` does what `toLowerCase` does. -/
def getBooleanConfig : JsValue → Bool
  | .boolean value => value
  | .number value => value = .finite 1
  | .string value => value.toLower ∈ ["true", "1", "yes", "y"]
  | _ => false

section Service

variable (js : JsRuntime) (api : JsUrl) (config : RoutingConfig)

/-- An object with a `toString` of its own makes `Number` throw, which ends like a number that is not finite. -/
def parseRouteSummary (payload : JsValue) : Except ServiceError RouteSummary :=
  if payload.isObject then
    match payload.optional "features" with
    | .array (firstFeature :: _) =>
      let summary := (firstFeature.optional "properties").optional "summary"
      if summary.isObject then
        let distanceRaw := summary.optional "distance"
        let durationRaw := summary.optional "duration"
        match distanceRaw.toNumber js, durationRaw.toNumber js with
        | .finite distanceMeters, .finite durationSeconds => .ok { distanceMeters, durationSeconds }
        | _, _ => .error (.error "OpenRouteService response summary is missing distance or duration")
      else .error (.error "OpenRouteService response summary is missing")
    | _ => .error (.error "OpenRouteService response does not contain features")
  else .error (.error "OpenRouteService response is empty or invalid")

def handleRouteEstimationError {α : Type} : ServiceError → RouteService α
  | .badRequest message => throw (.badRequest message)
  | _ => throw (.badRequest "Unable to calculate route distance at this time. Please try again later.")

/-- A setting that is missing counts as the empty string. -/
def RoutingConfig.baseUrl : String :=
  (if getBooleanConfig config.SKIP_ORS_CALL then config.MOCK_ORS_URL else config.ORS_URL).getD ""

def coordinateParam (point : Coordinate) : String :=
  js.text (.finite point.longitude) ++ "," ++ js.text (.finite point.latitude)

def requestRouteSummary (pickup dropoff : Coordinate) : RouteService RouteSummary := do
  let skipOrsCall := getBooleanConfig config.SKIP_ORS_CALL
  let baseUrlKey := if skipOrsCall then "MOCK_ORS_URL" else "ORS_URL"
  if config.baseUrl = "" then
    throw (.error ("Missing configuration for " ++ baseUrlKey))
  let apiKey := config.ORS_APIKEY.getD ""
  let some requestUrl := api.parse config.baseUrl
    | throw (.error "Invalid URL")
  let requestUrl := api.setParam requestUrl "start" (coordinateParam js pickup)
  let requestUrl := api.setParam requestUrl "end" (coordinateParam js dropoff)
  let requestUrl := if apiKey = "" then requestUrl else api.setParam requestUrl "api_key" apiKey
  let headers := (if apiKey = "" then [] else [("Authorization", apiKey)]) ++
    if skipOrsCall then [("xmock", "true")] else []
  Program.catching (do
      let data ← Program.perform (.get (api.text requestUrl) (if headers = [] then none else some headers))
      Program.ofExcept (parseRouteSummary js data))
    handleRouteEstimationError

def fetchRouteEstimates (pickup dropoff : Coordinate) : RouteService RouteEstimates := do
  let summary ← requestRouteSummary js api config pickup dropoff
  return {
    distanceKm := roundDistanceKm (summary.distanceMeters / 1000)
    durationSeconds := mathRound summary.durationSeconds }

/-- The routing service answers every request with `payload`. -/
def replying (payload : JsValue) : Handler RouteCall RouteCall.Answer ServiceError Unit
  | .get _ _, s => (.ok payload, s)

end Service

/-- The base URL is configured and is a URL. -/
def RoutingConfig.HasUrl (config : RoutingConfig) (api : JsUrl) : Prop :=
  config.baseUrl ≠ "" ∧ (api.parse config.baseUrl).isSome

/-- The reply has an object as `properties.summary` of its first feature, with these two members. -/
def Summarizes (payload distance duration : JsValue) : Prop :=
  ∃ first rest properties summary, payload.field "features" = some (.array (first :: rest)) ∧
    first.field "properties" = some properties ∧ properties.field "summary" = some summary ∧
    summary.field "distance" = some distance ∧ summary.field "duration" = some duration

/-- The reply names a distance in metres and a duration in seconds. -/
def ReportsRoute (js : JsRuntime) (payload : JsValue) (meters seconds : ℚ) : Prop :=
  ∃ distance duration, Summarizes payload distance duration ∧ distance.Numeric js meters ∧ duration.Numeric js seconds

/-- Both members are there, and `Number` takes them for numbers, but one of them is neither a number nor a
numeric string. -/
def CoercedRoute (js : JsRuntime) (payload : JsValue) : Prop :=
  ∃ distance duration, Summarizes payload distance duration ∧
    ((∃ q, distance.Numeric js q) ∨ distance.Coerced js) ∧ ((∃ q, duration.Numeric js q) ∨ duration.Coerced js) ∧
    (distance.Coerced js ∨ duration.Coerced js)

namespace JsValue

variable {key : String} {value member : JsValue}

theorem optional_of_field (h : value.field key = some member) : value.isObject ∧ value.optional key = member := by
  cases value with
  | object properties =>
    have hlookup : properties.lookup key = some member := h
    exact ⟨rfl, by simp [optional, property, hlookup]⟩
  | _ => cases h

/-- A member that is not `undefined` is there. -/
theorem field_of_optional (h : value.optional key = member) (hmember : member ≠ .undefined) :
    value.field key = some member := by
  cases value with
  | object properties =>
    change ((properties.lookup key).getD .undefined) = member at h
    cases hlookup : properties.lookup key with
    | none =>
      rw [hlookup] at h
      exact absurd h.symm hmember
    | some found =>
      rw [hlookup] at h
      exact hlookup.trans (congrArg some h)
  | _ => exact absurd h.symm hmember

theorem isObject_ne_undefined (h : value.isObject) : value ≠ .undefined := by
  intro he
  rw [he] at h
  cases h

theorem toNumber_ne_undefined {js : JsRuntime} {q : ℚ} (h : value.toNumber js = .finite q) : value ≠ .undefined := by
  intro he
  rw [he] at h
  cases h

end JsValue

section Reply

variable {js : JsRuntime} {payload distance duration : JsValue}

theorem Summarizes.unique {distance' duration' : JsValue} (h : Summarizes payload distance duration)
    (h' : Summarizes payload distance' duration') : distance = distance' ∧ duration = duration' := by
  obtain ⟨first, rest, properties, summary, hfeatures, hproperties, hsummary, hdistance, hduration⟩ := h
  obtain ⟨first', rest', properties', summary', hfeatures', hproperties', hsummary', hdistance', hduration'⟩ := h'
  rw [hfeatures] at hfeatures'
  cases hfeatures'
  rw [hproperties] at hproperties'
  cases hproperties'
  rw [hsummary] at hsummary'
  cases hsummary'
  rw [hdistance] at hdistance'
  rw [hduration] at hduration'
  exact ⟨Option.some.inj hdistance', Option.some.inj hduration'⟩

/-- The walk ends with the two numbers exactly where both members are there and convert. -/
theorem parseRouteSummary_ok_iff {summary : RouteSummary} :
    parseRouteSummary js payload = .ok summary ↔ ∃ distance duration, Summarizes payload distance duration ∧
      distance.toNumber js = .finite summary.distanceMeters ∧ duration.toNumber js = .finite summary.durationSeconds := by
  constructor
  · intro h
    unfold parseRouteSummary at h
    split at h
    · split at h
      · next first rest hfeatures =>
        generalize hproperties : first.optional "properties" = properties at h
        generalize hsummary : properties.optional "summary" = value at h
        dsimp only at h
        split at h
        · next hobject =>
          split at h
          · next meters seconds hmeters hseconds =>
            cases h
            have hvalue := JsValue.field_of_optional hsummary (JsValue.isObject_ne_undefined hobject)
            have hproperties := JsValue.field_of_optional hproperties fun he => by
              rw [he] at hvalue
              cases hvalue
            exact ⟨_, _, ⟨first, rest, properties, value, JsValue.field_of_optional hfeatures nofun, hproperties, hvalue,
              JsValue.field_of_optional rfl (JsValue.toNumber_ne_undefined hmeters),
              JsValue.field_of_optional rfl (JsValue.toNumber_ne_undefined hseconds)⟩, hmeters, hseconds⟩
          · cases h
        · cases h
      · cases h
    · cases h
  · intro ⟨distance, duration, ⟨first, rest, properties, value, hfeatures, hproperties, hsummary, hdistance, hduration⟩,
      hmeters, hseconds⟩
    obtain ⟨hpayload, hfeatures⟩ := JsValue.optional_of_field hfeatures
    obtain ⟨-, hproperties⟩ := JsValue.optional_of_field hproperties
    obtain ⟨-, hsummary⟩ := JsValue.optional_of_field hsummary
    obtain ⟨hobject, hdistance⟩ := JsValue.optional_of_field hdistance
    obtain ⟨-, hduration⟩ := JsValue.optional_of_field hduration
    unfold parseRouteSummary
    simp only [hpayload, hfeatures, hproperties, hsummary, hobject, hdistance, hduration, hmeters, hseconds, if_true]

variable {api : JsUrl} {config : RoutingConfig}

theorem parseRouteSummary_error {e : ServiceError} (h : parseRouteSummary js payload = .error e) :
    ∃ message, e = .error message := by
  unfold parseRouteSummary at h
  split at h
  · split at h
    · dsimp only at h
      split at h
      · split at h
        · cases h
        · exact ⟨_, (Except.error.inj h).symm⟩
      · exact ⟨_, (Except.error.inj h).symm⟩
    · exact ⟨_, (Except.error.inj h).symm⟩
  · exact ⟨_, (Except.error.inj h).symm⟩

/-- What `fetchRouteEstimates` makes of the outcome of the parser. -/
def estimated : Except ServiceError RouteSummary → Except ServiceError RouteEstimates
  | .ok summary => .ok ⟨roundDistanceKm (summary.distanceMeters / 1000), mathRound summary.durationSeconds⟩
  | .error _ => .error (.badRequest "Unable to calculate route distance at this time. Please try again later.")

/-- Every error of the parser becomes the same exception. -/
theorem run_fetchRouteEstimates (hconfig : config.HasUrl api) (pickup dropoff : Coordinate) (payload : JsValue) :
    (fetchRouteEstimates js api config pickup dropoff).run (replying payload) () =
      (estimated (parseRouteSummary js payload), ()) := by
  obtain ⟨hbase, hurl⟩ := hconfig
  obtain ⟨url, hurl⟩ := Option.isSome_iff_exists.mp hurl
  unfold fetchRouteEstimates requestRouteSummary
  simp only [hbase, hurl, if_false]
  rw [Program.run_bind, Program.run_catching, Program.run_bind, Program.run_perform]
  simp only [replying]
  cases hparse : parseRouteSummary js payload with
  | ok summary => rfl
  | error e =>
    obtain ⟨message, rfl⟩ := parseRouteSummary_error hparse
    rfl

/-- A reply becomes an estimate exactly where both members are there and convert. -/
theorem run_fetchRouteEstimates_iff (hconfig : config.HasUrl api) (pickup dropoff : Coordinate) (payload : JsValue)
    (estimates : RouteEstimates) :
    (fetchRouteEstimates js api config pickup dropoff).run (replying payload) () = (.ok estimates, ()) ↔
      ∃ distance duration meters seconds, Summarizes payload distance duration ∧ distance.toNumber js = .finite meters ∧
        duration.toNumber js = .finite seconds ∧ estimates = ⟨toFixed 3 (meters / 1000), mathRound seconds⟩ := by
  rw [run_fetchRouteEstimates hconfig]
  constructor
  · intro h
    cases hparse : parseRouteSummary js payload with
    | error e =>
      rw [hparse] at h
      cases h
    | ok summary =>
      rw [hparse] at h
      obtain ⟨distance, duration, hsummary, hmeters, hseconds⟩ := parseRouteSummary_ok_iff.mp hparse
      cases h
      exact ⟨distance, duration, _, _, hsummary, hmeters, hseconds, rfl⟩
  · intro ⟨distance, duration, meters, seconds, hsummary, hmeters, hseconds, hestimates⟩
    have hparse : parseRouteSummary js payload = .ok ⟨meters, seconds⟩ :=
      parseRouteSummary_ok_iff.mpr ⟨distance, duration, hsummary, hmeters, hseconds⟩
    rw [hparse, hestimates]
    rfl

end Reply

/-- Numerals of decimal digits, without a sign or a point. -/
def digitRuntime : JsRuntime where
  number s :=
    if s.toList.all isJsSpace then .finite 0
    else if s.toList.all Char.isDigit then .finite (Nat.ofDigitChars 10 s.toList 0)
    else .notFinite
  text n :=
    match n with
    | .finite q => Nat.repr q.num.natAbs
    | .notFinite => "NaN"
  parse _ := none

theorem digitRuntime_lawful : digitRuntime.Lawful where
  number_blank s hs := if_pos (List.all_eq_true.mpr hs)
  number_text n := by
    cases n with
    | finite q =>
      have hdigits : (Nat.repr q.num.natAbs).toList.all Char.isDigit := by
        rw [Nat.toList_repr, List.all_eq_true]
        exact fun c hc => Nat.isDigit_of_mem_toDigits (by omega) (by omega) hc
      simp only [digitRuntime, hdigits, if_true]
      refine ⟨fun _ => ⟨q, rfl⟩, fun _ => ?_⟩
      split <;> exact ⟨_, rfl⟩
    | notFinite =>
      have hword : digitRuntime.number (digitRuntime.text .notFinite) = .notFinite := by
        simp only [digitRuntime]
        rw [String.toList_ofList]
        rfl
      rw [hword]
  number_comma s hs := by
    have hspace : s.toList.all isJsSpace = false := List.all_eq_false.mpr ⟨',', hs, by decide⟩
    have hdigit : s.toList.all Char.isDigit = false := List.all_eq_false.mpr ⟨',', hs, by decide⟩
    simp only [digitRuntime, hspace, hdigit, Bool.false_eq_true, if_false]
  number_word := by
    simp only [List.forall_mem_cons, List.not_mem_nil, false_imp_iff, implies_true, and_true, digitRuntime]
    refine ⟨?_, ?_, ?_⟩ <;> (rw [String.toList_ofList]; decide)

/-- A URL is its text up to the query, and the parameters. -/
def textUrl : JsUrl where
  Url := String × List (String × String)
  parse s := if s = "" then none else some (s, [])
  setParam url name value := (url.1, url.2.filter (fun p => p.1 ≠ name) ++ [(name, value.replace "," "%2C")])
  text url := url.1 ++ "?" ++ "&".intercalate (url.2.map fun p => p.1 ++ "=" ++ p.2)

def orsConfig : RoutingConfig where
  SKIP_ORS_CALL := .undefined
  MOCK_ORS_URL := none
  ORS_URL := some "https://ors/driving-car"
  ORS_APIKEY := none

/-- A reply with one feature. -/
def routeReply (distance duration : JsValue) : JsValue :=
  .object [("features", .array [.object [("properties", .object [("summary",
    .object [("distance", distance), ("duration", duration)])])]])]

theorem summarizes_routeReply (distance duration : JsValue) :
    Summarizes (routeReply distance duration) distance duration := ⟨_, _, _, _, rfl, rfl, rfl, rfl, rfl⟩

theorem orsConfig_hasUrl : orsConfig.HasUrl textUrl := by
  have hbase : orsConfig.baseUrl = "https://ors/driving-car" := rfl
  constructor
  · rw [hbase]
    decide
  · rw [hbase]
    rfl

theorem number_sixty : digitRuntime.number "60" = .finite 60 := by
  simp only [digitRuntime]
  rw [String.toList_ofList]
  rfl

theorem sixty_not_blank : ¬ Blank "60" := by
  intro h
  have hsix := h '6' (by rw [String.toList_ofList]; decide)
  cases hsix

end NebLite
