import NebLite.Rides.DeadEnds
import Mathlib.Algebra.Order.Ring.Rat
import Mathlib.Algebra.Order.Group.Abs

/-! The geofence of `startRide` and `completeRide`. A distance that Redis does
not answer with a number counts as zero, and zero passes every check. -/

namespace NebLite

open Atomic

section Fence

variable {β : Type} {probes : List β} {Far Measured Passes : β → Prop} {Strict : Prop}

/-- A fence lets a far probe pass exactly when it is not strict, some probe is far, and
none of the far ones is measured. -/
theorem near_of_passes_iff
    (hpass : ∀ p, Passes p ↔ (Measured p → ¬ Far p) ∧ (¬ Measured p → ¬ Strict)) :
    ((∀ p ∈ probes, Passes p) → ∀ p ∈ probes, ¬ Far p) ↔
      Strict ∨ ((∃ p ∈ probes, Far p) → ∃ p ∈ probes, Far p ∧ Measured p) := by
  constructor
  · intro h
    by_cases hs : Strict
    · exact .inl hs
    · refine .inr ?_
      rintro ⟨q, hq, hfar⟩
      by_contra hno
      have hall : ∀ p ∈ probes, Passes p := by
        intro p hp
        exact (hpass p).mpr ⟨fun hm hf => hno ⟨p, hp, hf, hm⟩, fun _ => hs⟩
      exact h hall q hq hfar
  · intro h hall p hp hfar
    rcases h with hs | h
    · have hm : Measured p := by
        by_contra hm
        exact ((hpass p).mp (hall p hp)).2 hm hs
      exact ((hpass p).mp (hall p hp)).1 hm hfar
    · obtain ⟨q, hq, hqf, hqm⟩ := h ⟨p, hp, hfar⟩
      exact ((hpass q).mp (hall q hq)).1 hqm hqf

end Fence

/-- How a distance pipeline ends. -/
inductive PipelineOutcome where
  | executed
  | commandError
  | nullReply
  | thrown
  deriving DecidableEq, Repr

/-- The coordinates that GEOADD takes. -/
def Coordinate.InRange (c : Coordinate) : Prop :=
  |c.longitude| ≤ 180 ∧ |c.latitude| ≤ 8505112878 / 100000000

instance (c : Coordinate) : Decidable c.InRange := inferInstanceAs (Decidable (_ ∧ _))

variable (distance : Coordinate → Coordinate → ℚ) (outcomes : ℕ → PipelineOutcome)

/-- GEODIST of a point that was not added is null, which is not a number. -/
def redisReply (outcome : PipelineOutcome) (origin destination : Coordinate) : GeoReply :=
  match outcome with
  | .executed =>
    if origin.InRange ∧ destination.InRange then .meters (distance origin destination) else .notANumber
  | .commandError => .commandError
  | .nullReply => .noReply
  | .thrown => .thrown

/-- The service with a Redis that knows the true distance. -/
def Environment.withRedis (env : Environment) : Environment :=
  { env with geo := fun n origin destination => redisReply distance (outcomes n) origin destination }

/-- One distance that is asked for, with its place among the answers from outside. -/
structure GeoProbe where
  index : ℕ
  origin : Coordinate
  destination : Coordinate

/-- The distances that a check of both participants asks for. -/
def meetingProbes (index : ℕ) (driver rider target : Coordinate) : List GeoProbe :=
  [⟨index, driver, target⟩, ⟨index + 1, rider, target⟩, ⟨index + 2, driver, rider⟩]

namespace GeoProbe

def Passes (env : Environment) (radius : ℚ) (p : GeoProbe) : Prop :=
  (env.geo p.index p.origin p.destination).distance ≤ radius

def Far (radius : ℚ) (p : GeoProbe) : Prop := radius < distance p.origin p.destination

def Measured (p : GeoProbe) : Prop :=
  outcomes p.index = .executed ∧ p.origin.InRange ∧ p.destination.InRange

instance (env : Environment) (radius : ℚ) (p : GeoProbe) : Decidable (p.Passes env radius) :=
  inferInstanceAs (Decidable (_ ≤ _))

instance (radius : ℚ) (p : GeoProbe) : Decidable (p.Far distance radius) :=
  inferInstanceAs (Decidable (_ < _))

instance (p : GeoProbe) : Decidable (p.Measured outcomes) := inferInstanceAs (Decidable (_ ∧ _))

variable {distance outcomes}

theorem passes_iff {env : Environment} {radius : ℚ} (p : GeoProbe) :
    p.Passes (env.withRedis distance outcomes) radius ↔
      (p.Measured outcomes → ¬ p.Far distance radius) ∧ (¬ p.Measured outcomes → ¬ radius < 0) := by
  unfold Passes Measured Far
  simp only [Environment.withRedis, redisReply, not_lt]
  cases outcomes p.index with
  | executed =>
    by_cases hr : p.origin.InRange ∧ p.destination.InRange
    · simp [hr, GeoReply.distance]
    · simp [hr, GeoReply.distance]
  | _ => simp [GeoReply.distance]

end GeoProbe

/-- The location that a rider has shared last. -/
def World.riderLocation (w : World) (rid : Id) : Option ParticipantLocation :=
  (w.tripStates rid).bind (·.lastRiderLocation)

variable {env : Environment} {distance outcomes}

theorem run_getLatestLocation (w : World) (rid : Id) :
    (getLatestLocation rid .rider).run (handle env) w = (.ok (w.riderLocation rid), w) := by
  unfold getLatestLocation getState
  simp only [bind_assoc, pure_bind]
  rw [Program.run_bind_ok _ (run_call env _ w)]
  unfold World.riderLocation
  cases w.tripStates rid <;> rfl

theorem run_ensureLocation (env : Environment) (origin target : Coordinate) (radius : ℚ) (message : String) (w : World) :
    (ensureLocationWithinRadius origin target radius message).run (handle env) w =
      (if (⟨w.answered, origin, target⟩ : GeoProbe).Passes env radius then .ok ()
        else .error (.badRequest message), { w with answered := w.answered + 1 }) := by
  unfold ensureLocationWithinRadius calculateDistanceBetweenCoordinates
  simp only [bind_assoc, pure_bind]
  rw [Program.run_bind_ok _ (run_call env _ w)]
  by_cases h : (⟨w.answered, origin, target⟩ : GeoProbe).Passes env radius
  · have hle : ¬ radius < (env.geo w.answered origin target).distance := not_lt.mpr h
    rw [if_neg hle, if_pos h]
    rfl
  · have hlt : radius < (env.geo w.answered origin target).distance := not_le.mp h
    rw [if_pos hlt, if_neg h]
    rfl

theorem run_ensureNearby (env : Environment) (first second : Coordinate) (radius : ℚ) (message : String) (w : World) :
    (ensureParticipantsAreNearby first second radius message).run (handle env) w =
      (if (⟨w.answered, first, second⟩ : GeoProbe).Passes env radius then .ok ()
        else .error (.badRequest message), { w with answered := w.answered + 1 }) :=
  run_ensureLocation env first second radius message w

/-- Three checks in a row pass when each of their probes does. -/
theorem run_checks (env : Environment) (driver rider target : Coordinate) (radius : ℚ) (m₁ m₂ m₃ : String) (w : World) :
    ((∀ p ∈ meetingProbes w.answered driver rider target, p.Passes env radius) →
      (do ensureLocationWithinRadius driver target radius m₁
          ensureLocationWithinRadius rider target radius m₂
          ensureParticipantsAreNearby driver rider radius m₃ : Service Unit).run (handle env) w =
        (.ok (), { w with answered := w.answered + 3 })) ∧
    (¬ (∀ p ∈ meetingProbes w.answered driver rider target, p.Passes env radius) →
      ∃ e v, (do
          ensureLocationWithinRadius driver target radius m₁
          ensureLocationWithinRadius rider target radius m₂
          ensureParticipantsAreNearby driver rider radius m₃ : Service Unit).run (handle env) w =
        (.error e, v) ∧ SameRows w v) := by
  have hall : (∀ p ∈ meetingProbes w.answered driver rider target, p.Passes env radius) ↔
      (⟨w.answered, driver, target⟩ : GeoProbe).Passes env radius ∧
      (⟨w.answered + 1, rider, target⟩ : GeoProbe).Passes env radius ∧
      (⟨w.answered + 2, driver, rider⟩ : GeoProbe).Passes env radius := by
    simp [meetingProbes]
  rw [hall]
  have h₁ := run_ensureLocation env driver target radius m₁ w
  have h₂ := run_ensureLocation env rider target radius m₂ { w with answered := w.answered + 1 }
  have h₃ := run_ensureNearby env driver rider radius m₃ { w with answered := w.answered + 2 }
  by_cases p₁ : (⟨w.answered, driver, target⟩ : GeoProbe).Passes env radius
  swap
  · rw [if_neg p₁] at h₁
    refine ⟨fun h => absurd h.1 p₁, fun _ => ⟨_, _, Program.run_bind_error _ h₁ _, ⟨rfl, rfl⟩⟩⟩
  rw [if_pos p₁] at h₁
  rw [Program.run_bind_ok _ h₁]
  by_cases p₂ : (⟨w.answered + 1, rider, target⟩ : GeoProbe).Passes env radius
  swap
  · rw [if_neg p₂] at h₂
    refine ⟨fun h => absurd h.2.1 p₂, fun _ => ⟨_, _, Program.run_bind_error _ h₂ _, ⟨rfl, rfl⟩⟩⟩
  rw [if_pos p₂] at h₂
  rw [Program.run_bind_ok _ h₂, h₃]
  by_cases p₃ : (⟨w.answered + 2, driver, rider⟩ : GeoProbe).Passes env radius
  · rw [if_pos p₃]
    exact ⟨fun _ => rfl, fun h => absurd ⟨p₁, p₂, p₃⟩ h⟩
  · rw [if_neg p₃]
    exact ⟨fun h => absurd h.2.2 p₃, fun _ => ⟨_, _, rfl, ⟨rfl, rfl⟩⟩⟩

/-- The status of a ride is moved to `s` by a program run from `w`. -/
def MovesTo {α : Type} (env : Environment) (p : Service α) (w : World) (rid : Id) (s : ERideStatus) :
    Prop :=
  w.statusOf rid ≠ some s ∧ ((p.run (handle env) w).2).statusOf rid = some s

theorem statusOf_same {v w : World} (h : SameRows w v) (rid : Id) : v.statusOf rid = w.statusOf rid := by
  rw [World.statusOf, World.statusOf, h.1]

theorem statusOf_becomes {v w : World} {rid : Id} {b : Booking} (h : w.Becomes rid (some b) v) :
    v.statusOf rid = some b.status := by
  obtain ⟨r, hr, hb⟩ := Option.map_eq_some_iff.mp h.booked
  rw [World.statusOf, hr, Option.map_some, ← hb]
  rfl

/-- Without a change of rows the status is not moved. -/
theorem not_moves_same {α : Type} {p : Service α} {w : World} {rid : Id} {s : ERideStatus}
    (h : SameRows w (p.run (handle env) w).2) : ¬ MovesTo env p w rid s := by
  rintro ⟨hno, hs⟩
  exact hno ((statusOf_same h rid).symm.trans hs)

/-- The probes of `startRide` for a ride and a rider's location. -/
def startProbes (w : World) (r : Ride) (driver rider : ParticipantLocation) : List GeoProbe :=
  meetingProbes w.answered driver.coordinate rider.coordinate r.pickup

def completionProbes (w : World) (r : Ride) (driver rider : ParticipantLocation) : List GeoProbe :=
  meetingProbes w.answered driver.coordinate rider.coordinate r.dropoff

/-- The guards of `startRide` before its location checks. -/
structure StartOpen (w : World) (rid : Id) (driverId : Option Id) (r : Ride)
    (rider : ParticipantLocation) : Prop where
  ride : w.rides.find rid = some r
  driver : driverId ≠ none ∧ r.driverId = driverId
  status : r.status = .enroute
  shared : w.riderLocation rid = some rider

/-- The rider's location is known and all three checks pass, or they fail and change no row. -/
theorem run_located (env : Environment) (w : World) (rid : Id) (location : ParticipantLocation) (target : Coordinate)
    (radius : ℚ) (m₀ m₁ m₂ m₃ : String) {checks : Service Unit}
    (hchecks : checks = do
      let some rider ← getLatestLocation rid .rider
        | throw (.badRequest m₀)
      ensureLocationWithinRadius location.coordinate target radius m₁
      ensureLocationWithinRadius rider.coordinate target radius m₂
      ensureParticipantsAreNearby location.coordinate rider.coordinate radius m₃) :
    (∃ rider, w.riderLocation rid = some rider ∧
      (∀ p ∈ meetingProbes w.answered location.coordinate rider.coordinate target, p.Passes env radius) ∧
      checks.run (handle env) w = (.ok (), { w with answered := w.answered + 3 })) ∨
    ((∀ rider, w.riderLocation rid = some rider →
        ¬ ∀ p ∈ meetingProbes w.answered location.coordinate rider.coordinate target, p.Passes env radius) ∧
      ∃ e v, checks.run (handle env) w = (.error e, v) ∧ SameRows w v) := by
  rw [hchecks, Program.run_bind_ok _ (run_getLatestLocation w rid)]
  cases hl : w.riderLocation rid with
  | none => exact .inr ⟨fun _ h => (nomatch h), _, _, rfl, .refl w⟩
  | some rider =>
    obtain ⟨hpass, hfail⟩ := run_checks env location.coordinate rider.coordinate target radius m₁ m₂ m₃ w
    by_cases h : ∀ p ∈ meetingProbes w.answered location.coordinate rider.coordinate target, p.Passes env radius
    · exact .inl ⟨rider, rfl, h, hpass h⟩
    · refine .inr ⟨fun x hx => ?_, hfail h⟩
      obtain rfl := Option.some.inj hx
      exact h

/-- The location checks of `startRide` fail, or the rider's location is known and every probe passes. -/
theorem run_ensureAtPickup (env : Environment) (w : World) (r : Ride) (location : ParticipantLocation) :
    (∃ rider, w.riderLocation r.id = some rider ∧
      (∀ p ∈ startProbes w r location rider, p.Passes env env.tripStartProximityMeters) ∧
      (ensureAtPickup env r location).run (handle env) w = (.ok (), { w with answered := w.answered + 3 })) ∨
    ((∀ rider, w.riderLocation r.id = some rider →
        ¬ ∀ p ∈ startProbes w r location rider, p.Passes env env.tripStartProximityMeters) ∧
      ∃ e v, (ensureAtPickup env r location).run (handle env) w = (.error e, v) ∧ SameRows w v) :=
  run_located env w r.id location r.pickup env.tripStartProximityMeters _ _ _ _ rfl

theorem run_ensureAtDropoff_cases (env : Environment) (w : World) (r : Ride) (location : ParticipantLocation) :
    (∃ rider, w.riderLocation r.id = some rider ∧
      (∀ p ∈ completionProbes w r location rider, p.Passes env env.tripCompletionProximityMeters) ∧
      (ensureAtDropoff env r location).run (handle env) w = (.ok (), { w with answered := w.answered + 3 })) ∨
    ((∀ rider, w.riderLocation r.id = some rider →
        ¬ ∀ p ∈ completionProbes w r location rider, p.Passes env env.tripCompletionProximityMeters) ∧
      ∃ e v, (ensureAtDropoff env r location).run (handle env) w = (.error e, v) ∧ SameRows w v) :=
  run_located env w r.id location r.dropoff env.tripCompletionProximityMeters _ _ _ _ rfl

/-- A start either passes every check and transitions the ride, or leaves all rides alone. -/
theorem startRide_cases (env : Environment) (w : World) (rid : Id) (driverId : Option Id)
    (location : ParticipantLocation) :
    (∃ r rider, w.rides.find rid = some r ∧ (driverId ≠ none ∧ r.driverId = driverId) ∧
      r.status ∈ [ERideStatus.enroute, .tripStarted] ∧ w.riderLocation rid = some rider ∧
      (∀ p ∈ startProbes w r location rider, p.Passes env env.tripStartProximityMeters) ∧
      w.Becomes rid (some ((w.bookingOf r).transition [.enroute, .tripStarted] .tripStarted))
        ((startRide env rid driverId location).run (handle env) w).2) ∨
    (SameRows w ((startRide env rid driverId location).run (handle env) w).2 ∧
      ∀ r rider, StartOpen w rid driverId r rider →
        ¬ ∀ p ∈ startProbes w r location rider, p.Passes env env.tripStartProximityMeters) := by
  unfold startRide
  simp only [↓Program.throw_seq]
  cases driverId with
  | none => exact .inr ⟨.refl w, fun r rider ho => absurd rfl ho.driver.1⟩
  | some d =>
    simp only
    rw [Program.run_bind_ok _ (run_findById env rid w)]
    cases hr : w.rides.find rid with
    | none =>
      refine .inr ⟨.refl w, fun r rider ho => ?_⟩
      have hride := ho.ride
      rw [hr] at hride
      cases hride
    | some r =>
      obtain rfl : r.id = rid := Table.key_of_find hr
      have hsame (x : Ride) (rider : ParticipantLocation) (ho : StartOpen w r.id (some d) x rider) : x = r :=
        Option.some.inj (ho.ride.symm.trans hr)
      simp only
      by_cases h1 : r.driverId = some d
      swap
      · rw [if_pos h1]
        refine .inr ⟨.refl w, fun x rider ho => ?_⟩
        obtain rfl := hsame x rider ho
        exact absurd ho.driver.2 h1
      by_cases h2 : r.status ∈ [ERideStatus.enroute, .tripStarted]
      swap
      · have hno (x : Ride) (rider : ParticipantLocation) (ho : StartOpen w r.id (some d) x rider) :
            ¬ ∀ p ∈ startProbes w x location rider, p.Passes env env.tripStartProximityMeters := by
          obtain rfl := hsame x rider ho
          rw [ho.status] at h2
          simp at h2
        rw [if_neg (by simpa using h1)]
        split_ifs <;> exact .inr ⟨.refl w, hno⟩
      have h3 : r.status ≠ .canceled ∧ r.status ≠ .completed := by
        constructor <;> rintro he <;> simp [he] at h2
      rw [if_neg (by simpa using h1), if_neg h3.1, if_neg h3.2, if_neg (not_not.mpr h2)]
      rcases run_ensureAtPickup env w r location with ⟨rider, hl, hpass, hrun⟩ | ⟨hno, e, v, hrun, hv⟩
      swap
      · rw [Program.run_bind_error _ hrun]
        refine .inr ⟨hv, fun x rider ho => ?_⟩
        obtain rfl := hsame x rider ho
        exact hno rider ho.shared
      refine .inl ⟨r, rider, rfl, ⟨by simp, h1⟩, h2, hl, hpass, ?_⟩
      rw [Program.run_bind_ok _ hrun]
      have hv : SameRows w { w with answered := w.answered + 3 } := ⟨rfl, rfl⟩
      obtain ⟨a, u, hrec, hu, -⟩ :=
        run_recordLocation env r.id d .driver location { w with answered := w.answered + 3 }
      rw [Program.run_bind_ok _ hrec]
      have hwu := hv.trans hu
      have hbu : u.booking r.id = some (w.bookingOf r) := by
        rw [World.booking_congr hwu.1 hwu.2, World.booking_of_find hr]
      obtain ⟨ride, changed, x, ht, -, h₁⟩ := transition_becomes env hbu [.enroute, .tripStarted]
        .tripStarted (some "Driver started the trip")
      have hx := (World.becomes_tables hwu.1 hwu.2 r.id).trans h₁
      rw [Program.run_bind_ok _ ht, Program.run_bind_ok _ (run_findById env _ x)]
      split
      · exact announces_both.becomes fun ns => hx.tables rfl rfl
      · exact hx

/-- Exactly an open ride whose checks pass is started. -/
theorem start_moves_iff (env : Environment) (w : World) (rid : Id) (driverId : Option Id)
    (location : ParticipantLocation) :
    MovesTo env (startRide env rid driverId location) w rid .tripStarted ↔
      ∃ r rider, StartOpen w rid driverId r rider ∧
        ∀ p ∈ startProbes w r location rider, p.Passes env env.tripStartProximityMeters := by
  rcases startRide_cases env w rid driverId location with
    ⟨r, rider, hr, hd, hs, hl, hpass, h⟩ | ⟨hsame, hno⟩
  · have hstatus : w.statusOf rid = some r.status := by rw [World.statusOf, hr, Option.map_some]
    constructor
    · rintro ⟨hnot, -⟩
      have he : r.status = .enroute := by
        rw [hstatus] at hnot
        rcases List.mem_cons.mp hs with he | he
        · exact he
        · exact absurd (congrArg some (List.mem_singleton.mp he)) hnot
      exact ⟨r, rider, ⟨hr, hd, he, hl⟩, hpass⟩
    · rintro ⟨x, _, ho, -⟩
      obtain rfl := Option.some.inj (ho.ride.symm.trans hr)
      refine ⟨?_, ?_⟩
      · rw [hstatus, ho.status]
        simp
      · rw [statusOf_becomes h]
        simp [Booking.transition, ho.status]
  · constructor
    · exact fun h => absurd h (not_moves_same hsame)
    · rintro ⟨r, rider, ho, hpass⟩
      exact absurd hpass (hno r rider ho)

/-- The distance that is tracked once the driver's location has been recorded. -/
def World.drivenMeters (env : Environment) (w : World) (rid : Id) (location : ParticipantLocation) : ℚ :=
  let state := (w.tripStates rid).getD (.initial rid)
  state.totalDistanceMeters + match state.lastDriverLocation with
    | some previous => (env.geo (w.answered + 3) previous.coordinate location.coordinate).distance
    | none => 0

/-- After the checks the driver's location is recorded, and the total distance read. -/
theorem run_recordDriver (env : Environment) (w : World) (rid d : Id) (location : ParticipantLocation) :
    ∃ a u, (recordLocation rid d .driver location).run (handle env) { w with answered := w.answered + 3 } =
        (.ok a, u) ∧ SameRows w u ∧
      ((u.tripStates rid).getD (.initial rid)).completed = ((w.tripStates rid).getD (.initial rid)).completed ∧
      (getTotalDistanceMeters rid).run (handle env) u = (.ok (w.drivenMeters env rid location), u) := by
  unfold recordLocation getState
  simp only [bind_assoc, pure_bind]
  rw [Program.run_bind_ok _ (run_call env _ _)]
  have hdelta : ∃ v, (driverDistance ((w.tripStates rid).getD (.initial rid)) .driver location).run (handle env)
      { w with answered := w.answered + 3 } = (.ok (match ((w.tripStates rid).getD (.initial rid)).lastDriverLocation with
        | some previous => (env.geo (w.answered + 3) previous.coordinate location.coordinate).distance
        | none => 0), v) ∧ SameRows w v := by
    unfold driverDistance calculateDistanceBetweenCoordinates
    cases ((w.tripStates rid).getD (.initial rid)).lastDriverLocation with
    | none => exact ⟨_, rfl, ⟨rfl, rfl⟩⟩
    | some previous =>
      simp only
      rw [Program.run_bind_ok _ (run_call env _ _)]
      exact ⟨_, rfl, ⟨rfl, rfl⟩⟩
  obtain ⟨v, hrun, hv⟩ := hdelta
  rw [Program.run_bind_ok _ hrun, Program.run_bind_ok _ (run_call env _ _),
    Program.run_bind_ok _ (run_call env _ _), Program.run_bind_ok _ (run_call env _ _),
    Program.run_bind_ok _ (run_call env _ _)]
  refine ⟨_, _, rfl, hv, ?_, ?_⟩
  · simp [Function.update_self]
  unfold getTotalDistanceMeters getState
  simp only [bind_assoc, pure_bind]
  rw [Program.run_bind_ok _ (run_call env _ _)]
  simp [Function.update_self, World.drivenMeters]

/-- The guards of `completeRide` apart from its location checks. -/
structure CompletionOpen (env : Environment) (w : World) (rid : Id) (driverId : Option Id)
    (location : ParticipantLocation) (discountAmount : Option JsNumber) (r : Ride)
    (rider : ParticipantLocation) : Prop where
  ride : w.rides.find rid = some r
  driver : driverId ≠ none ∧ r.driverId = driverId
  status : r.status ∈ [ERideStatus.enroute, .accepted, .assigned, .tripStarted]
  shared : w.riderLocation rid = some rider
  fare : ∃ fare, env.fareEngine.calculateFare (billedDistanceKm r (w.drivenMeters env rid location))
    discountAmount = .ok fare

/-- A completion either passes every check and transitions the ride, or leaves all rides alone. -/
theorem completeRide_cases (env : Environment) (w : World) (rid : Id) (requester : RequestingClient)
    (location : ParticipantLocation) (discountAmount : Option JsNumber) :
    (∃ r rider, w.rides.find rid = some r ∧ (requester.id ≠ none ∧ r.driverId = requester.id) ∧
      w.riderLocation rid = some rider ∧
      (∀ p ∈ completionProbes w r location rider, p.Passes env env.tripCompletionProximityMeters) ∧
      (∃ fare, env.fareEngine.calculateFare (billedDistanceKm r (w.drivenMeters env rid location))
        discountAmount = .ok fare) ∧
      w.Becomes rid (some ((w.bookingOf r).transition [.enroute, .accepted, .assigned, .tripStarted] .completed))
        ((completeRide env rid requester location discountAmount).run (handle env) w).2) ∨
    (SameRows w ((completeRide env rid requester location discountAmount).run (handle env) w).2 ∧
      ∀ r rider, CompletionOpen env w rid requester.id location discountAmount r rider →
        ¬ ∀ p ∈ completionProbes w r location rider, p.Passes env env.tripCompletionProximityMeters) := by
  unfold completeRide
  simp only [↓Program.throw_seq]
  generalize requester.id = driverId
  cases driverId with
  | none => exact .inr ⟨.refl w, fun r rider ho => absurd rfl ho.driver.1⟩
  | some d =>
    simp only
    rw [Program.run_bind_ok _ (run_findById env rid w)]
    cases hr : w.rides.find rid with
    | none =>
      refine .inr ⟨.refl w, fun r rider ho => ?_⟩
      have hride := ho.ride
      rw [hr] at hride
      cases hride
    | some r =>
      obtain rfl : r.id = rid := Table.key_of_find hr
      have hsame (x : Ride) (rider : ParticipantLocation)
          (ho : CompletionOpen env w r.id (some d) location discountAmount x rider) : x = r :=
        Option.some.inj (ho.ride.symm.trans hr)
      simp only
      by_cases h1 : r.driverId = some d
      swap
      · rw [if_pos h1]
        refine .inr ⟨.refl w, fun x rider ho => ?_⟩
        obtain rfl := hsame x rider ho
        exact absurd ho.driver.2 h1
      have hclosed (hs : r.status ∉ [ERideStatus.enroute, .accepted, .assigned, .tripStarted]) (x : Ride)
          (rider : ParticipantLocation)
          (ho : CompletionOpen env w r.id (some d) location discountAmount x rider) :
          ¬ ∀ p ∈ completionProbes w x location rider,
            p.Passes env env.tripCompletionProximityMeters := by
        obtain rfl := hsame x rider ho
        exact absurd ho.status hs
      by_cases h2 : r.status = .canceled
      · rw [if_neg (by simpa using h1), if_pos h2]
        exact .inr ⟨.refl w, hclosed (by simp [h2])⟩
      by_cases h3 : r.status = .completed
      · rw [if_neg (by simpa using h1), if_neg h2, if_pos h3]
        exact .inr ⟨.refl w, hclosed (by simp [h3])⟩
      rw [if_neg (by simpa using h1), if_neg h2, if_neg h3]
      rcases run_ensureAtDropoff_cases env w r location with
        ⟨rider, hl, hpass, hrun⟩ | ⟨hno, e, v, hrun, hv⟩
      swap
      · rw [Program.run_bind_error _ hrun]
        refine .inr ⟨hv, fun x rider ho => ?_⟩
        obtain rfl := hsame x rider ho
        exact hno rider ho.shared
      obtain ⟨a, u, hrec, hu, -, htotal⟩ := run_recordDriver env w r.id d location
      rw [Program.run_bind_ok _ hrun, Program.run_bind_ok _ hrec, Program.run_bind_ok _ htotal]
      cases hf : env.fareEngine.calculateFare (billedDistanceKm r (w.drivenMeters env r.id location))
          discountAmount with
      | error e =>
        refine .inr ⟨hu, fun x rider ho => ?_⟩
        obtain rfl := hsame x rider ho
        obtain ⟨fare, hfare⟩ := ho.fare
        rw [hf] at hfare
        cases hfare
      | ok fare =>
        have hbu : u.booking r.id = some (w.bookingOf r) := by
          rw [World.booking_congr hu.1 hu.2, World.booking_of_find hr]
        refine .inl ⟨r, rider, rfl, ⟨by simp, h1⟩, hl, hpass, ⟨fare, hf⟩, ?_⟩
        exact (World.becomes_tables hu.1 hu.2 r.id).trans (settleRide_becomes hbu fare)

/-- Exactly an open ride whose checks pass is completed. -/
theorem completion_moves_iff (env : Environment) (w : World) (rid : Id) (requester : RequestingClient)
    (location : ParticipantLocation) (discountAmount : Option JsNumber) :
    MovesTo env (completeRide env rid requester location discountAmount) w rid .completed ↔
      ∃ r rider, CompletionOpen env w rid requester.id location discountAmount r rider ∧
        ∀ p ∈ completionProbes w r location rider, p.Passes env env.tripCompletionProximityMeters := by
  rcases completeRide_cases env w rid requester location discountAmount with
    ⟨r, rider, hr, hd, hl, hpass, hfare, h⟩ | ⟨hsame, hno⟩
  · have hstatus : w.statusOf rid = some r.status := by rw [World.statusOf, hr, Option.map_some]
    have hafter := statusOf_becomes h
    have hb : (w.bookingOf r).status = r.status := rfl
    by_cases hs : r.status ∈ [ERideStatus.enroute, .accepted, .assigned, .tripStarted]
    · refine iff_of_true ⟨?_, ?_⟩ ⟨r, rider, ⟨hr, hd, hs, hl, hfare⟩, hpass⟩
      · rw [hstatus]
        rintro he
        simp [Option.some.inj he] at hs
      · rw [hafter, Booking.transition, hb, if_pos hs]
    · refine iff_of_false ?_ ?_
      · rintro ⟨hnot, hmoved⟩
        rw [hafter, Booking.transition, hb, if_neg hs] at hmoved
        exact hnot (hstatus.trans hmoved)
      · rintro ⟨x, _, ho, -⟩
        obtain rfl := Option.some.inj (ho.ride.symm.trans hr)
        exact hs ho.status
  · constructor
    · exact fun h => absurd h (not_moves_same hsame)
    · rintro ⟨r, rider, ho, hpass⟩
      exact absurd hpass (hno r rider ho)

/-- Driver, rider and target are within the radius of each other. -/
def AllNear (distance : Coordinate → Coordinate → ℚ) (radius : ℚ) (probes : List GeoProbe) : Prop :=
  ∀ p ∈ probes, ¬ p.Far distance radius

/-- Where two points are farther apart than the radius, a pair that far apart is measured. -/
def FarSeen (distance : Coordinate → Coordinate → ℚ) (outcomes : ℕ → PipelineOutcome) (radius : ℚ)
    (probes : List GeoProbe) : Prop :=
  (∃ p ∈ probes, p.Far distance radius) → ∃ p ∈ probes, p.Far distance radius ∧ p.Measured outcomes

/-- The fence of an operation that moves the ride exactly when its guards and probes pass. -/
theorem fence_iff {w : World} {rid : Id} {radius : ℚ} {moves : Prop}
    {opened : Ride → ParticipantLocation → Prop} {probes : Ride → ParticipantLocation → List GeoProbe}
    (hmoves : moves ↔ ∃ r rider, opened r rider ∧
      ∀ p ∈ probes r rider, p.Passes (env.withRedis distance outcomes) radius)
    (hopen : ∀ r rider, opened r rider → w.rides.find rid = some r ∧ w.riderLocation rid = some rider) :
    (moves → ∃ r rider, w.rides.find rid = some r ∧ w.riderLocation rid = some rider ∧
      AllNear distance radius (probes r rider)) ↔
    ∀ r rider, opened r rider → radius < 0 ∨ FarSeen distance outcomes radius (probes r rider) := by
  have hfence (r : Ride) (rider : ParticipantLocation) :
      ((∀ p ∈ probes r rider, p.Passes (env.withRedis distance outcomes) radius) →
        AllNear distance radius (probes r rider)) ↔
      radius < 0 ∨ FarSeen distance outcomes radius (probes r rider) :=
    near_of_passes_iff GeoProbe.passes_iff
  constructor
  · intro h r rider ho
    apply (hfence r rider).mp
    intro hpass
    obtain ⟨x, y, hx, hy, hnear⟩ := h (hmoves.mpr ⟨r, rider, ho, hpass⟩)
    obtain ⟨hr, hl⟩ := hopen r rider ho
    obtain rfl := Option.some.inj (hx.symm.trans hr)
    obtain rfl := Option.some.inj (hy.symm.trans hl)
    exact hnear
  · intro h hm
    obtain ⟨r, rider, ho, hpass⟩ := hmoves.mp hm
    obtain ⟨hr, hl⟩ := hopen r rider ho
    exact ⟨r, rider, hr, hl, (hfence r rider).mpr (h r rider ho) hpass⟩

/-- The geofence keeps what it is for exactly when, for a ride that the guards admit, a
pair of points outside the radius is measured if there is one (or no distance is
within the radius). -/
theorem geofence_sound_iff (env : Environment) (distance : Coordinate → Coordinate → ℚ)
    (outcomes : ℕ → PipelineOutcome) (w : World) (rid : Id) (location : ParticipantLocation) :
    (∀ driverId,
      (MovesTo (env.withRedis distance outcomes) (startRide (env.withRedis distance outcomes) rid driverId
          location) w rid .tripStarted →
        ∃ r rider, w.rides.find rid = some r ∧ w.riderLocation rid = some rider ∧
          AllNear distance env.tripStartProximityMeters (startProbes w r location rider)) ↔
      ∀ r rider, StartOpen w rid driverId r rider → env.tripStartProximityMeters < 0 ∨
        FarSeen distance outcomes env.tripStartProximityMeters (startProbes w r location rider)) ∧
    ∀ requester discountAmount,
      (MovesTo (env.withRedis distance outcomes) (completeRide (env.withRedis distance outcomes) rid
          requester location discountAmount) w rid .completed →
        ∃ r rider, w.rides.find rid = some r ∧ w.riderLocation rid = some rider ∧
          AllNear distance env.tripCompletionProximityMeters (completionProbes w r location rider)) ↔
      ∀ r rider, CompletionOpen (env.withRedis distance outcomes) w rid requester.id location
          discountAmount r rider → env.tripCompletionProximityMeters < 0 ∨
        FarSeen distance outcomes env.tripCompletionProximityMeters (completionProbes w r location rider) := by
  constructor
  · intro driverId
    exact fence_iff (start_moves_iff (env.withRedis distance outcomes) w rid driverId location)
      fun r rider ho => ⟨ho.ride, ho.shared⟩
  · intro requester discountAmount
    exact fence_iff (completion_moves_iff (env.withRedis distance outcomes) w rid requester location
      discountAmount) fun r rider ho => ⟨ho.ride, ho.shared⟩

/-- Ride 1 is ENROUTE with driver 7, and its rider waits at the pickup point. -/
def pickupWorld : World :=
  (World.initial []).after (.around [7, 8]) (startedRun.dropLast)

/-- Points are at one place or a kilometre apart. -/
def kilometre (origin destination : Coordinate) : ℚ := if origin = destination then 0 else 1000

/-- A driver beyond the latitudes of Redis. -/
def farNorth : ParticipantLocation := ⟨⟨0, 86⟩, none, "10:05"⟩

/-- Redis answers everything it is asked. -/
def answering : Environment := (Environment.around [7, 8]).withRedis kilometre fun _ => .executed

/-- From beyond the latitudes of Redis the driver starts the trip a kilometre away. -/
theorem far_driver_starts :
    ¬ (MovesTo answering (startRide answering 1 (some 7) farNorth) pickupWorld 1 .tripStarted →
      ∃ r rider, pickupWorld.rides.find 1 = some r ∧ pickupWorld.riderLocation 1 = some rider ∧
        AllNear kilometre answering.tripStartProximityMeters (startProbes pickupWorld r farNorth rider)) := by
  intro h
  obtain ⟨r, rider, hr, -, hnear⟩ := h ⟨by decide +kernel, by decide +kernel⟩
  have hpickup : (pickupWorld.rides.find 1).map Ride.pickup = some ⟨1, 1⟩ := by decide +kernel
  rw [hr, Option.map_some, Option.some.injEq] at hpickup
  have hfirst := hnear _ List.mem_cons_self
  rw [hpickup] at hfirst
  exact hfirst (by decide +kernel)

end NebLite
