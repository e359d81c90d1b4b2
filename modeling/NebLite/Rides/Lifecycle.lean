import NebLite.Rides.Operations
import NebLite.Rides.Creation
import NebLite.Atomic.Runs

/-! Sequential runs of the lifecycle operations. Each step acts on the
bookings as `LifecycleOp.effect` says, and the matching invariant follows. -/

namespace NebLite

open Atomic

/-- The lifecycle operations with their arguments, and the location report
that the start and the completion of a trip look at. -/
inductive LifecycleOp where
  | createRide (riderId : Option Id) (payload : CreateRideInput) (now : Time)
  | acceptRideByDriver (rideId driverId : Id) (now : Time)
  | rejectRideByDriver (rideId driverId : Id) (reason : Option String) (now : Time)
  | confirmDriverAcceptance (rideId riderId : Id) (now : Time)
  | rejectDriverAcceptance (rideId riderId : Id) (reason : Option String) (now : Time)
  | cancelRide (rideId : Id) (requester : RequestingClient) (reason : Option String) (now : Time)
  | startRide (rideId : Id) (driverId : Option Id) (driverLocation : ParticipantLocation)
  | completeRide (rideId : Id) (requester : RequestingClient) (driverLocation : ParticipantLocation)
      (discountAmount : Option JsNumber)
  | recordTripLocation (rideId : Id) (requester : RequestingClient) (location : ParticipantLocation)

namespace LifecycleOp

variable (env : Environment)

def program : LifecycleOp → Service Unit
  | createRide riderId payload now => do let _ ← NebLite.createRide env riderId payload now
  | acceptRideByDriver rideId driverId now => do
    let _ ← NebLite.acceptRideByDriver rideId driverId now
  | rejectRideByDriver rideId driverId reason now => do
    let _ ← NebLite.rejectRideByDriver rideId driverId reason now
  | confirmDriverAcceptance rideId riderId now => do
    let _ ← NebLite.confirmDriverAcceptance rideId riderId now
  | rejectDriverAcceptance rideId riderId reason now => do
    let _ ← NebLite.rejectDriverAcceptance rideId riderId reason now
  | cancelRide rideId requester reason now => do
    let _ ← NebLite.cancelRide rideId requester reason now
  | startRide rideId driverId location => do
    let _ ← NebLite.startRide env rideId driverId location
  | completeRide rideId requester location discount => do
    let _ ← NebLite.completeRide env rideId requester location discount
  | recordTripLocation rideId requester location => NebLite.recordTripLocation rideId requester location

/-- The ride an operation is about; a creation is about none yet. -/
def ride : LifecycleOp → Option Id
  | createRide .. => none
  | acceptRideByDriver rideId .. | rejectRideByDriver rideId .. | confirmDriverAcceptance rideId ..
  | rejectDriverAcceptance rideId .. | cancelRide rideId .. | startRide rideId ..
  | completeRide rideId .. | recordTripLocation rideId .. => some rideId

/-- What an operation does to the booking of its ride; `arrived` says whether
the location checks of a start or a completion pass. -/
def effect (arrived : Bool) : LifecycleOp → Booking → Booking
  | createRide .. | recordTripLocation .. => id
  | acceptRideByDriver _ driverId _ => (·.accept driverId)
  | rejectRideByDriver _ driverId _ _ => (·.driverReject driverId)
  | confirmDriverAcceptance _ riderId _ => (·.confirm riderId)
  | rejectDriverAcceptance _ riderId _ _ => (·.riderReject riderId)
  | cancelRide _ requester _ _ => (·.cancel requester.id)
  | startRide _ driverId _ => (·.start driverId arrived)
  | completeRide _ requester _ _ => (·.complete requester.id arrived)

def step (w : World) (op : LifecycleOp) : World := ((op.program env).run (handle env) w).2

end LifecycleOp

/-- The state at rest after a run of operations. -/
def World.after (env : Environment) (w : World) (ops : List LifecycleOp) : World :=
  ops.foldl (LifecycleOp.step env) w

variable {env : Environment}

theorem run_discard {α : Type} (p : Service α) (w : World) :
    ((p >>= fun _ => pure ()).run (handle env) w).2 = (p.run (handle env) w).2 := by
  rw [Program.run_bind]
  rcases p.run (handle env) w with ⟨_ | _, v⟩ <;> rfl

theorem probes_ensureAccess {r : Ride} {requester : RequestingClient} :
    Probes env (ensureRequesterCanAccessRide r requester) := by
  unfold ensureRequesterCanAccessRide
  cases requester.id with
  | none => exact probes_throw
  | some id =>
    simp only
    rcases requester.role with _ | _ | _
    · exact probes_ret
    · simp only
      split
      · exact probes_throw
      · exact probes_ret
    · simp only
      split
      · exact probes_throw
      · exact probes_ret

theorem probes_recordTripLocation {rid : Id} {requester : RequestingClient}
    {location : ParticipantLocation} : Probes env (recordTripLocation rid requester location) := by
  unfold recordTripLocation
  simp only [↓Program.throw_seq]
  cases requester.id with
  | none => exact probes_throw
  | some id =>
    refine Probes.bind (probes_call fun _ => ⟨rfl, rfl⟩ : Probes env (findById rid)) fun o => ?_
    cases o with
    | none => exact probes_throw
    | some r =>
      refine Probes.bind probes_ensureAccess fun _ => ?_
      by_cases h1 : r.status = .canceled
      · rw [if_pos h1]
        exact probes_throw
      by_cases h2 : r.status = .completed
      · rw [if_neg h1, if_pos h2]
        exact probes_throw
      rw [if_neg h1, if_neg h2]
      rcases requester.role with _ | _ | _
      · exact probes_throw
      · exact Probes.bind probes_recordLocation fun _ => probes_ret
      · by_cases h3 : r.driverId = some id
        · simp only
          rw [if_neg (by simpa using h3)]
          exact Probes.bind probes_recordLocation fun _ => probes_ret
        · simp only
          rw [if_pos h3]
          exact probes_throw

/-- Every operation acts on the booking of its ride by its effect, and leaves the others. -/
theorem LifecycleOp.step_becomes (env : Environment) (w : World) (op : LifecycleOp) {rid : Id}
    (h : op.ride = some rid) :
    ∃ arrived, w.Becomes rid ((w.booking rid).map (op.effect arrived)) (op.step env w) := by
  cases op with
  | createRide => cases h
  | acceptRideByDriver =>
    cases h
    exact ⟨true, by rw [step, program, run_discard]; exact acceptRideByDriver_becomes ..⟩
  | rejectRideByDriver =>
    cases h
    exact ⟨true, by rw [step, program, run_discard]; exact rejectRideByDriver_becomes ..⟩
  | confirmDriverAcceptance =>
    cases h
    exact ⟨true, by rw [step, program, run_discard]; exact confirmDriverAcceptance_becomes ..⟩
  | rejectDriverAcceptance =>
    cases h
    exact ⟨true, by rw [step, program, run_discard]; exact rejectDriverAcceptance_becomes ..⟩
  | cancelRide =>
    cases h
    exact ⟨true, by rw [step, program, run_discard]; exact cancelRide_becomes ..⟩
  | startRide =>
    cases h
    rw [step, program, run_discard]
    exact startRide_becomes ..
  | completeRide =>
    cases h
    rw [step, program, run_discard]
    exact completeRide_becomes ..
  | recordTripLocation _ requester location =>
    cases h
    have hp : Probes env (NebLite.recordTripLocation rid requester location) :=
      probes_recordTripLocation
    have he : (w.booking rid).map (effect true (recordTripLocation rid requester location)) =
        w.booking rid := congrFun Option.map_id (w.booking rid)
    exact ⟨true, he.symm ▸ World.becomes_tables (hp w).1 (hp w).2 rid⟩

/-- A configuration with `drivers` near every pickup point. Points are at one
place or a kilometre apart, and the payment gateway answers with a redirect. -/
def Environment.around (drivers : List Id) : Environment where
  fareEngine := ⟨3000, 5, 1000, 20000⟩
  tripStartProximityMeters := 20
  tripCompletionProximityMeters := 20
  paymentApiUrl := some "gateway"
  paymentApiKey := some "key"
  paymentProvider := "provider"
  route _ := .ok ⟨5, 600⟩
  nearbyDrivers _ := .ok (drivers.map fun d => ⟨some d, some 100⟩)
  geo _ origin destination := if origin = destination then .meters 0 else .meters 1000
  gateway _ _ := .ok (some [("token", .str "token"), ("redirect_url", .str "redirect")])

theorem Environment.around_distinct {drivers : List Id} (h : drivers.Nodup) :
    (Environment.around drivers).NearbyDistinct := by
  rintro _ _ ⟨⟩
  rw [List.map_map]
  exact h.map (Option.some_injective Id)

/-- Every booking of the world satisfies `P`. -/
def World.Bookings (P : Booking → Prop) (w : World) : Prop := ∀ rid b, w.booking rid = some b → P b

theorem World.Becomes.bookings {w v : World} {rid : Id} {o : Option Booking} {P : Booking → Prop}
    (h : w.Becomes rid o v) (hw : w.Bookings P) (ho : ∀ b, o = some b → P b) : v.Bookings P := by
  intro k b hb
  by_cases hk : k = rid
  · subst hk
    exact ho b (h.booked ▸ hb)
  · exact hw k b (h.others k hk ▸ hb)

/-- A property of bookings that creations establish and effects keep holds after a step. -/
theorem LifecycleOp.step_bookings (hd : env.NearbyDistinct) {P : Booking → Prop}
    (hopen : ∀ b : Booking, b.Opened → P b) {w : World} {op : LifecycleOp} (hw : w.WellFormed)
    (heff : ∀ rid b arrived, op.ride = some rid → w.booking rid = some b → P b →
      P (op.effect arrived b)) (hP : w.Bookings P) :
    (op.step env w).WellFormed ∧ (op.step env w).Bookings P := by
  cases hride : op.ride with
  | none =>
    cases op with
    | createRide riderId payload now =>
      rw [step, program, run_discard]
      rcases createRide_opens hd hw riderId payload now with h | ⟨b, hb, -, h⟩
      · have hs := World.becomes_tables h.1 h.2 w.rides.nextKey
        exact ⟨hs.wellFormed hw, hs.bookings hP fun b hb => hP _ b hb⟩
      · exact ⟨h.wellFormed hw, h.bookings hP fun _ he => Option.some.inj he ▸ hopen b hb⟩
    | _ => cases hride
  | some rid =>
    obtain ⟨arrived, h⟩ := op.step_becomes env w hride
    refine ⟨h.wellFormed hw, h.bookings hP fun b hb => ?_⟩
    obtain ⟨b', hb', rfl⟩ := Option.map_eq_some_iff.mp hb
    exact heff rid b' arrived hride hb' (hP rid b' hb')

/-- Where an operation keeps `P` of a booking unless the booking is `bad`, it keeps `P` of all bookings
unless that of its own ride is `bad`. -/
theorem LifecycleOp.step_bookings_iff (hd : env.NearbyDistinct) {P bad : Booking → Prop}
    (hopen : ∀ b : Booking, b.Opened → P b) {w : World} (op : LifecycleOp) (hw : w.WellFormed)
    (heff : ∀ rid b arrived, op.ride = some rid → w.booking rid = some b → P b →
      (P (op.effect arrived b) ↔ ¬ bad b)) (hP : w.Bookings P) :
    (op.step env w).Bookings P ↔ ∀ rid b, op.ride = some rid → w.booking rid = some b → ¬ bad b := by
  constructor
  · intro h rid b hid hb
    obtain ⟨arrived, hs⟩ := op.step_becomes env w hid
    rw [hb] at hs
    exact (heff rid b arrived hid hb (hP _ b hb)).mp (h _ _ hs.booked)
  · intro h
    exact (op.step_bookings hd hopen hw (fun rid b arrived hid hb hPb =>
      (heff rid b arrived hid hb hPb).mpr (h rid b hid hb)) hP).2

theorem Booking.Matched.effect {b : Booking} (h : b.Matched) (arrived : Bool) (op : LifecycleOp) :
    (op.effect arrived b).Matched := by
  cases op with
  | createRide => exact h
  | acceptRideByDriver _ d => exact h.accept d
  | rejectRideByDriver _ d => exact h.driverReject d
  | confirmDriverAcceptance _ rider => exact h.confirm rider
  | rejectDriverAcceptance _ rider => exact h.riderReject rider
  | cancelRide _ requester => exact h.cancel requester.id
  | startRide _ d => exact h.start d arrived
  | completeRide _ requester => exact h.complete requester.id arrived
  | recordTripLocation => exact h

/-- What every state at rest satisfies. -/
structure World.AtRest (w : World) : Prop where
  wellFormed : w.WellFormed
  matched : w.Bookings Booking.Matched

theorem World.atRest_initial (whitelist : List String) : (World.initial whitelist).AtRest where
  wellFormed := ⟨by simp [initial, Table.empty], by simp [initial, Table.empty]⟩
  matched rid b hb := by simp [booking, initial, Table.empty, Table.find] at hb

theorem World.AtRest.step (hd : env.NearbyDistinct) {w : World} (h : w.AtRest) (op : LifecycleOp) :
    (op.step env w).AtRest := by
  have hs := op.step_bookings hd (fun _ => Booking.Opened.matched) h.wellFormed
    (fun _ _ arrived _ _ hb => hb.effect arrived op) h.matched
  exact ⟨hs.1, hs.2⟩

theorem World.AtRest.after (hd : env.NearbyDistinct) {w : World} (h : w.AtRest)
    (ops : List LifecycleOp) : (w.after env ops).AtRest :=
  Runs.invariant (fun _ op hs _ => hs.step hd op) h (Runs.meets_true w ops)

end NebLite
