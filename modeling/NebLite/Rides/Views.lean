import NebLite.Atomic.Copies
import NebLite.Rides.Effects
import NebLite.Rides.Lifecycle
import NebLite.Rides.RideRow

/-! What rider and driver are told of their ride, in the answers to their own requests and
in notifications, and how a program is followed that tells them. -/

namespace NebLite

open Atomic

structure CandidateResponse where
  driverId : Id
  status : ERideDriverCandidateStatus
  reason : Option String
  distanceMeters : Option ℤ
  respondedAt : Option Time
  createdAt : Time

structure RideResponse where
  id : Id
  riderId : Id
  driverId : Option Id
  pickup : Coordinate
  dropoff : Coordinate
  status : ERideStatus
  fareEstimated : Option ℚ
  fareFinal : Option ℚ
  distanceEstimatedKm : Option ℚ
  durationEstimatedSeconds : Option ℤ
  distanceActualKm : Option ℚ
  discountPercent : Option ℚ
  discountAmount : Option ℚ
  appFeeAmount : Option ℚ
  paymentUrl : Option String
  paymentStatus : Option ERidePaymentStatus
  createdAt : Time
  candidates : Option (List CandidateResponse)

def toCandidateResponse (candidate : RideDriverCandidate) : CandidateResponse :=
  ⟨candidate.driverId, candidate.status, candidate.reason, candidate.distanceMeters, candidate.respondedAt,
    candidate.createdAt⟩

/-- `RideResponseService.toRideResponse`. -/
def toRideResponse (ride : Ride) (candidates : Option (List RideDriverCandidate)) : RideResponse where
  id := ride.id
  riderId := ride.riderId
  driverId := ride.driverId
  pickup := ride.pickup
  dropoff := ride.dropoff
  status := ride.status
  fareEstimated := ride.fareEstimated
  fareFinal := ride.fareFinal
  distanceEstimatedKm := ride.distanceEstimatedKm
  durationEstimatedSeconds := ride.durationEstimatedSeconds
  distanceActualKm := ride.distanceActualKm
  discountPercent := ride.discountPercent
  discountAmount := ride.discountAmount
  appFeeAmount := ride.appFeeAmount
  paymentUrl := ride.paymentUrl
  paymentStatus := ride.paymentStatus
  createdAt := ride.createdAt
  candidates := if ride.status ≠ .completed then candidates.map (·.map toCandidateResponse) else none

/-- What rider and driver have to agree on: who they are and how far the ride is. -/
structure RideView where
  riderId : Id
  driverId : Option Id
  status : ERideStatus
  deriving DecidableEq

abbrev Participant := NotificationTarget × Id

/-- The rider of the ride, and its driver when it has one. -/
def RideView.Concerns (v : RideView) (p : Participant) : Prop :=
  p = (.rider, v.riderId) ∨ ∃ d, v.driverId = some d ∧ p = (.driver, d)

def Ride.view (r : Ride) : RideView := ⟨r.riderId, r.driverId, r.status⟩

def Notification.view (n : Notification) : RideView := ⟨n.riderId, n.driverId, n.status⟩

def RideResponse.view (r : RideResponse) : RideView := ⟨r.riderId, r.driverId, r.status⟩

def World.view (w : World) (k : Id) : Option RideView := (w.rides.find k).map Ride.view

def Notification.told (n : Notification) : Message Participant Id RideView :=
  ⟨(n.target, n.targetId), n.rideId, n.view⟩

/-- The ride in the answer to a request. -/
abbrev Answer := Id × RideView

def Ride.answer (r : Ride) : Option Answer := some (r.id, r.view)

def RideResponse.answer (r : RideResponse) : Option Answer := some (r.id, r.view)

/-- What the caller of an operation hears when the operation returns. -/
def heard (caller : Option Participant) : Except ServiceError (Option Answer) →
    List (Message Participant Id RideView)
  | .error _ => []
  | .ok answer => (caller.bind fun p => answer.map fun a => ⟨p, a.1, a.2⟩).toList

theorem heard_none (a : Except ServiceError (Option Answer)) : heard none a = [] := by
  cases a <;> rfl

/-- Who calls an operation and hears its answer. -/
def LifecycleOp.caller : LifecycleOp → Option Participant
  | createRide riderId .. => riderId.map (.rider, ·)
  | acceptRideByDriver _ driverId _ | rejectRideByDriver _ driverId .. => some (.driver, driverId)
  | confirmDriverAcceptance _ riderId _ | rejectDriverAcceptance _ riderId .. => some (.rider, riderId)
  | cancelRide _ requester .. => requester.id.map (.rider, ·)
  | startRide _ driverId _ => driverId.map (.driver, ·)
  | completeRide _ requester .. => requester.id.map (.driver, ·)
  | recordTripLocation .. => none

/-- An operation with the ride that the gateway answers with. -/
def LifecycleOp.response (env : Environment) : LifecycleOp → Service (Option Answer)
  | createRide riderId payload now => do
    let (ride, _) ← NebLite.createRide env riderId payload now
    return ride.answer
  | acceptRideByDriver rideId driverId now => do
    let ride ← NebLite.acceptRideByDriver rideId driverId now
    return (toRideResponse ride none).answer
  | rejectRideByDriver rideId driverId reason now => do
    let ride ← NebLite.rejectRideByDriver rideId driverId reason now
    return (toRideResponse ride none).answer
  | confirmDriverAcceptance rideId riderId now => do
    let ride ← NebLite.confirmDriverAcceptance rideId riderId now
    return (toRideResponse ride none).answer
  | rejectDriverAcceptance rideId riderId reason now => do
    let ride ← NebLite.rejectDriverAcceptance rideId riderId reason now
    return (toRideResponse ride none).answer
  | cancelRide rideId requester reason now => do
    let ride ← NebLite.cancelRide rideId requester reason now
    return (toRideResponse ride none).answer
  | startRide rideId driverId location => do
    let ride ← NebLite.startRide env rideId driverId location
    return (toRideResponse ride none).answer
  | completeRide rideId requester location discount => do
    let ride ← NebLite.completeRide env rideId requester location discount
    return (toRideResponse ride none).answer
  | recordTripLocation rideId requester location => do
    NebLite.recordTripLocation rideId requester location
    return none

theorem LifecycleOp.run_response (env : Environment) (op : LifecycleOp) (w : World) :
    ((op.response env).run (handle env) w).2 = op.step env w := by
  have hsame {α : Type} (p : Service α) (f : α → Option Answer) :
      ((p >>= fun a => pure (f a)).run (handle env) w).2 = ((p >>= fun _ => pure ()).run (handle env) w).2 := by
    rw [Program.run_bind, Program.run_bind]
    rcases p.run (handle env) w with ⟨_ | _, v⟩ <;> rfl
  unfold step
  cases op with
  | recordTripLocation rideId requester location =>
    have hthen := hsame (NebLite.recordTripLocation rideId requester location) fun _ => none
    exact hthen.trans (run_discard _ w)
  | _ => exact hsame _ _

/-- A call that neither changes what concerns the participants of a ride nor tells them anything. -/
def Call.Unseen : Call → Prop
  | .updateRideRow _ | .claimDriver _ _ | .insertRide _ | .emit _ => False
  | _ => True

/-- Calls that leave the bookings of all rides. -/
def Call.OffBookings : Call → Prop
  | .updateRideRow _ | .claimDriver _ _ | .insertRide _ | .saveCandidate _ => False
  | _ => True

/-- Rides and candidates are as they were, for whoever looks at the bookings. -/
structure World.BookedAlike (w v : World) : Prop where
  view : v.view = w.view
  candidates : v.candidates = w.candidates

/-- What the participants should know while an operation runs, and what it has sent them. -/
structure Telling where
  views : Id → Option RideView
  sent : List Notification

/-- The calls of an operation, and what there is to tell after them. A ride changes before anything is sent. -/
inductive Discloses (w : World) : Telling → Call → Telling → Prop
  | unseen {l op} : op.Unseen → Discloses w l op l
  | write {views m v} : views m.id = some v →
      Discloses w ⟨views, []⟩ (.updateRideRow m) ⟨Function.update views m.id (some m.view), []⟩
  | claim {views rid v d} : views rid = some v → v.driverId = none →
      Discloses w ⟨views, []⟩ (.claimDriver rid d)
        ⟨Function.update views rid (some { v with driverId := some d }), []⟩
  | send {views sent n} : views n.rideId = some n.view →
      Discloses w ⟨views, sent⟩ (.emit n) ⟨views, sent ++ [n]⟩
  | create {views options} : (∀ d ∈ options.nearbyDrivers, d.driverId ≠ none) →
      Discloses w ⟨views, []⟩ (.insertRide options) ⟨Function.update views w.rides.nextKey
        (some ⟨options.ride.riderId, none, options.ride.status⟩), []⟩
  | refuse {l options} : (∃ d ∈ options.nearbyDrivers, d.driverId = none) → Discloses w l (.insertRide options) l

/-- An operation that began in `w₀` keeps account of what it has to tell. -/
def tellingOutline (w₀ : World) : Outline Telling Call World where
  pre l w := w.view = l.views ∧ w.notifications = w₀.notifications ++ l.sent
  move l op w l' := Discloses w l op l'

section Effects

variable {w v w₀ : World} {op : Call} {l l' : Telling}

theorem view_put {r m : Ride} (hr : w.rides.find m.id = some r) :
    ({ w with rides := w.rides.put m } : World).view = Function.update w.view m.id (some m.view) := by
  funext k
  have hput := Table.find_put (r := m) hr k
  simp only [World.view, hput, Ride.key_eq, Function.update_apply]
  split <;> rfl

theorem view_paymentState (w : World) (rideId : Id) (s : Option ERidePaymentStatus) (url : Option String) :
    (w.updatePaymentState rideId s url).2.view = w.view := by
  unfold World.updatePaymentState
  cases hr : w.rides.find rideId with
  | none => rfl
  | some r =>
    have hid : r.id = rideId := Table.key_of_find hr
    have hput := view_put (w := w) (m := { r with paymentStatus := s, paymentUrl := url }) (r := r) (hid ▸ hr)
    refine hput.trans (Function.update_eq_self_iff.mpr ?_)
    simp only [World.view, hid, hr]
    rfl

theorem Call.Unseen.kept (h : op.Unseen) (env : Environment) (w : World) :
    (handle env op w).2.view = w.view ∧ (handle env op w).2.notifications = w.notifications := by
  have hpersist (d : RidePaymentDetail) : (w.persistDetail d).2.rides = w.rides ∧
      (w.persistDetail d).2.notifications = w.notifications := by
    unfold World.persistDetail
    split <;> exact ⟨rfl, rfl⟩
  have hpay (v : World) (rid : Id) (s : Option ERidePaymentStatus) (url : Option String) :
      (v.updatePaymentState rid s url).2.notifications = v.notifications := by
    unfold World.updatePaymentState
    split <;> rfl
  have hview {v : World} (hr : v.rides = w.rides) : v.view = w.view := by
    unfold World.view
    rw [hr]
  cases op with
  | updateRideRow | claimDriver | insertRide | emit => exact h.elim
  | saveCandidate c =>
    simp only [handle, World.saveCandidate]
    split <;> exact ⟨rfl, rfl⟩
  | updatePaymentState rid s url => exact ⟨view_paymentState w rid s url, hpay w rid s url⟩
  | saveDetail d => exact ⟨hview (hpersist d).1, (hpersist d).2⟩
  | saveDetailAndOutbox d input => exact ⟨hview (hpersist d).1, (hpersist d).2⟩
  | saveDetailWithRideUpdate d update outbox now =>
    cases update with
    | none => cases outbox <;> exact ⟨hview (hpersist d).1, (hpersist d).2⟩
    | some u =>
      have hv := (view_paymentState (w.persistDetail d).2 u.rideId u.paymentStatus u.paymentUrl).trans
        (hview (hpersist d).1)
      have hn := (hpay (w.persistDetail d).2 u.rideId u.paymentStatus u.paymentUrl).trans (hpersist d).2
      cases outbox <;> exact ⟨hv, hn⟩
  | takePaymentJob id =>
    simp only [handle, World.takePaymentJob, Prod.map]
    split
    · split <;> exact ⟨rfl, rfl⟩
    · exact ⟨rfl, rfl⟩
  | finishPaymentJob id ok =>
    simp only [handle, World.finishPaymentJob]
    split <;> exact ⟨rfl, rfl⟩
  | _ => exact ⟨rfl, rfl⟩

theorem World.BookedAlike.refl (w : World) : w.BookedAlike w := ⟨rfl, rfl⟩

theorem World.BookedAlike.trans {u : World} (h : w.BookedAlike v) (h' : v.BookedAlike u) : w.BookedAlike u :=
  ⟨h'.view.trans h.view, h'.candidates.trans h.candidates⟩

theorem Call.OffBookings.unseen (h : op.OffBookings) (hop : ∀ n, op ≠ .emit n) : op.Unseen := by
  cases op <;> first | trivial | exact absurd rfl (hop _)

theorem Call.OffBookings.kept (h : op.OffBookings) (env : Environment) (w : World) :
    w.BookedAlike (handle env op w).2 := by
  have hview : (handle env op w).2.view = w.view := by
    by_cases hop : ∀ n, op ≠ .emit n
    · exact ((h.unseen hop).kept env w).1
    · obtain ⟨n, rfl⟩ : ∃ n, op = .emit n := by simpa using hop
      rfl
  refine ⟨hview, ?_⟩
  have hpersist (d : RidePaymentDetail) : (w.persistDetail d).2.candidates = w.candidates := by
    unfold World.persistDetail
    split <;> rfl
  have hpay (v : World) (rid : Id) (s : Option ERidePaymentStatus) (url : Option String) :
      (v.updatePaymentState rid s url).2.candidates = v.candidates := by
    unfold World.updatePaymentState
    split <;> rfl
  cases op with
  | updateRideRow | claimDriver | insertRide | saveCandidate => exact h.elim
  | updatePaymentState rid s url => exact hpay w rid s url
  | saveDetail d => exact hpersist d
  | saveDetailAndOutbox d input => exact hpersist d
  | saveDetailWithRideUpdate d update outbox now =>
    cases update with
    | none => cases outbox <;> exact hpersist d
    | some u =>
      have hu := (hpay (w.persistDetail d).2 u.rideId u.paymentStatus u.paymentUrl).trans (hpersist d)
      cases outbox <;> exact hu
  | takePaymentJob id =>
    simp only [handle, World.takePaymentJob, Prod.map]
    split
    · split <;> rfl
    · rfl
  | finishPaymentJob id ok =>
    simp only [handle, World.finishPaymentJob]
    split <;> rfl
  | _ => rfl

theorem insertRide_notifications (options : RideCreationOptions) :
    (w.insertRide options).2.notifications = w.notifications := by
  unfold World.insertRide
  simp only
  split
  · rfl
  · next filled candidates hi =>
    rw [congrArg World.notifications (insertCandidates_frame hi)]

/-- A creation that is not rolled back answers with the new ride. -/
theorem insertRide_answer (w : World) {options : RideCreationOptions}
    (hd : ∀ d ∈ options.nearbyDrivers, d.driverId ≠ none) :
    ∃ candidates, (w.insertRide options).1 = .ok (w.rides.nextKey, candidates) := by
  unfold World.insertRide
  have hok : ∃ v, World.insertCandidates w.rides.nextKey options.now
      { w with rides := w.rides.insert (World.newRide options.ride options.now) fun _ => rfl }
      options.nearbyDrivers = .ok v := insertCandidates_ok hd
  obtain ⟨⟨filled, candidates⟩, hok⟩ := hok
  simp only [hok]
  exact ⟨candidates, rfl⟩

theorem insertRide_blank (w : World) {options : RideCreationOptions}
    (hd : ∃ d ∈ options.nearbyDrivers, d.driverId = none) : ∃ e, (w.insertRide options).1 = .error e := by
  unfold World.insertRide
  simp only
  split
  · next e _ => exact ⟨e, rfl⟩
  · next filled candidates hi =>
    obtain ⟨-, new, -, -, hmap⟩ := insertCandidates_rows hi
    obtain ⟨d, hm, hnone⟩ := hd
    have hin : (none : Option Id) ∈ options.nearbyDrivers.map (·.driverId) := List.mem_map.mpr ⟨d, hm, hnone⟩
    rw [← hmap] at hin
    simp at hin

theorem Discloses.step (hm : Discloses w l op l') (env : Environment) (h : (tellingOutline w₀).pre l w) :
    (tellingOutline w₀).pre l' (handle env op w).2 := by
  obtain ⟨hviews, hsent⟩ := h
  cases hm with
  | unseen hop =>
    obtain ⟨hv, hn⟩ := hop.kept env w
    exact ⟨hv.trans hviews, hn.trans hsent⟩
  | @write views m v hm =>
    have hviews : w.view = views := hviews
    rw [← hviews] at hm
    obtain ⟨r, hr, -⟩ := Option.map_eq_some_iff.mp hm
    have hid : r.id = m.id := Table.key_of_find hr
    have hput := view_put (w := w) (m := r.writeColumns m) (r := r) (hid.symm ▸ hr)
    simp only [handle, World.updateRideRow, hr, Prod.map]
    refine ⟨hput.trans ?_, hsent⟩
    have hkey : (r.writeColumns m).id = m.id := hid
    rw [hkey, hviews]
    rfl
  | @claim views rid v d hrid hd =>
    have hviews : w.view = views := hviews
    rw [← hviews] at hrid
    obtain ⟨r, hr, rfl⟩ := Option.map_eq_some_iff.mp hrid
    have hid : r.id = rid := Table.key_of_find hr
    have hnone : r.driverId = none := hd
    have hput := view_put (w := w) (m := { r with driverId := some d }) (r := r) (hid.symm ▸ hr)
    simp only [handle, World.claimDriver, hr, hnone]
    refine ⟨hput.trans ?_, hsent⟩
    show Function.update w.view r.id _ = _
    rw [hid, hviews]
    rfl
  | @send views sent n hn =>
    refine ⟨hviews, ?_⟩
    simp only [handle, hsent, List.append_assoc]
  | @create views options hd =>
    have hviews : w.view = views := hviews
    refine ⟨?_, (insertRide_notifications options).trans hsent⟩
    funext k
    have hfind : ((w.insertRide options).2.rides.find k) =
        if k = w.rides.nextKey then some (World.newRide options.ride options.now w.rides.nextKey)
        else w.rides.find k := by
      rw [insertRide_rides hd]
      exact Table.find_insert k
    rw [← hviews]
    simp only [handle, World.view, hfind, Function.update_apply]
    split <;> rfl
  | refuse hd =>
    simp only [handle]
    rw [insertRide_kept hd]
    exact ⟨hviews, hsent⟩

end Effects

/-- What an operation has sent and what it answers announce what it has changed. -/
def Informs (before : Id → Option RideView) (caller : Option Participant) (l : Telling)
    (o : Except ServiceError (Option Answer)) : Prop :=
  Announced RideView.Concerns before l.views (l.sent.map Notification.told ++ heard caller o)

section Informs

variable {before : Id → Option RideView} {caller : Option Participant} {sent : List Notification}
  {o : Except ServiceError (Option Answer)}

theorem mem_heard {m : Message Participant Id RideView} (h : m ∈ heard caller o) :
    ∃ a, o = .ok (some a) ∧ m.key = a.1 ∧ m.value = a.2 := by
  cases o with
  | error e => cases h
  | ok answer =>
    cases caller with
    | none => cases h
    | some p =>
      cases answer with
      | none => cases h
      | some a =>
        obtain rfl := List.mem_singleton.mp h
        exact ⟨a, rfl, rfl, rfl⟩

/-- Nothing has changed. -/
theorem informs_same (hsent : ∀ n ∈ sent, before n.rideId = some n.view)
    (ho : ∀ a, o = .ok (some a) → before a.1 = some a.2) : Informs before caller ⟨before, sent⟩ o := by
  apply Announced.unchanged
  intro m hm
  rcases List.mem_append.mp hm with hm | hm
  · obtain ⟨n, hn, rfl⟩ := List.mem_map.mp hm
    exact hsent n hn
  · obtain ⟨a, ha, hkey, hvalue⟩ := mem_heard hm
    rw [hkey, hvalue]
    exact ho a ha

theorem informs_error {e : ServiceError} (hsent : ∀ n ∈ sent, before n.rideId = some n.view) :
    Informs before caller ⟨before, sent⟩ (.error e) :=
  informs_same hsent fun _ ha => by cases ha

/-- One ride has changed, and those who have not asked for it have been sent the change. -/
theorem informs_changed {rid : Id} {v : RideView} (hsent : ∀ n ∈ sent, n.rideId = rid ∧ n.view = v)
    (ho : o = .ok (some (rid, v)))
    (htold : ∀ p, v.Concerns p → caller = some p ∨ ∃ n ∈ sent, (n.target, n.targetId) = p) :
    Informs before caller ⟨Function.update before rid (some v), sent⟩ o := by
  constructor
  · intro m hm
    have habout : m.key = rid ∧ m.value = v := by
      rcases List.mem_append.mp hm with hm | hm
      · obtain ⟨n, hn, rfl⟩ := List.mem_map.mp hm
        exact hsent n hn
      · obtain ⟨a, ha, hkey, hvalue⟩ := mem_heard hm
        rw [ho] at ha
        cases ha
        exact ⟨hkey, hvalue⟩
    rw [habout.1, habout.2]
    exact Function.update_self ..
  · intro k x hx hbefore p hp
    have hk : k = rid := by
      by_contra hne
      exact hbefore ((Function.update_of_ne hne _ _).symm.trans hx)
    subst hk
    have hxv : Function.update before k (some v) k = some v := Function.update_self ..
    obtain rfl := Option.some.inj (hx.symm.trans hxv)
    obtain rfl | ⟨n, hn, hto⟩ := htold p hp
    · exact ⟨⟨p, k, x⟩, List.mem_append_right _ (ho ▸ List.mem_singleton_self _), rfl, rfl⟩
    · exact ⟨n.told, List.mem_append_left _ (List.mem_map_of_mem hn), hto, (hsent n hn).1⟩

end Informs

/-- From the account `l` the program, whose result the caller sees as `answer`, informs everybody. -/
abbrev Informing {α : Type} (env : Environment) (w₀ : World) (caller : Option Participant)
    (answer : α → Option Answer) (l : Telling) (p : Service α) : Prop :=
  (tellingOutline w₀).Follows (handle env) (fun l o => Informs w₀.view caller l (o.map answer)) l p

/-- The program returns, and nothing that it does can be seen. -/
structure Passes {α : Type} (env : Environment) (w₀ : World) (p : Service α) : Prop where
  goesOn : ∀ {β : Type} {done : Telling → Except ServiceError β → Prop} {l : Telling} {f : α → Service β},
    (∀ a, (tellingOutline w₀).Follows (handle env) done l (f a)) →
      (tellingOutline w₀).Follows (handle env) done l (p >>= f)

/-- The program does nothing but send notifications of the ride `rid`, which is as `v` says,
and those in `told` are among their recipients. -/
structure Speaks (env : Environment) (w₀ : World) (rid : Id) (v : RideView) (told : Participant → Prop)
    (p : Service Unit) : Prop where
  goesOn : ∀ {β : Type} {done : Telling → Except ServiceError β → Prop} {views : Id → Option RideView}
    {sent : List Notification} {f : Unit → Service β}, views rid = some v →
    (∀ ns : List Notification, (∀ n ∈ ns, n.rideId = rid ∧ n.view = v) →
      (∀ p, told p → ∃ n ∈ ns, (n.target, n.targetId) = p) →
        (tellingOutline w₀).Follows (handle env) done ⟨views, sent ++ ns⟩ (f ())) →
      (tellingOutline w₀).Follows (handle env) done ⟨views, sent⟩ (p >>= f)

section Rules

variable {env : Environment} {w₀ : World} {α β : Type}

theorem passes_pure (a : α) : Passes env w₀ (pure a) := ⟨fun hf => hf a⟩

theorem passes_call (c : Call) (hc : c.Unseen) (hok : ∀ w, ∃ a, (handle env c w).1 = .ok a) :
    Passes env w₀ (call c) := by
  constructor
  intro β done l f hf
  apply Outline.Follows.perform
  intro w _
  obtain ⟨a, ha⟩ := hok w
  refine ⟨l, .unseen hc, ?_⟩
  rw [ha]
  exact hf a

theorem Passes.bind {p : Service α} {g : α → Service β} (hp : Passes env w₀ p)
    (hg : ∀ a, Passes env w₀ (g a)) : Passes env w₀ (p >>= g) := by
  constructor
  intro γ done l f hf
  rw [bind_assoc]
  exact hp.goesOn fun a => (hg a).goesOn hf

theorem passes_forM {g : α → Service Unit} (hg : ∀ a, Passes env w₀ (g a)) (xs : List α) :
    Passes env w₀ (xs.forM g) := by
  induction xs with
  | nil => exact passes_pure ()
  | cons x xs ih => exact (hg x).bind fun _ => ih

theorem passes_saveMany (rows : List RideDriverCandidate) : Passes env w₀ (saveMany rows) :=
  passes_forM (fun c => passes_call (.saveCandidate c) trivial fun _ => ⟨_, rfl⟩) rows

theorem passes_getState (rid : Id) : Passes env w₀ (getState rid) :=
  Passes.bind (passes_call (.getTripState rid) trivial fun _ => ⟨_, rfl⟩) fun _ => passes_pure _

theorem passes_recordLocation (rid clientId : Id) (role : EClientType) (location : ParticipantLocation) :
    Passes env w₀ (recordLocation rid clientId role location) := by
  unfold recordLocation
  apply (passes_getState rid).bind
  intro state
  have hdistance : Passes env w₀ (driverDistance state role location) := by
    unfold driverDistance
    split
    · exact Passes.bind (passes_call (.geodist _ _) trivial fun _ => ⟨_, rfl⟩) fun _ => passes_pure _
    · exact passes_pure 0
  apply hdistance.bind
  intro delta
  refine Passes.bind (passes_call (.setTripState _ _) trivial fun _ => ⟨_, rfl⟩) fun _ => ?_
  refine Passes.bind (passes_call (.addActiveRide _) trivial fun _ => ⟨_, rfl⟩) fun _ => ?_
  refine Passes.bind (passes_call (.pushTripEvent _ _) trivial fun _ => ⟨_, rfl⟩) fun _ => ?_
  exact Passes.bind (passes_call (.expireTripEvents _) trivial fun _ => ⟨_, rfl⟩) fun _ => passes_pure _

theorem passes_markRideCompleted (rid : Id) : Passes env w₀ (markRideCompleted rid) := by
  unfold markRideCompleted
  apply (passes_getState rid).bind
  intro state
  split
  · exact Passes.bind (passes_call (.setTripState _ _) trivial fun _ => ⟨_, rfl⟩) fun _ =>
      passes_call (.enqueueFlushRide _) trivial fun _ => ⟨_, rfl⟩
  · exact passes_pure ()

section Speaks

variable {rid : Id} {v : RideView} {told told' : Participant → Prop}

theorem speaks_dispatch {target : NotificationTarget} {targetId : Id} {event message : String} {ride : Ride}
    {extras : NotificationExtras} : Speaks env w₀ ride.id ride.view (· = (target, targetId))
      (dispatchNotification target targetId event ride message extras) := by
  constructor
  intro β done views sent f hv hf
  apply Outline.Follows.perform
  intro w _
  refine ⟨_, .send hv, hf [_] (fun n hn => ?_) fun p hp => ⟨_, List.mem_singleton_self _, hp.symm⟩⟩
  obtain rfl := List.mem_singleton.mp hn
  exact ⟨rfl, rfl⟩

theorem speaks_pure : Speaks env w₀ rid v (fun _ => False) (pure ()) := by
  constructor
  intro β done views sent f _ hf
  have hrest := hf [] (fun _ hn => absurd hn List.not_mem_nil) fun _ hp => hp.elim
  rw [List.append_nil] at hrest
  exact hrest

theorem Speaks.then {p q : Service Unit} (hp : Speaks env w₀ rid v told p) (hq : Speaks env w₀ rid v told' q) :
    Speaks env w₀ rid v (fun x => told x ∨ told' x) (do p; q) := by
  constructor
  intro β done views sent f hv hf
  rw [bind_assoc]
  apply hp.goesOn hv
  intro ns hns htold
  apply hq.goesOn hv
  intro ms hms htoldld'
  rw [List.append_assoc]
  apply hf
  · intro n hn
    exact (List.mem_append.mp hn).elim (hns n) (hms n)
  · intro x hx
    rcases hx with hx | hx
    · obtain ⟨n, hn, he⟩ := htold x hx
      exact ⟨n, List.mem_append_left _ hn, he⟩
    · obtain ⟨n, hn, he⟩ := htoldld' x hx
      exact ⟨n, List.mem_append_right _ hn, he⟩

theorem Speaks.mono {p : Service Unit} (hp : Speaks env w₀ rid v told p) (h : ∀ x, told' x → told x) :
    Speaks env w₀ rid v told' p :=
  ⟨fun hv hf => hp.goesOn hv fun ns hns htold => hf ns hns fun x hx => htold x (h x hx)⟩

theorem speaks_forM {g : α → Service Unit} (hg : ∀ a, Speaks env w₀ rid v (fun _ => False) (g a))
    (xs : List α) : Speaks env w₀ rid v (fun _ => False) (xs.forM g) := by
  induction xs with
  | nil => exact speaks_pure
  | cons x xs ih => exact ((hg x).then ih).mono fun _ => False.elim

theorem speaks_both {ride : Ride} {riderEvent driverEvent riderMessage driverMessage : String}
    {extras : NotificationExtras} : Speaks env w₀ ride.id ride.view ride.view.Concerns
      (notifyBoth ride riderEvent driverEvent riderMessage driverMessage extras) := by
  unfold notifyBoth
  split
  · next hd =>
    refine speaks_dispatch.mono fun x hx => ?_
    obtain hx | ⟨d, hsome, -⟩ := hx
    · exact hx
    · cases hd.symm.trans hsome
  · next d hd =>
    refine (speaks_dispatch.then speaks_dispatch).mono fun x hx => ?_
    obtain hx | ⟨d', hsome, hx⟩ := hx
    · exact .inl hx
    · obtain rfl := Option.some.inj (hd.symm.trans hsome)
      exact .inr hx

theorem speaks_riderConfirmed {ride : Ride} {candidate : RideDriverCandidate} :
    Speaks env w₀ ride.id ride.view (fun x => ∃ d, ride.driverId = some d ∧ x = (.driver, d))
      (notifyRiderConfirmed ride candidate) := by
  unfold notifyRiderConfirmed
  split
  · next hd =>
    refine speaks_pure.mono fun x hx => ?_
    obtain ⟨d, hsome, -⟩ := hx
    cases hd.symm.trans hsome
  · next d hd =>
    refine speaks_dispatch.mono fun x hx => ?_
    obtain ⟨d', hsome, hx⟩ := hx
    obtain rfl := Option.some.inj (hd.symm.trans hsome)
    exact hx

end Speaks

section Reads

variable {done : Telling → Except ServiceError β → Prop} {views : Id → Option RideView}
  {sent : List Notification} {rid : Id} {v : RideView}

theorem informing_findById {f : Option Ride → Service β} (hv : views rid = some v)
    (hf : ∀ r, r.id = rid → r.view = v →
      (tellingOutline w₀).Follows (handle env) done ⟨views, sent⟩ (f (some r))) :
    (tellingOutline w₀).Follows (handle env) done ⟨views, sent⟩ (findById rid >>= f) := by
  apply Outline.Follows.perform
  intro w hw
  have hview : w.view rid = some v := (congrFun hw.1 rid).trans hv
  obtain ⟨r, hr, hrv⟩ := Option.map_eq_some_iff.mp hview
  refine ⟨_, .unseen trivial, ?_⟩
  simpa [handle, hr] using hf r (Table.key_of_find hr) hrv

theorem informing_updateRide {m : Ride} {f : Ride → Service β} (hid : m.id = rid) (hv : views rid = some v)
    (hf : ∀ x, x.id = rid → x.view = m.view →
      (tellingOutline w₀).Follows (handle env) done ⟨Function.update views rid (some m.view), []⟩ (f x)) :
    (tellingOutline w₀).Follows (handle env) done ⟨views, []⟩ (updateRide m.changes >>= f) := by
  unfold updateRide
  have hc : m.changes.id = rid := hid
  simp only [bind_assoc, hc]
  apply informing_findById hv
  intro r hr hrv
  have hmerged : (mergeRideData r m.changes).view = m.view := by
    simp only [Ride.view, merge_riderId, merge_driverId, merge_status]
  simp only [bind_assoc]
  apply Outline.Follows.perform
  intro w hw
  have hview : w.view rid = some v := (congrFun hw.1 rid).trans hv
  obtain ⟨stored, hstored, -⟩ := Option.map_eq_some_iff.mp hview
  have hwrite : Discloses w ⟨views, []⟩ (.updateRideRow (mergeRideData r m.changes))
      ⟨Function.update views rid (some m.view), []⟩ := by
    have hkey : (mergeRideData r m.changes).id = rid := hid
    have hw := Discloses.write (w := w) (m := mergeRideData r m.changes) (hkey.symm ▸ hv)
    rwa [hkey, hmerged] at hw
  refine ⟨_, hwrite, ?_⟩
  simp only [handle, World.updateRideRow, merge_id, hid, hstored, Prod.map, Program.ofExcept_ok,
    Program.ret_bind, UpdateResult.length, Nat.reduceEqDiff, if_false, bind_assoc]
  exact informing_findById (Function.update_self ..) hf

/-- A transition leaves the rider and the driver of the ride. -/
theorem informing_transition {allowed : List ERideStatus} {next : ERideStatus} {context : Option String}
    {f : Ride × Bool → Service β} (hv : views rid = some v)
    (hf : ∀ x changed, x.id = rid → x.riderId = v.riderId → x.driverId = v.driverId →
      (changed = false → x.view = v) → (tellingOutline w₀).Follows (handle env) done
        ⟨Function.update views rid (some x.view), []⟩ (f (x, changed))) :
    (tellingOutline w₀).Follows (handle env) done ⟨views, []⟩
      (transitionRideStatus rid allowed next context >>= f) := by
  unfold transitionRideStatus
  simp only [bind_assoc]
  apply informing_findById hv
  intro r hr hrv
  have hidle : (tellingOutline w₀).Follows (handle env) done ⟨views, []⟩ (f (r, false)) := by
    have hlast := hf r false hr (congrArg RideView.riderId hrv) (congrArg RideView.driverId hrv) fun _ => hrv
    rwa [hrv, Function.update_eq_self_iff.mpr hv.symm] at hlast
  simp only
  split
  · exact hidle
  split
  · exact hidle
  simp only [bind_assoc]
  apply informing_updateRide (m := withStatus r next context) hr hv
  intro x hx hxv
  refine (passes_call (.saveHistory _) trivial fun _ => ⟨_, rfl⟩).goesOn fun _ => ?_
  have hrider : x.riderId = r.riderId := congrArg RideView.riderId hxv
  have hdriver : x.driverId = r.driverId := congrArg RideView.driverId hxv
  have hlast := hf x true hx (hrider.trans (congrArg RideView.riderId hrv))
    (hdriver.trans (congrArg RideView.driverId hrv)) nofun
  rw [hxv] at hlast
  exact hlast

end Reads

end Rules

end NebLite
