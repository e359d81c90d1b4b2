import NebLite.Payment.PaymentService
import NebLite.Rides.RideRow
import NebLite.Rides.Matching

/-! Whether a paid ride stays paid under concurrent payments, notifications of
the payment provider and the work of the payment queue. -/

namespace NebLite

open Atomic

/-- What touches the payment of rides. -/
inductive PaymentOp where
  | proceedRidePayment (rideId riderId : Id)
  | handlePaymentNotification (payload : PaymentNotification) (sourceIp : String) (now : Time)
  | deliverPaymentJob (outboxId : Id) (startedAt endedAt : Time)

def PaymentOp.program (env : Environment) : PaymentOp → Service Unit
  | proceedRidePayment rideId riderId => do
    let _ ← NebLite.proceedRidePayment env rideId riderId
  | handlePaymentNotification payload sourceIp now => do
    let _ ← NebLite.handlePaymentNotification payload sourceIp now
  | deliverPaymentJob outboxId startedAt endedAt =>
    NebLite.deliverPaymentJob env outboxId startedAt endedAt

/-- `handlePaymentNotification` from its transaction on. -/
def recordNotification (payload : PaymentNotification) (orderId : OrderId) (paymentDetail : RidePaymentDetail)
    (ride : Ride) (now : Time) : Service (Ride × Option FormattedPayment) := do
  let (updatedDetail, paid, outboxUpdate) := applyNotification ride payload paymentDetail
  let savedDetail ← call (.saveDetailWithRideUpdate updatedDetail
    (if paid then some ⟨ride.id, some .paid, none⟩ else none)
    (outboxUpdate.map fun update =>
      { rideId := some ride.id
        paymentDetailId := some updatedDetail.id
        orderId := updatedDetail.orderId.getD orderId
        status := update.status
        lastError := update.lastError
        setProcessedAt := update.setProcessedAt })
    now)
  let refreshed ← findById ride.id
  let refreshedRide := refreshed.getD
    (if paid then { ride with paymentStatus := some .paid, paymentUrl := none } else ride)
  if paid then
    notifyRidePaid refreshedRide payload.transactionId
  return (refreshedRide, formatPaymentDetail (some savedDetail))

theorem handlePaymentNotification_eq (payload : PaymentNotification) (sourceIp : String) (now : Time) :
    handlePaymentNotification payload sourceIp now = (do
      let allowed ← call (.isIpAllowed (normalizeIpAddresses sourceIp))
      if ¬ allowed then
        throw (.unauthorized "Source IP not allowed")
      let some orderId := payload.orderId
        | throw (.badRequest "order_id is required")
      let some paymentDetail ← call (.findDetailByOrder orderId)
        | throw (.notFound "Payment detail not found for this notification")
      let some ride ← findById paymentDetail.rideId
        | throw (.notFound "Ride not found")
      recordNotification payload orderId paymentDetail ride now) := by
  unfold handlePaymentNotification
  refine bind_congr fun allowed => ?_
  cases allowed with
  | false => rfl
  | true =>
    cases payload.orderId with
    | none => rfl
    | some orderId =>
      refine bind_congr fun o => ?_
      cases o with
      | none => rfl
      | some detail =>
        refine bind_congr fun o => ?_
        cases o <;> rfl

/-- The writes of a ride's payment state: ON_PROCESS, or PAID without a URL. -/
def Call.Pays : Call → Prop
  | .updateRideRow _ => False
  | .updatePaymentState _ paymentStatus _ => paymentStatus = some .onProcess
  | .saveDetailWithRideUpdate _ update _ _ =>
    ∀ u, update = some u → u.paymentStatus = some .paid ∧ u.paymentUrl = none
  | _ => True

variable {env : Environment} {rid : Id} {ι : Type}

theorem pays_call {c : Call} (h : c.Pays) : (call c).Calls Call.Pays :=
  (Program.calls_perform c).mpr h

theorem pays_configuration : (ensurePaymentConfiguration env).Calls Call.Pays := by
  unfold ensurePaymentConfiguration
  split <;> simp

theorem pays_enqueuePayment {ride : Ride} {detail : RidePaymentDetail} {outbox : PaymentOutbox} :
    (enqueuePayment ride detail outbox).Calls Call.Pays := by
  unfold enqueuePayment
  refine Program.Calls.bind (pays_call trivial) fun jobId => ?_
  refine Program.Calls.bind (pays_call trivial) fun _ => ?_
  refine Program.Calls.bind (Program.Calls.catching (pays_call trivial) fun _ => by simp) fun _ => ?_
  refine Program.Calls.bind (pays_call trivial) fun d => ?_
  cases d with
  | none => simp
  | some d =>
    simp only
    split <;> simp

theorem pays_initiatePayment {ride : Ride} : (initiatePayment env ride).Calls Call.Pays := by
  unfold initiatePayment
  refine pays_configuration.bind fun _ => Program.Calls.bind (pays_call trivial) fun existing => ?_
  simp only
  split
  · simp
  · have hrest (orderId : OrderId) (detail : RidePaymentDetail) : (do
        let payload ← Program.ofExcept (buildPaymentRequestPayload ride orderId)
        let (persisted, saved) ← call (.saveDetailAndOutbox (queuedDetail detail orderId payload)
          { orderId, requestPayload := payload, status := .pending })
        enqueuePayment ride persisted saved : Service RidePaymentDetail).Calls Call.Pays :=
      Program.Calls.bind (by simp) fun _ => Program.Calls.bind (pays_call trivial) fun _ =>
        pays_enqueuePayment
    split
    · exact hrest _ _
    · exact Program.Calls.bind (pays_call trivial) fun orderId => hrest orderId _

theorem pays_proceedRidePayment {riderId : Id} :
    (proceedRidePayment env rid riderId).Calls Call.Pays := by
  unfold proceedRidePayment
  refine Program.Calls.bind (pays_call trivial) fun o => ?_
  cases o with
  | none => simp
  | some ride =>
    simp only [↓Program.throw_seq]
    split
    · simp
    split
    · simp
    split
    · exact Program.Calls.bind (pays_call trivial) fun _ => by simp
    · refine pays_initiatePayment.bind fun detail => ?_
      refine Program.Calls.bind ?_ fun _ => Program.Calls.bind (pays_call trivial) fun _ => by simp
      exact Program.Calls.bind (pays_call rfl) fun rows => by
        split <;> simp

theorem pays_processOutbox {outboxId : Id} {startedAt endedAt : Time} :
    (processOutbox env outboxId startedAt endedAt).Calls Call.Pays := by
  unfold processOutbox savePaymentOutbox
  refine pays_configuration.bind fun _ => Program.Calls.bind (pays_call trivial) fun o => ?_
  cases o with
  | none => simp
  | some outbox =>
    refine Program.Calls.bind (pays_call trivial) fun d => ?_
    cases d with
    | none => simp
    | some detail =>
      refine Program.Calls.bind (pays_call trivial) fun _ => Program.Calls.bind (pays_call trivial) fun reply => ?_
      cases reply with
      | ok response =>
        exact Program.Calls.bind (pays_call trivial) fun _ => Program.Calls.bind (pays_call trivial) fun _ => by simp
      | error message =>
        exact Program.Calls.bind (pays_call trivial) fun _ => Program.Calls.bind (pays_call trivial) fun _ => by simp

theorem pays_deliverPaymentJob {outboxId : Id} {startedAt endedAt : Time} :
    (deliverPaymentJob env outboxId startedAt endedAt).Calls Call.Pays := by
  unfold deliverPaymentJob
  refine Program.Calls.bind (pays_call trivial) fun o => ?_
  cases o with
  | none => simp
  | some id =>
    refine Program.Calls.bind ?_ fun _ => pays_call trivial
    exact (pays_processOutbox.bind fun _ => by simp).catching fun _ => by simp

theorem pays_handlePaymentNotification {payload : PaymentNotification} {sourceIp : String}
    {now : Time} : (handlePaymentNotification payload sourceIp now).Calls Call.Pays := by
  unfold handlePaymentNotification findById
  refine Program.Calls.bind (pays_call trivial) fun allowed => ?_
  simp only [↓Program.throw_seq]
  split
  · simp
  cases payload.orderId with
  | none => simp
  | some orderId =>
    refine Program.Calls.bind (pays_call trivial) fun d => ?_
    cases d with
    | none => simp
    | some detail =>
      refine Program.Calls.bind (pays_call trivial) fun o => ?_
      cases o with
      | none => simp
      | some ride =>
        refine Program.Calls.bind (pays_call ?_) fun saved => ?_
        · intro u hu
          split at hu
          · obtain rfl := Option.some.inj hu
            exact ⟨rfl, rfl⟩
          · cases hu
        · refine Program.Calls.bind (pays_call trivial) fun refreshed => ?_
          split
          · refine Program.Calls.bind ?_ fun _ => by simp
            unfold notifyRidePaid notifyBoth dispatchNotification
            split
            · exact pays_call trivial
            · exact Program.Calls.bind (pays_call trivial) fun _ => pays_call trivial
          · simp

theorem PaymentOp.pays (env : Environment) (op : PaymentOp) : (op.program env).Calls Call.Pays := by
  cases op with
  | proceedRidePayment => exact pays_proceedRidePayment.bind fun _ => trivial
  | handlePaymentNotification => exact pays_handlePaymentNotification.bind fun _ => trivial
  | deliverPaymentJob => exact pays_deliverPaymentJob

/-- The payment columns of a ride. -/
def World.paymentOf (w : World) (rid : Id) : Option (Option ERidePaymentStatus × Option String) :=
  (w.rides.find rid).map fun r => (r.paymentStatus, r.paymentUrl)

/-- A ride that is paid has no payment URL. -/
def World.PaidClosed (w : World) (rid : Id) : Prop :=
  ∀ url, w.paymentOf rid = some (some .paid, url) → url = none

/-- Concurrent payment calls. -/
def paymentCalls (env : Environment) (ops : ι → PaymentOp) (i : ι) : Service Unit :=
  (ops i).program env

/-- Process `i` is not about to put a paid ride back to ON_PROCESS. -/
def KeepsPaid (rid : Id) (c : Pool ι Call Call.Answer ServiceError Unit World) (i : ι) : Prop :=
  match (c.procs i).pending with
  | some (.updatePaymentState rideId _ _) =>
    rideId = rid → (c.store.rides.find rid).bind (·.paymentStatus) ≠ some .paid
  | _ => True

instance (rid : Id) (c : Pool ι Call Call.Answer ServiceError Unit World) (i : ι) :
    Decidable (KeepsPaid rid c i) := by
  unfold KeepsPaid
  split <;> infer_instance

theorem paymentOf_handle {w : World} {r : Ride} (hr : w.rides.find rid = some r) (op : Call) :
    (handle env op w).2.paymentOf rid = some ((op.onRide r).paymentStatus, (op.onRide r).paymentUrl) := by
  have hid : r.id = rid := Table.key_of_find hr
  subst hid
  rw [World.paymentOf, find_handle env op hr]
  rfl

/-- A payment call writes ON_PROCESS, writes PAID without a URL, or leaves the payment alone. -/
theorem Call.Pays.onRide {op : Call} (h : op.Pays) (r : Ride) :
    (∃ url, op = .updatePaymentState r.id (some .onProcess) url ∧
      (op.onRide r).paymentStatus = some .onProcess) ∨
    ((op.onRide r).paymentStatus = some .paid ∧ (op.onRide r).paymentUrl = none) ∨
    ((∀ s url, op ≠ .updatePaymentState r.id s url) ∧ (op.onRide r).paymentStatus = r.paymentStatus ∧
      (op.onRide r).paymentUrl = r.paymentUrl) := by
  cases op with
  | updateRideRow => exact h.elim
  | updatePaymentState rideId s url =>
    obtain rfl : s = some .onProcess := h
    by_cases hid : rideId = r.id
    · subst hid
      exact .inl ⟨url, rfl, by simp [Call.onRide]⟩
    · exact .inr (.inr ⟨by simp [hid], by simp [Call.onRide, hid]⟩)
  | saveDetailWithRideUpdate detail update outbox now =>
    cases update with
    | none => exact .inr (.inr ⟨by simp, rfl, rfl⟩)
    | some u =>
      obtain ⟨hs, hu⟩ := h u rfl
      by_cases hid : u.rideId = r.id
      · exact .inr (.inl (by simp [Call.onRide, hid, hs, hu]))
      · exact .inr (.inr ⟨by simp, by simp [Call.onRide, hid]⟩)
  | claimDriver rideId d =>
    refine .inr (.inr ⟨by simp, ?_⟩)
    simp only [Call.onRide]
    split <;> exact ⟨rfl, rfl⟩
  | _ => exact .inr (.inr ⟨by simp, rfl, rfl⟩)

variable [DecidableEq ι]

/-- What holds of every pool of payment calls on an existing ride. -/
structure PaymentsHold (rid : Id) (c : Pool ι Call Call.Answer ServiceError Unit World) : Prop where
  pays : ∀ i, (c.procs i).Calls Call.Pays
  closed : c.store.PaidClosed rid
  found : c.store.rides.find rid ≠ none

theorem PaymentsHold.step {c : Pool ι Call Call.Answer ServiceError Unit World}
    (h : PaymentsHold rid c) (i : ι) : PaymentsHold rid (c.step (handle env) i) := by
  obtain ⟨r, hr⟩ := Option.ne_none_iff_exists'.mp h.found
  have hcalls (j : ι) : ((c.step (handle env) i).procs j).Calls Call.Pays :=
    Pool.calls_step (handle env) h.pays i j
  obtain ⟨-, hs⟩ | ⟨op, next, hi, hs⟩ := c.step_cases (handle env) i
  · rwa [hs]
  · have hop : op.Pays := by
      have hpi := h.pays i
      rw [hi] at hpi
      exact hpi.1
    rw [hs] at hcalls ⊢
    refine ⟨hcalls, fun url hurl => ?_, ?_⟩
    · simp only [paymentOf_handle hr, Option.some.injEq, Prod.mk.injEq] at hurl
      rcases hop.onRide r with ⟨_, _, hst⟩ | ⟨_, hu⟩ | ⟨_, hst, hu⟩
      · rw [hst] at hurl
        simp at hurl
      · rw [← hurl.2, hu]
      · exact h.closed url (by simp [World.paymentOf, hr, ← hst, ← hu, hurl])
    · have hid : r.id = rid := Table.key_of_find hr
      subst hid
      simp [find_handle env op hr]

/-- On a paid ride exactly the steps other than a late ON_PROCESS keep the payment. -/
theorem PaymentsHold.kept_iff {c : Pool ι Call Call.Answer ServiceError Unit World}
    (h : PaymentsHold rid c) (i : ι) (hp : c.store.paymentOf rid = some (some .paid, none)) :
    (c.step (handle env) i).store.paymentOf rid = some (some .paid, none) ↔ KeepsPaid rid c i := by
  obtain ⟨r, hr, hcols⟩ := Option.map_eq_some_iff.mp hp
  have hid : r.id = rid := Table.key_of_find hr
  obtain ⟨hpaid, hurl⟩ := Prod.mk.inj hcols
  obtain ⟨hn, hs⟩ | ⟨op, next, hi, hs⟩ := c.step_cases (handle env) i
  · rw [hs]
    simp [KeepsPaid, hn, hp]
  · have hop : op.Pays := by
      have hpi := h.pays i
      rw [hi] at hpi
      exact hpi.1
    rw [hs, paymentOf_handle hr, Option.some.injEq, Prod.mk.injEq]
    rcases hop.onRide r with ⟨url, rfl, hst⟩ | ⟨hst, hu⟩ | ⟨hno, hst, hu⟩
    · rw [hst]
      simp [KeepsPaid, hi, Program.pending, hid, hr, hpaid]
    · refine iff_of_true ⟨hst, hu⟩ ?_
      unfold KeepsPaid
      rw [hi, Program.pending]
      split
      · next rideId s url he =>
        rintro rfl
        obtain rfl := Option.some.inj he
        obtain rfl : s = some .onProcess := hop
        simp [Call.onRide, hid] at hst
      · trivial
    · refine iff_of_true ⟨hst.trans hpaid, hu.trans hurl⟩ ?_
      unfold KeepsPaid
      rw [hi, Program.pending]
      split
      · next rideId s url he =>
        rintro rfl
        exact absurd (Option.some.inj he) (hid ▸ hno s url)
      · trivial

omit [DecidableEq ι] in
/-- On an unpaid ride every step is admitted. -/
theorem PaymentsHold.free {c : Pool ι Call Call.Answer ServiceError Unit World}
    (h : PaymentsHold rid c) (i : ι) (hp : c.store.paymentOf rid ≠ some (some .paid, none)) :
    KeepsPaid rid c i := by
  unfold KeepsPaid
  split
  · intro hid hst
    obtain ⟨r, hr⟩ := Option.ne_none_iff_exists'.mp h.found
    rw [hr] at hst
    have hcols : c.store.paymentOf rid = some (some .paid, r.paymentUrl) := by
      simpa [World.paymentOf, hr] using hst
    exact hp (h.closed _ hcols ▸ hcols)
  · trivial

/-- A ride that has been paid stays paid and without a URL in exactly the runs
in which no ON_PROCESS is written to it once it is paid. -/
theorem paid_stays_iff (env : Environment) (rid : Id) (ops : ι → PaymentOp) (w : World)
    (hrow : w.rides.find rid ≠ none) (hclosed : w.PaidClosed rid) (sched : List ι) :
    (∀ xs ys url, xs ++ ys <+: sched →
      ((Pool.start (paymentCalls env ops) w).exec (handle env) xs).store.paymentOf rid =
        some (some .paid, url) →
      ((Pool.start (paymentCalls env ops) w).exec (handle env) (xs ++ ys)).store.paymentOf rid =
        some (some .paid, none)) ↔
    Pool.Meets (handle env) (KeepsPaid rid) (Pool.start (paymentCalls env ops) w) sched := by
  have hstart : PaymentsHold rid (Pool.start (paymentCalls env ops) w) :=
    ⟨fun i => (ops i).pays env, hclosed, hrow⟩
  have habs : Runs.Absorbs (Pool.step (handle env)) (fun c => c.store.paymentOf rid)
      (· = some (some .paid, none)) (Pool.start (paymentCalls env ops) w) sched ↔
      Pool.Meets (handle env) (KeepsPaid rid) (Pool.start (paymentCalls env ops) w) sched :=
    Runs.absorbs_iff_meets (I := PaymentsHold rid) (fun c i hc => hc.step i)
      (fun c i hc hp => by rw [hp]; exact hc.kept_iff i hp) (fun c i hc hp => hc.free i hp) hstart
  rw [← habs]
  constructor
  · intro h xs ys hpre hp
    exact (h xs ys none hpre hp).trans hp.symm
  · intro h xs ys url hpre hp
    have hx : PaymentsHold rid ((Pool.start (paymentCalls env ops) w).exec (handle env) xs) :=
      Runs.invariant (fun c i hc _ => hc.step i) hstart (Runs.meets_true _ xs)
    obtain rfl := hx.closed url hp
    exact (h xs ys hpre hp).trans hp

/-- The started trip of rider 1 has been completed by driver 7. -/
def completedRun : List LifecycleOp :=
  startedRun ++ [.recordTripLocation 1 ⟨some 1, some .rider⟩ ⟨⟨2, 2⟩, none, "10:10"⟩,
    .completeRide 1 ⟨some 7, some .driver⟩ ⟨⟨2, 2⟩, none, "10:11"⟩ none]

/-- The completed ride, in a service that takes notifications from one address. -/
def completedWorld : World := (World.initial ["10.0.0.1"]).after (.around [7, 8]) completedRun

theorem completedWorld_payment : completedWorld.paymentOf 1 = some (some .pending, none) := by
  decide +kernel

theorem completedWorld_found : completedWorld.rides.find 1 ≠ none := by
  intro h
  have hp := completedWorld_payment
  rw [World.paymentOf, h] at hp
  cases hp

theorem completedWorld_closed : completedWorld.PaidClosed 1 := by
  intro url h
  rw [completedWorld_payment] at h
  simp at h

/-- The rider pays, the queue works on it, and the provider notifies the settlement. -/
def payAndNotify (i : Fin 3) : PaymentOp :=
  match i with
  | 0 => .proceedRidePayment 1 1
  | 1 => .deliverPaymentJob 1 5 6
  | 2 => .handlePaymentNotification ⟨some 0, some "settlement", none, []⟩ "10.0.0.1" 7

/-- The rider's call has ended when the notification comes. -/
def notifiedLate : List (Fin 3) :=
  List.replicate 6 0 ++ List.replicate 20 1 ++ List.replicate 20 0 ++ List.replicate 20 2

theorem paid_stays_notified_late :
    ((Pool.start (paymentCalls (.around [7, 8]) payAndNotify) completedWorld).exec
      (handle (.around [7, 8])) (notifiedLate ++ List.replicate 20 0)).store.paymentOf 1 =
        some (some .paid, none) :=
  (paid_stays_iff (.around [7, 8]) 1 payAndNotify completedWorld completedWorld_found
    completedWorld_closed (notifiedLate ++ List.replicate 20 0)).mpr (by decide +kernel) notifiedLate
      (List.replicate 20 0) none List.prefix_rfl (by decide +kernel)

/-- The notification comes between the end of the job and the write of the rider's call. -/
theorem paid_ride_reopened :
    ¬ ∀ xs ys url, xs ++ ys <+:
        List.replicate 6 0 ++ List.replicate 20 1 ++ List.replicate 2 0 ++ List.replicate 20 2 ++
          List.replicate 20 0 →
      ((Pool.start (paymentCalls (.around [7, 8]) payAndNotify) completedWorld).exec
        (handle (.around [7, 8])) xs).store.paymentOf 1 = some (some .paid, url) →
      ((Pool.start (paymentCalls (.around [7, 8]) payAndNotify) completedWorld).exec
        (handle (.around [7, 8])) (xs ++ ys)).store.paymentOf 1 = some (some .paid, none) := by
  intro h
  have hlast := h _ _ none List.prefix_rfl (by decide +kernel)
  revert hlast
  decide +kernel

end NebLite
