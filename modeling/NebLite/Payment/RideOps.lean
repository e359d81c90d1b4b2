import NebLite.Rides.Trail
import NebLite.Payment.PaidRides

/-! Everything that works on rides: the lifecycle operations, the payment of a ride, the
work of the payment queue and the notifications of the payment provider. What each of them
writes goes back to what it has read. -/

namespace NebLite

open Atomic

inductive RideOp where
  | lifecycle (op : LifecycleOp)
  | proceedRidePayment (rideId riderId : Id)
  | processOutbox (outboxId : Id) (startedAt endedAt : Time)
  | handlePaymentNotification (payload : PaymentNotification) (sourceIp : String) (now : Time)

/-- The row is an outbox row that was read, at another point of its processing. -/
structure PaymentOutbox.ComesFrom (x y : PaymentOutbox) : Prop where
  id : x.id = y.id
  rideId : x.rideId = y.rideId
  paymentDetailId : x.paymentDetailId = y.paymentDetailId
  orderId : x.orderId = y.orderId
  requestPayload : x.requestPayload = y.requestPayload

theorem PaymentOutbox.ComesFrom.refl (x : PaymentOutbox) : x.ComesFrom x := ⟨rfl, rfl, rfl, rfl, rfl⟩

theorem PaymentOutbox.ComesFrom.trans {x y z : PaymentOutbox} (h : x.ComesFrom y) (h' : y.ComesFrom z) :
    x.ComesFrom z :=
  ⟨h.id.trans h'.id, h.rideId.trans h'.rideId, h.paymentDetailId.trans h'.paymentDetailId,
    h.orderId.trans h'.orderId, h.requestPayload.trans h'.requestPayload⟩

theorem PaymentOutbox.ComesFrom.symm {x y : PaymentOutbox} (h : x.ComesFrom y) : y.ComesFrom x :=
  ⟨h.id.symm, h.rideId.symm, h.paymentDetailId.symm, h.orderId.symm, h.requestPayload.symm⟩

namespace RideOp

def program (env : Environment) : RideOp → Service Unit
  | lifecycle op => op.program env
  | proceedRidePayment rideId riderId => do
    let _ ← NebLite.proceedRidePayment env rideId riderId
  | processOutbox outboxId startedAt endedAt => do
    let _ ← NebLite.processOutbox env outboxId startedAt endedAt
  | handlePaymentNotification payload sourceIp now => do
    let _ ← NebLite.handlePaymentNotification payload sourceIp now

/-- The calls of `proceedRidePayment` after trail `t`. -/
def ProceedTends (rideId : Id) (t : Trail) : Call → Prop
  | .findPaymentRide _ | .findDetailByRide _ | .findDetail _ | .addPaymentJob _ _ | .waitPaymentJob _
  | .generateOrderId => True
  | .updatePaymentState k paymentStatus _ => k = rideId ∧ paymentStatus = some .onProcess
  | .saveDetailAndOutbox d input => t.details = [] ∧ t.outbox = [] ∧ d.rideId = rideId ∧
      d.orderId = some input.orderId ∧
      (∃ r ∈ t.rides, r.id = rideId ∧ r.status = .completed ∧
        buildPaymentRequestPayload r input.orderId = .ok input.requestPayload) ∧
      ∃ found, (rideId, found) ∈ t.sought ∧ ∀ e orderId, found = some e → e.orderId = some orderId →
        input.orderId = orderId
  | .saveOutbox x => ∃ y ∈ t.outbox, x.ComesFrom y
  | _ => False

/-- The calls of `processOutbox` after trail `t`. -/
def ProcessTends (outboxId : Id) (t : Trail) : Call → Prop
  | .findOutbox k => k = outboxId
  | .findDetail k => ∃ y ∈ t.outbox, k = y.paymentDetailId
  | .post _ | .takePaymentJob _ | .finishPaymentJob _ _ => True
  | .saveDetail d => ∃ d' ∈ t.details, ∃ y ∈ t.outbox, d.rideId = d'.rideId ∧ y.paymentDetailId = d'.id ∧
      (d.orderId = d'.orderId ∨ d.orderId = some y.orderId)
  | .saveOutbox x => ∃ y ∈ t.outbox, x.ComesFrom y
  | _ => False

/-- The calls of `handlePaymentNotification` after trail `t`. -/
def NotificationTends (payload : PaymentNotification) (sourceIp : String) (t : Trail) : Call → Prop
  | .isIpAllowed addresses => addresses = normalizeIpAddresses sourceIp
  | .findDetailByOrder orderId => payload.orderId = some orderId ∧ t.ordered = []
  | .findRide _ | .emit _ => True
  | .saveDetailWithRideUpdate d rideUpdate outboxUpdate _ => t.allowed = true ∧
      ∃ orderId found, payload.orderId = some orderId ∧ (orderId, found) ∈ t.ordered ∧
        d.rideId = found.rideId ∧ d.orderId = some orderId ∧
        (∀ u, rideUpdate = some u → u.rideId = found.rideId ∧
          isSuccessfulPaymentStatus (normalizePaymentStatus payload.transactionStatus) = true) ∧
        ∀ u, outboxUpdate = some u → u.rideId = some found.rideId
  | _ => False

/-- The calls that an operation may come to after trail `t`. -/
def Tends : RideOp → Trail → Call → Prop
  | lifecycle op => op.Tends
  | proceedRidePayment rideId _ => ProceedTends rideId
  | processOutbox outboxId _ _ => ProcessTends outboxId
  | handlePaymentNotification payload sourceIp _ => NotificationTends payload sourceIp

end RideOp

/-- The calls of the program are those that its trail allows. -/
abbrev Tracks {α : Type} (env : Environment) (tends : Trail → Call → Prop) (t : Trail) (p : Service α) :
    Prop := (trailOutline env tends).Follows (handle env) (fun _ _ => True) t p

section Tracks

variable {env : Environment} {tends : Trail → Call → Prop} {t : Trail} {rid outboxId : Id}
  {payload : PaymentNotification} {sourceIp : String} {α β : Type}

theorem tracks_saveOutbox {x : PaymentOutbox} {f : Unit → Service β} (hx : tends t (.saveOutbox x))
    (hf : Tracks env tends t (f ())) : Tracks env tends t (savePaymentOutbox x >>= f) :=
  trails_call hx (fun _ => rfl) fun _ => hf

theorem tracks_configuration {f : Unit → Service β} (hf : Tracks env tends t (f ())) :
    Tracks env tends t (ensurePaymentConfiguration env >>= f) := by
  unfold ensurePaymentConfiguration
  split
  · exact hf
  · trivial

theorem tracks_enqueuePayment {ride : Ride} {detail : RidePaymentDetail} {saved : PaymentOutbox}
    (hx : saved ∈ t.outbox) :
    Tracks env (RideOp.ProceedTends rid) t (enqueuePayment ride detail saved) := by
  unfold enqueuePayment
  refine trails_call (c := .addPaymentJob _ _) trivial (fun _ => rfl) fun jobId => ?_
  apply tracks_saveOutbox ⟨saved, hx, rfl, rfl, rfl, rfl, rfl⟩
  have hwait : Program.Calls (fun op => op = .waitPaymentJob saved.id) ((call (.waitPaymentJob saved.id)).catching
      fun _ => throw (.badRequest "Failed to initiate payment")) :=
    Program.Calls.catching (calls_call rfl) fun _ => trivial
  apply Outline.Follows.quiet hwait
  · rintro _ w rfl -
    exact ⟨rfl, trivial⟩
  · exact fun _ => trivial
  intro _
  apply trails_read (c := .findDetail detail.id) trivial
  intro w o _
  cases o with
  | none => trivial
  | some d =>
    simp only [↓Program.throw_seq]
    split <;> trivial

theorem tracks_initiatePayment {ride : Ride} (hd : t.details = []) (ho : t.outbox = []) (hread : ride ∈ t.rides)
    (hride : ride.id = rid) (hstatus : ride.status = .completed) :
    Tracks env (RideOp.ProceedTends rid) t (initiatePayment env ride) := by
  unfold initiatePayment
  apply tracks_configuration
  apply trails_read (c := .findDetailByRide ride.id) trivial
  intro w existing hexisting
  have hdetail : (existing.getD (newPaymentDetail env ride.id)).rideId = rid := by
    cases existing with
    | none => exact hride
    | some d =>
      have hfound : w.findDetailByRide ride.id = some d := Except.ok.inj hexisting
      have hd : d.rideId = ride.id := by simpa using List.find?_some hfound
      exact hd.trans hride
  simp only
  split
  · trivial
  have hrest (t' : Trail) (hd : t'.details = []) (ho : t'.outbox = []) (hread : ride ∈ t'.rides)
      (hsought : (ride.id, existing) ∈ t'.sought) (orderId : OrderId)
      (horder : ∀ e o, existing = some e → e.orderId = some o → orderId = o) :
      Tracks env (RideOp.ProceedTends rid) t' (do
        let requestPayload ← Program.ofExcept (buildPaymentRequestPayload ride orderId)
        let (persistedDetail, savedOutbox) ← call (.saveDetailAndOutbox
          (queuedDetail (existing.getD (newPaymentDetail env ride.id)) orderId requestPayload)
          { orderId, requestPayload, status := .pending })
        enqueuePayment ride persistedDetail savedOutbox) := by
    cases hpayload : buildPaymentRequestPayload ride orderId with
    | error e => trivial
    | ok payload =>
      have hbilled : ∃ r ∈ t'.rides, r.id = rid ∧ r.status = .completed ∧
          buildPaymentRequestPayload r orderId = .ok payload := ⟨ride, hread, hride, hstatus, hpayload⟩
      have hfound : ∃ found, (rid, found) ∈ t'.sought ∧
          ∀ e o, found = some e → e.orderId = some o → orderId = o := ⟨existing, hride ▸ hsought, horder⟩
      apply trails_read (c := .saveDetailAndOutbox _ _) ⟨hd, ho, hdetail, rfl, hbilled, hfound⟩
      intro w a _
      exact tracks_enqueuePayment List.mem_cons_self
  have hknown (orderId : OrderId) := hrest (t.after ⟨.findDetailByRide ride.id, .ok existing⟩) hd ho hread
    List.mem_cons_self orderId
  cases hfirst : (existing.getD (newPaymentDetail env ride.id)).orderId with
  | some orderId =>
    refine hknown orderId ?_
    rintro e o rfl he
    exact Option.some.inj (hfirst.symm.trans he)
  | none =>
    refine trails_call (c := .generateOrderId) trivial (fun _ => rfl) fun orderId => ?_
    refine hknown orderId ?_
    rintro e o rfl he
    rw [Option.getD_some, he] at hfirst
    cases hfirst

theorem tracks_proceedRidePayment {riderId : Id} (hd : t.details = []) (ho : t.outbox = []) :
    Tracks env (RideOp.ProceedTends rid) t (proceedRidePayment env rid riderId) := by
  unfold proceedRidePayment
  apply trails_read (c := .findPaymentRide rid) trivial
  intro w o hfound
  cases o with
  | none => trivial
  | some ride =>
    have hride : ride.id = rid := by
      obtain ⟨r, hr, rfl⟩ := Option.map_eq_some_iff.mp (Except.ok.inj hfound)
      exact Table.key_of_find hr
    simp only [↓Program.throw_seq]
    split
    · trivial
    split
    · trivial
    next hstatus =>
    split
    · exact trails_read (c := .findDetailByRide _) trivial fun _ _ _ => trivial
    have hend (t' : Trail) (detail : RidePaymentDetail) : Tracks env (RideOp.ProceedTends rid) t' (do
        updatePaymentState ride.id (some .onProcess) detail.redirectUrl
        let refreshedRide ← call (.findPaymentRide ride.id)
        return (refreshedRide.getD ride, formatPaymentDetail (some detail))) := by
      unfold updatePaymentState
      simp only [bind_assoc]
      refine trails_call (c := .updatePaymentState _ _ _) ⟨hride, rfl⟩ (fun _ => rfl) fun rows => ?_
      have hlast : Tracks env (RideOp.ProceedTends rid) t' (do
          let refreshedRide ← call (.findPaymentRide ride.id)
          return (refreshedRide.getD ride, formatPaymentDetail (some detail))) :=
        trails_read (c := .findPaymentRide _) trivial fun _ _ _ => trivial
      split
      · trivial
      · exact hlast
    have hinitiate : Tracks env (RideOp.ProceedTends rid) (t.after ⟨.findPaymentRide rid, .ok (some ride)⟩)
        (initiatePayment env ride) :=
      tracks_initiatePayment hd ho List.mem_cons_self hride (not_not.mp hstatus)
    exact hinitiate.bind (fun t' d _ => hend t' d) fun _ _ _ => trivial

theorem tracks_processOutbox {startedAt endedAt : Time} :
    Tracks env (RideOp.ProcessTends outboxId) t (processOutbox env outboxId startedAt endedAt) := by
  unfold processOutbox
  apply tracks_configuration
  apply trails_read (c := .findOutbox outboxId) rfl
  intro w o _
  cases o with
  | none => trivial
  | some x =>
    apply trails_read (c := .findDetail x.paymentDetailId) ⟨x, List.mem_cons_self, rfl⟩
    intro w o ho
    cases o with
    | none => trivial
    | some d =>
      have hdetail : x.paymentDetailId = d.id := (Table.key_of_find (Except.ok.inj ho)).symm
      have hx {t' : Trail} {y : PaymentOutbox} (hx : x ∈ t'.outbox) (hy : y.ComesFrom x) :
          RideOp.ProcessTends outboxId t' (.saveOutbox y) := ⟨x, hx, hy⟩
      have hd {t' : Trail} {d' : RidePaymentDetail} (hx : x ∈ t'.outbox) (hd : d ∈ t'.details)
          (hr : d'.rideId = d.rideId) (ho : d'.orderId = d.orderId ∨ d'.orderId = some x.orderId) :
          RideOp.ProcessTends outboxId t' (.saveDetail d') := ⟨d, hd, x, hx, hr, hdetail, ho⟩
      refine tracks_saveOutbox (hx List.mem_cons_self ?_) ?_
      · exact ⟨rfl, rfl, rfl, rfl, rfl⟩
      refine trails_call (c := .post _) trivial (fun _ => rfl) fun reply => ?_
      cases reply with
      | ok response =>
        refine trails_call (c := .saveDetail _) (hd List.mem_cons_self List.mem_cons_self rfl (.inr rfl)) (fun _ => rfl)
          fun _ => ?_
        refine tracks_saveOutbox (hx List.mem_cons_self ?_) trivial
        exact ⟨rfl, rfl, rfl, rfl, rfl⟩
      | error message =>
        refine tracks_saveOutbox (hx List.mem_cons_self ?_) ?_
        · exact ⟨rfl, rfl, rfl, rfl, rfl⟩
        exact trails_call (c := .saveDetail _) (hd List.mem_cons_self List.mem_cons_self rfl (.inl rfl)) (fun _ => rfl)
          fun _ => trivial

theorem tracks_deliverPaymentJob {startedAt endedAt : Time} :
    Tracks env (RideOp.ProcessTends outboxId) t (deliverPaymentJob env outboxId startedAt endedAt) := by
  unfold deliverPaymentJob
  apply trails_read (c := .takePaymentJob outboxId) trivial
  intro w o ho
  cases o with
  | none => trivial
  | some k =>
    obtain rfl : k = outboxId := by
      have htaken : (w.takePaymentJob outboxId).1 = some k := Except.ok.inj ho
      unfold World.takePaymentJob at htaken
      split at htaken
      · split at htaken
        · exact (Option.some.inj htaken).symm
        · cases htaken
      · cases htaken
    have hfinish (succeeded : Bool) (t' : Trail) :
        Tracks env (RideOp.ProcessTends k) t' (call (.finishPaymentJob k succeeded)) :=
      trails_call (c := .finishPaymentJob _ _) (f := pure) trivial (fun _ => rfl) fun _ => trivial
    have hbody : Tracks env (RideOp.ProcessTends k) t (do
        let _ ← processOutbox env k startedAt endedAt
        return true : Service Bool) :=
      tracks_processOutbox.bind (fun _ _ _ => trivial) fun _ _ _ => trivial
    have hwhole : Tracks env (RideOp.ProcessTends k) t ((do
        let _ ← processOutbox env k startedAt endedAt
        return true : Service Bool).catching fun _ => pure false) :=
      hbody.catching (fun _ _ _ => trivial) fun _ _ _ => trivial
    exact hwhole.bind (fun t' succeeded _ => hfinish succeeded t') fun _ _ _ => trivial

theorem tracks_findById {f : Option Ride → Service β} (hc : ∀ t k, tends t (.findRide k))
    (hf : ∀ o t', (∀ r, o = some r → r.id = rid) → t'.allowed = t.allowed → t'.ordered = t.ordered →
      Tracks env tends t' (f o)) : Tracks env tends t (findById rid >>= f) := by
  apply trails_read (c := .findRide rid) (hc t rid)
  intro w o ho
  cases o with
  | none => exact hf none _ (fun _ h => by cases h) rfl rfl
  | some r => exact hf (some r) _ (fun _ h => Option.some.inj h ▸ Table.key_of_find (Except.ok.inj ho)) rfl rfl

theorem emits_notifyRidePaid (ride : Ride) (reference : Option String) :
    (notifyRidePaid ride reference).Calls fun op => ∃ n, op = .emit n := by
  unfold notifyRidePaid notifyBoth
  split
  · exact calls_call ⟨_, rfl⟩
  · exact Program.Calls.bind (calls_call ⟨_, rfl⟩) fun _ => calls_call ⟨_, rfl⟩

theorem tracks_handlePaymentNotification {now : Time} (ht : t.ordered = []) :
    Tracks env (RideOp.NotificationTends payload sourceIp) t (handlePaymentNotification payload sourceIp now) := by
  rw [handlePaymentNotification_eq]
  apply trails_read (c := .isIpAllowed (normalizeIpAddresses sourceIp)) rfl
  intro w allowed _
  cases allowed with
  | false => trivial
  | true =>
    simp only [not_true_eq_false, if_false]
    cases ho : payload.orderId with
    | none => trivial
    | some orderId =>
      apply trails_read (c := .findDetailByOrder orderId) ⟨ho, ht⟩
      intro w o _
      cases o with
      | none => trivial
      | some d =>
        apply tracks_findById fun _ _ => trivial
        intro o t' hride hallowed hordered
        cases o with
        | none => trivial
        | some r =>
          have hr : r.id = d.rideId := hride r rfl
          unfold recordNotification
          have hsave (now : Time) : RideOp.NotificationTends payload sourceIp t' (.saveDetailWithRideUpdate
              (applyNotification r payload d).1
              (if (applyNotification r payload d).2.1 then some ⟨r.id, some .paid, none⟩ else none)
              ((applyNotification r payload d).2.2.map fun update =>
                { rideId := some r.id
                  paymentDetailId := some (applyNotification r payload d).1.id
                  orderId := (applyNotification r payload d).1.orderId.getD orderId
                  status := update.status
                  lastError := update.lastError
                  setProcessedAt := update.setProcessedAt }) now) := by
            have horder : (applyNotification r payload d).1.orderId = some orderId := by
              simp [applyNotification, ho]
            refine ⟨hallowed, orderId, d, ho, hordered ▸ List.mem_cons_self, rfl, horder, fun u hu => ?_, fun u hu => ?_⟩
            · split at hu
              · next hpaid =>
                obtain rfl := Option.some.inj hu
                exact ⟨hr, hpaid⟩
              · cases hu
            · obtain ⟨x, -, rfl⟩ := Option.map_eq_some_iff.mp hu
              exact congrArg some hr
          refine trails_call (c := .saveDetailWithRideUpdate _ _ _ _) (hsave now) (fun _ => rfl) fun saved => ?_
          apply tracks_findById fun _ _ => trivial
          intro o t'' _ _ _
          simp only
          split
          · apply Outline.Follows.quiet (emits_notifyRidePaid _ _)
            · rintro _ w ⟨n, rfl⟩ -
              exact ⟨rfl, trivial⟩
            · exact fun _ => trivial
            · exact fun _ => trivial
          · trivial

variable (env) in
/-- The calls of an operation are those that its trail allows. -/
theorem RideOp.tracks (op : RideOp) : Tracks env op.Tends .empty (op.program env) := by
  have discard {α : Type} {tends : Trail → Call → Prop} {p : Service α} (hp : Tracks env tends .empty p) :
      Tracks env tends .empty (p >>= fun _ => pure ()) :=
    hp.bind (fun _ _ _ => trivial) fun _ _ _ => trivial
  cases op with
  | lifecycle lop => exact lop.trails env
  | proceedRidePayment => exact discard (tracks_proceedRidePayment rfl rfl)
  | processOutbox => exact discard tracks_processOutbox
  | handlePaymentNotification => exact discard (tracks_handlePaymentNotification rfl)

end Tracks

section Pool

variable {ι : Type} {env : Environment} {ops : ι → RideOp}
  {c : Pool ι Call Call.Answer ServiceError Unit World}

/-- Concurrent operations on rides. -/
def rideCalls (env : Environment) (ops : ι → RideOp) (i : ι) : Service Unit := (ops i).program env

variable [DecidableEq ι]

/-- What process `i` has read. -/
def trailOf (c : Pool ι Call Call.Answer ServiceError Unit World) (i : ι) : Trail :=
  Pool.log Trail.after .empty i c.trace

/-- Every process of the pool makes the calls that its trail allows. -/
def AllTrack (env : Environment) (ops : ι → RideOp) (c : Pool ι Call Call.Answer ServiceError Unit World) :
    Prop := ∀ i, Tracks env (ops i).Tends (trailOf c i) (c.procs i)

theorem AllTrack.start (w : World) : AllTrack env ops (Pool.start (rideCalls env ops) w) :=
  fun i => (ops i).tracks env

theorem AllTrack.step (h : AllTrack env ops c) (i : ι) : AllTrack env ops (c.step (handle env) i) := by
  intro j
  apply Outline.Follows.log_step
  · exact fun _ _ _ _ hm => hm.1
  · trivial
  · exact h j

theorem AllTrack.tends {i : ι} {op : Call} {next : Except ServiceError op.Answer → Service Unit}
    (h : AllTrack env ops c) (hi : c.procs i = .call op next) : (ops i).Tends (trailOf c i) op := by
  have hf := h i
  rw [hi] at hf
  obtain ⟨_, ⟨-, htends⟩, -⟩ := hf c.store trivial
  exact htends

variable (env) in
/-- A trail after a step is what it was, or the process of the step has read. -/
theorem trailOf_step {i : ι} {op : Call} {next : Except ServiceError op.Answer → Service Unit}
    (hi : c.procs i = .call op next) (j : ι) : trailOf (c.step (handle env) i) j = trailOf c j ∨
      i = j ∧ (trailOf c j).Reads c.store op (trailOf (c.step (handle env) i) j) := by
  have hlog : trailOf (c.step (handle env) i) j = if i = j then
      (trailOf c j).after ⟨op, (handle env op c.store).1⟩ else trailOf c j :=
    Pool.log_step (handle env) hi Trail.after .empty j
  rw [hlog]
  by_cases hj : i = j
  · rw [if_pos hj]
    exact .inr ⟨hj, Trail.reads env c.store (trailOf c j) op⟩
  · rw [if_neg hj]
    exact .inl rfl

end Pool

end NebLite
