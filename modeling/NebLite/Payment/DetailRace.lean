import NebLite.Atomic.Descent
import NebLite.Payment.Bookkeeping

/-! One execution of `processOutbox` that gets a reply, and notifications of the same
order. Both sides read the payment detail, and write all of its columns back. -/

namespace NebLite

open Atomic

variable {env : Environment} {κ : Type}

/-- A notification that reaches `handlePaymentNotification`. -/
def detailParties (env : Environment) (outboxId : Id) (job : JobDelivery) (notifications : κ → Delivery) :
    Option κ → Service Unit
  | none => do
    let _ ← processOutbox env outboxId job.startedAt job.endedAt
  | some k => do
    let _ ← handlePaymentNotification (notifications k).payload (notifications k).sourceIp (notifications k).now

abbrev DetailPool (κ : Type) := Pool (Option κ) Call Call.Answer ServiceError Unit World

abbrev DetailTrace (κ : Type) := List (Option κ × Event Call Call.Answer ServiceError)

def Call.readsDetail : Call → Bool
  | .findDetail _ | .findDetailByOrder _ => true
  | _ => false

def Call.writesDetail : Call → Bool
  | .saveDetail _ | .saveDetailWithRideUpdate _ _ _ _ => true
  | _ => false

section Trace

variable [DecidableEq κ] (trace : DetailTrace κ)

/-- The notification has been written to the detail. -/
def Processed (k : κ) : Prop :=
  (trace.any fun e => e.1 == some k && e.2.1.writesDetail) = true

instance (k : κ) : Decidable (Processed trace k) := inferInstanceAs (Decidable (_ = true))

/-- Whether the detail descends from the worker's write of the reply. -/
def fromReply : Descent (Option κ) := .ofTrace Call.readsDetail Call.writesDetail (·.isNone) trace

/-- Whether it descends from the write of a notification. -/
def fromNotification : Descent (Option κ) := .ofTrace Call.readsDetail Call.writesDetail (·.isSome) trace

end Trace

/-- The detail carries token and URL of the gateway's reply. -/
def RidePaymentDetail.HasReply (d : RidePaymentDetail) (response : Option JsonObject) : Prop :=
  d.token = extractResponseString response "token" ∧
    d.redirectUrl = extractResponseString response "redirect_url"

/-- The detail carries the transaction and the text of the notification. -/
def RidePaymentDetail.HasNotification (d : RidePaymentDetail) (payload : PaymentNotification) : Prop :=
  d.providerTransactionId = payload.transactionId ∧ d.notificationPayload = some payload

instance (d : RidePaymentDetail) (response : Option JsonObject) : Decidable (d.HasReply response) :=
  inferInstanceAs (Decidable (_ ∧ _))

instance (d : RidePaymentDetail) (payload : PaymentNotification) : Decidable (d.HasNotification payload) :=
  inferInstanceAs (Decidable (_ ∧ _))

/-- Nothing is lost: the detail has the reply and, when notifications have been
processed, what one of them has brought. -/
def KeepsBoth [DecidableEq κ] (rid : Id) (response : Option JsonObject) (notifications : κ → Delivery)
    (c : DetailPool κ) : Prop :=
  ∃ d, c.store.findDetailByRide rid = some d ∧ d.HasReply response ∧
    ((∃ k, Processed c.trace k) → ∃ k, Processed c.trace k ∧ d.HasNotification (notifications k).payload)

/-- The detail descends from the write of the reply and, once a notification has been
written, from such a write, where the detail of the beginning did not say the same. -/
def DescendsFromBoth [DecidableEq κ] (response : Option JsonObject) (notifications : κ → Delivery)
    (d₀ : RidePaymentDetail) (c : DetailPool κ) : Prop :=
  ((fromReply c.trace).row = true ∨ d₀.HasReply response) ∧
    ((∃ k, Processed c.trace k) → (fromNotification c.trace).row = true ∨
      ∃ k, Processed c.trace k ∧ d₀.HasNotification (notifications k).payload)

/-- What the two sides share. -/
structure PaymentOrder where
  rideId : Id
  orderId : OrderId
  detailId : Id
  outboxId : Id
  payload : PaymentRequestPayload

/-- Ride, detail and outbox row of the order are there. -/
structure World.Carries (w : World) (g : PaymentOrder) : Prop where
  ride : ∃ r, w.rides.find g.rideId = some r
  detail : ∃ d, w.findDetailByRide g.rideId = some d ∧ d.orderId = some g.orderId ∧ d.id = g.detailId
  unique : w.DetailUnique g.rideId
  owned : ∀ d ∈ w.details.rows, d.orderId = some g.orderId → d.rideId = g.rideId
  row : ∃ x, w.outbox.find g.outboxId = some x ∧ x.paymentDetailId = g.detailId ∧ x.orderId = g.orderId ∧
    x.requestPayload = g.payload

/-- What a process has read of the detail. -/
inductive DetailPhase where
  | waiting
  | holding (d : RidePaymentDetail)
  | posted (d : RidePaymentDetail)

/-- Calls that touch neither the detail nor the outbox. -/
def Call.Aside : Call → Prop
  | .isIpAllowed _ | .findOutbox _ | .findRide _ | .emit _ => True
  | _ => False

inductive DetailMove (g : PaymentOrder) (response : Option JsonObject) (notifications : κ → Delivery) :
    Option κ → DetailPhase → Call → World → DetailPhase → Prop
  | aside {i l op w} : op.Aside → DetailMove g response notifications i l op w l
  | read {i op d w} : op = .findDetail g.detailId ∨ op = .findDetailByOrder g.orderId →
      w.findDetailByRide g.rideId = some d → DetailMove g response notifications i .waiting op w (.holding d)
  | saveOutbox {l x w} : x.id = g.outboxId → x.requestPayload = g.payload →
      DetailMove g response notifications none l (.saveOutbox x) w l
  | post {d w} : DetailMove g response notifications none (.holding d) (.post g.payload) w (.posted d)
  | reply {d x w} : x.orderId = g.orderId →
      DetailMove g response notifications none (.posted d) (.saveDetail (repliedDetail d x response)) w (.posted d)
  | notify {k d r rideUpdate outboxUpdate now w} : DetailMove g response notifications (some k) (.holding d)
      (.saveDetailWithRideUpdate (applyNotification r (notifications k).payload d).1 rideUpdate outboxUpdate now) w
      (.holding d)

/-- The gateway would answer the worker, as long as it has not asked. -/
def DetailPhase.Pre (env : Environment) (g : PaymentOrder) (response : Option JsonObject) :
    DetailPhase → World → Prop
  | posted _, w => w.Carries g
  | _, w => w.Carries g ∧ env.gateway w.answered g.payload = .ok response

def detailOutline (env : Environment) (g : PaymentOrder) (response : Option JsonObject)
    (notifications : κ → Delivery) : Option κ → Outline DetailPhase Call World
  | none => ⟨DetailPhase.Pre env g response, DetailMove g response notifications none⟩
  | some k => ⟨fun _ w => w.Carries g, DetailMove g response notifications (some k)⟩

section Carried

variable {w w' : World} {g : PaymentOrder}

/-- The order leads to the detail of the ride. -/
theorem World.Carries.found (h : w.Carries g) {d : RidePaymentDetail}
    (hd : w.findDetailByRide g.rideId = some d) :
    w.findDetailByOrder g.orderId = some d ∧ w.details.find g.detailId = some d := by
  obtain ⟨x, hx, ho, hid⟩ := h.detail
  obtain rfl : x = d := Option.some.inj (hx.symm.trans hd)
  exact ⟨findDetailByOrder_of_owned h.unique h.owned hd ho, Table.find_some.mpr ⟨(mem_of_findDetailByRide hd).1, hid⟩⟩

theorem World.Carries.congr (h : w.Carries g) (hride : ∃ r, w'.rides.find g.rideId = some r) (hdetails : w'.details = w.details)
    (hrow : ∀ x, w.outbox.find g.outboxId = some x → ∃ x', w'.outbox.find g.outboxId = some x' ∧
      x'.paymentDetailId = x.paymentDetailId ∧ x'.orderId = x.orderId ∧ x'.requestPayload = x.requestPayload) :
    w'.Carries g := by
  obtain ⟨x, hx, h1, h2, h3⟩ := h.row
  obtain ⟨x', hx', e1, e2, e3⟩ := hrow x hx
  have hfind : w'.findDetailByRide g.rideId = w.findDetailByRide g.rideId := by
    rw [World.findDetailByRide, hdetails]
    rfl
  refine ⟨hride, by rw [hfind]; exact h.detail, ?_, by rw [hdetails]; exact h.owned,
    ⟨x', hx', e1.trans h1, e2.trans h2, e3.trans h3⟩⟩
  intro d hd hr
  rw [hdetails] at hd
  rw [hfind]
  exact h.unique d hd hr

/-- `persistDetail` for the order replaces the detail. -/
theorem World.Carries.persist (h : w.Carries g) {d : RidePaymentDetail} (hr : d.rideId = g.rideId)
    (ho : d.orderId = some g.orderId) : (w.persistDetail d).2.Carries g ∧
      (w.persistDetail d).2.findDetailByRide g.rideId = some { d with id := g.detailId } := by
  obtain ⟨x, hx, -, hid⟩ := h.detail
  obtain ⟨k, -, hfind, hunique, hk⟩ := persistDetail_spec h.unique hr
  have hkey : k = g.detailId := (hk x hx).trans hid
  rw [hkey] at hfind
  refine ⟨⟨by rw [persistDetail_rides]; exact h.ride, ⟨_, hfind, ho, rfl⟩, hunique, ?_,
    by rw [persistDetail_outbox]; exact h.row⟩, hfind⟩
  intro y hy hyo
  rcases mem_persistDetail hy with hy | ⟨k', rfl⟩
  · exact h.owned y hy hyo
  · exact hr

end Carried

section Follows

variable {g : PaymentOrder} {response : Option JsonObject} {notifications : κ → Delivery}

theorem follows_worker (h : env.PaymentConfigured) (job : JobDelivery) :
    (detailOutline env g response notifications none).Follows (handle env) (fun _ _ => True) .waiting
      (detailParties env g.outboxId job notifications none) := by
  unfold detailParties
  rw [processOutbox_eq, ensurePaymentConfiguration_ok h, pure_bind]
  intro w hw
  obtain ⟨x, hx, hdetail, horder, hpayload⟩ := hw.1.row
  refine ⟨.waiting, .aside trivial, ?_⟩
  simp only [handle, hx]
  intro w hw
  obtain ⟨d, hd, -⟩ := hw.1.detail
  have hfound := (hw.1.found hd).2
  rw [hdetail]
  refine ⟨.holding d, .read (.inl rfl) hd, ?_⟩
  simp only [handle, hfound]
  intro w _
  refine ⟨.holding d, .saveOutbox (Table.key_of_find hx) hpayload, ?_⟩
  intro w hw
  rw [hpayload]
  refine ⟨.posted d, .post, ?_⟩
  simp only [handle, hw.2]
  intro w _
  refine ⟨.posted d, .reply horder, ?_⟩
  intro w _
  exact ⟨.posted d, .saveOutbox (Table.key_of_find hx) hpayload, trivial⟩

theorem aside_notifyRidePaid (ride : Ride) (reference : Option String) :
    (notifyRidePaid ride reference).Calls Call.Aside := by
  unfold notifyRidePaid notifyBoth dispatchNotification
  split
  · exact calls_call trivial
  · exact (calls_call trivial).bind fun _ => calls_call trivial

/-- After its transaction a notification only tells the parties. -/
theorem follows_recordNotification {k : κ} (orderId : OrderId) (d : RidePaymentDetail) (r : Ride) (now : Time) :
    (detailOutline env g response notifications (some k)).Follows (handle env) (fun _ _ => True) (.holding d)
      (recordNotification (notifications k).payload orderId d r now) := by
  intro w _
  refine ⟨.holding d, .notify, ?_⟩
  have hrest (saved : RidePaymentDetail) : (do
      let refreshed ← findById r.id
      let refreshedRide := refreshed.getD
        (if (applyNotification r (notifications k).payload d).2.1 then
          { r with paymentStatus := some .paid, paymentUrl := none } else r)
      if (applyNotification r (notifications k).payload d).2.1 then
        notifyRidePaid refreshedRide (notifications k).payload.transactionId
      return (refreshedRide, formatPaymentDetail (some saved)) :
        Service (Ride × Option FormattedPayment)).Calls Call.Aside := by
    refine Program.Calls.bind (calls_call trivial) fun refreshed => ?_
    simp only
    split
    · exact (aside_notifyRidePaid _ _).bind fun _ => by simp
    · trivial
  exact Outline.Follows.of_calls (q := Call.Aside) (hrest _) (fun _ _ hq _ => .aside hq) fun _ => trivial

theorem follows_notification {k : κ} (hn : (notifications k).payload.orderId = some g.orderId)
    (outboxId : Id) (job : JobDelivery) :
    (detailOutline env g response notifications (some k)).Follows (handle env) (fun _ _ => True) .waiting
      (detailParties env outboxId job notifications (some k)) := by
  simp only [detailParties, handlePaymentNotification_eq]
  intro w _
  refine ⟨.waiting, .aside trivial, ?_⟩
  simp only [handle]
  by_cases hip : (w.whitelist.any fun ip =>
      ip ∈ (normalizeIpAddresses (notifications k).sourceIp).filter fun a => !a.isEmpty) = true
  · simp only [hip, hn]
    intro w hw
    obtain ⟨d, hd, -⟩ := hw.detail
    refine ⟨.holding d, .read (.inr rfl) hd, ?_⟩
    simp only [handle, (hw.found hd).1]
    intro w hw
    obtain ⟨r, hr⟩ := hw.ride
    refine ⟨.holding d, .aside trivial, ?_⟩
    simp only [handle, (mem_of_findDetailByRide hd).2, hr]
    exact (follows_recordNotification _ d r _).bind (fun _ _ _ => trivial) fun _ _ _ => trivial
  · simp only [hip]
    trivial

end Follows

section Steps

variable [DecidableEq κ] {g : PaymentOrder} {response : Option JsonObject} {notifications : κ → Delivery}
  {d₀ : RidePaymentDetail} {labels : Option κ → DetailPhase} {w w' : World} {trace : DetailTrace κ}
  {i : Option κ} {op : Call} {a : Except ServiceError op.Answer} {l' : DetailPhase}

/-- What a detail has of the reply and of the notifications, where it descends from them,
and what it has of the detail in the beginning. -/
structure Tells (response : Option JsonObject) (notifications : κ → Delivery) (d₀ : RidePaymentDetail)
    (trace : DetailTrace κ) (replied notified : Bool) (d : RidePaymentDetail) : Prop where
  reply : replied = true → d.HasReply response
  noReply : replied = false → d.token = d₀.token ∧ d.redirectUrl = d₀.redirectUrl
  notification : notified = true → ∃ k, Processed trace k ∧ d.HasNotification (notifications k).payload
  noNotification : notified = false → d.providerTransactionId = d₀.providerTransactionId ∧
    d.notificationPayload = d₀.notificationPayload

theorem Processed.cons {k : κ} (h : Processed trace k) (e : Option κ × Event Call Call.Answer ServiceError) :
    Processed (e :: trace) k := by
  unfold Processed at h ⊢
  rw [List.any_cons, h, Bool.or_true]

theorem Tells.cons {r n : Bool} {d : RidePaymentDetail} (h : Tells response notifications d₀ trace r n d)
    (e : Option κ × Event Call Call.Answer ServiceError) :
    Tells response notifications d₀ (e :: trace) r n d := by
  refine ⟨h.reply, h.noReply, fun hn => ?_, h.noNotification⟩
  obtain ⟨k, hk, hd⟩ := h.notification hn
  exact ⟨k, hk.cons e, hd⟩

/-- What a process has read of the detail. -/
def DetailPhase.snapshot : DetailPhase → Option RidePaymentDetail
  | waiting => none
  | holding d | posted d => some d

/-- The row and every snapshot tell what they descend from. -/
structure DetailsHold (env : Environment) (g : PaymentOrder) (response : Option JsonObject)
    (notifications : κ → Delivery) (d₀ : RidePaymentDetail) (labels : Option κ → DetailPhase) (w : World)
    (trace : DetailTrace κ) : Prop where
  carries : w.Carries g
  unasked : (∀ d, labels none ≠ .posted d) → env.gateway w.answered g.payload = .ok response
  row : ∀ d, w.findDetailByRide g.rideId = some d →
    Tells response notifications d₀ trace (fromReply trace).row (fromNotification trace).row d
  held : ∀ i d, (labels i).snapshot = some d → d.rideId = g.rideId ∧
    Tells response notifications d₀ trace ((fromReply trace).held i) ((fromNotification trace).held i) d

theorem DetailsHold.pre (h : DetailsHold env g response notifications d₀ labels w trace) (i : Option κ) :
    (detailOutline env g response notifications i).pre (labels i) w := by
  cases i with
  | none =>
    change (labels none).Pre env g response w
    cases hl : labels none with
    | posted d => exact h.carries
    | waiting | holding d => exact ⟨h.carries, h.unasked (by simp [hl])⟩
  | some k => exact h.carries

/-- A call that leaves the detail alone. -/
theorem DetailsHold.quiet (h : DetailsHold env g response notifications d₀ labels w trace)
    (hr : op.readsDetail = false) (hw : op.writesDetail = false) (hc : w'.Carries g)
    (hdetails : w'.details = w.details)
    (hanswered : (∀ d, Function.update labels i l' none ≠ .posted d) →
      (∀ d, labels none ≠ .posted d) ∧ w'.answered = w.answered)
    (hl : l'.snapshot = (labels i).snapshot) :
    DetailsHold env g response notifications d₀ (Function.update labels i l') w' ((i, ⟨op, a⟩) :: trace) := by
  have hreply : fromReply ((i, ⟨op, a⟩) :: trace) = fromReply trace := Descent.ofTrace_quiet hr hw
  have hnotified : fromNotification ((i, ⟨op, a⟩) :: trace) = fromNotification trace :=
    Descent.ofTrace_quiet hr hw
  refine ⟨hc, fun hno => ?_, fun d hd => ?_, fun j d hd => ?_⟩
  · obtain ⟨hold, hsame⟩ := hanswered hno
    rw [hsame]
    exact h.unasked hold
  · rw [World.findDetailByRide, hdetails] at hd
    rw [hreply, hnotified]
    exact (h.row d hd).cons _
  · have hsnap : (labels j).snapshot = some d := by
      by_cases hj : j = i
      · subst hj
        rw [Function.update_self, hl] at hd
        exact hd
      · rwa [Function.update_of_ne hj] at hd
    rw [hreply, hnotified]
    exact ⟨(h.held j d hsnap).1, (h.held j d hsnap).2.cons _⟩

/-- A read of the detail. -/
theorem DetailsHold.read (h : DetailsHold env g response notifications d₀ labels w trace)
    (hr : op.readsDetail = true) {d : RidePaymentDetail} (hd : w.findDetailByRide g.rideId = some d)
    (hl : labels i = .waiting) :
    DetailsHold env g response notifications d₀ (Function.update labels i (.holding d)) w
      ((i, ⟨op, a⟩) :: trace) := by
  have hreply : fromReply ((i, ⟨op, a⟩) :: trace) = { fromReply trace with
      held := Function.update (fromReply trace).held i (fromReply trace).row } := Descent.ofTrace_read hr
  have hnotified : fromNotification ((i, ⟨op, a⟩) :: trace) = { fromNotification trace with
      held := Function.update (fromNotification trace).held i (fromNotification trace).row } :=
    Descent.ofTrace_read hr
  refine ⟨h.carries, fun hno => h.unasked fun d' hd' => ?_, fun x hx => ?_, fun j x hx => ?_⟩
  · by_cases hi : none = i
    · rw [← hi, hd'] at hl
      cases hl
    · exact hno d' (by rw [Function.update_of_ne hi, hd'])
  · rw [hreply, hnotified]
    exact (h.row x hx).cons _
  · rw [hreply, hnotified]
    by_cases hj : j = i
    · subst hj
      simp only [Function.update_self, DetailPhase.snapshot, Option.some.injEq] at hx ⊢
      rw [← hx]
      exact ⟨(mem_of_findDetailByRide hd).2, (h.row d hd).cons _⟩
    · rw [Function.update_of_ne hj] at hx
      dsimp only
      rw [Function.update_of_ne hj, Function.update_of_ne hj]
      exact ⟨(h.held j x hx).1, (h.held j x hx).2.cons _⟩

/-- A write of the detail. -/
theorem DetailsHold.write (h : DetailsHold env g response notifications d₀ labels w trace)
    (hr : op.readsDetail = false) (hw : op.writesDetail = true) (hc : w'.Carries g)
    (hanswered : w'.answered = w.answered) {d : RidePaymentDetail}
    (hd : w'.findDetailByRide g.rideId = some d)
    (htells : Tells response notifications d₀ ((i, ⟨op, a⟩) :: trace)
      (i.isNone || (fromReply trace).held i) (i.isSome || (fromNotification trace).held i) d) :
    DetailsHold env g response notifications d₀ labels w' ((i, ⟨op, a⟩) :: trace) := by
  have hreply : fromReply ((i, ⟨op, a⟩) :: trace) = { fromReply trace with
      row := i.isNone || (fromReply trace).held i } := Descent.ofTrace_write hr hw
  have hnotified : fromNotification ((i, ⟨op, a⟩) :: trace) = { fromNotification trace with
      row := i.isSome || (fromNotification trace).held i } := Descent.ofTrace_write hr hw
  refine ⟨hc, by rw [hanswered]; exact h.unasked, fun x hx => ?_, fun j x hx => ?_⟩
  · obtain rfl : d = x := Option.some.inj (hd.symm.trans hx)
    rw [hreply, hnotified]
    exact htells
  · rw [hreply, hnotified]
    exact ⟨(h.held j x hx).1, (h.held j x hx).2.cons _⟩

theorem answered_persistDetail (w : World) (d : RidePaymentDetail) :
    (w.persistDetail d).2.answered = w.answered := by
  unfold World.persistDetail
  split <;> rfl

/-- The transaction of a notification. -/
theorem World.Carries.notify (env : Environment) (h : w.Carries g) {d : RidePaymentDetail} (hr : d.rideId = g.rideId)
    (ho : d.orderId = some g.orderId) (rideUpdate : Option RidePaymentUpdate)
    (outboxUpdate : Option OutboxUpdate) (now : Time) :
    (w.saveDetailWithRideUpdate d rideUpdate outboxUpdate now).2.Carries g ∧
      (w.saveDetailWithRideUpdate d rideUpdate outboxUpdate now).2.findDetailByRide g.rideId =
        some { d with id := g.detailId } ∧
      (w.saveDetailWithRideUpdate d rideUpdate outboxUpdate now).2.answered = w.answered := by
  obtain ⟨hcarries, hfind⟩ := h.persist hr ho
  obtain ⟨r, hride⟩ := h.ride
  have hid : r.id = g.rideId := Table.key_of_find hride
  rw [← hid] at hride
  have hride' := find_handle env (.saveDetailWithRideUpdate d rideUpdate outboxUpdate now) hride
  have hpersist : (w.persistDetail d).2.outbox = w.outbox := persistDetail_outbox d
  have hupdate (v : World) (u : RidePaymentUpdate) : (v.applyRideUpdate u).details = v.details ∧
      (v.applyRideUpdate u).outbox = v.outbox ∧ (v.applyRideUpdate u).answered = v.answered := by
    unfold World.applyRideUpdate World.updatePaymentState
    split <;> exact ⟨rfl, rfl, rfl⟩
  have htables : (w.saveDetailWithRideUpdate d rideUpdate outboxUpdate now).2.details =
        (w.persistDetail d).2.details ∧
      (w.saveDetailWithRideUpdate d rideUpdate outboxUpdate now).2.answered = w.answered ∧
      ((w.saveDetailWithRideUpdate d rideUpdate outboxUpdate now).2.outbox = w.outbox ∨
        ∃ u, (w.saveDetailWithRideUpdate d rideUpdate outboxUpdate now).2.outbox =
          (w.applyOutboxUpdate u now).outbox) := by
    have hanswered : (w.persistDetail d).2.answered = w.answered := answered_persistDetail w d
    cases rideUpdate with
    | none =>
      cases outboxUpdate with
      | none => exact ⟨rfl, hanswered, .inl hpersist⟩
      | some u => exact ⟨rfl, hanswered, .inr ⟨u, by simp [World.saveDetailWithRideUpdate, World.applyOutboxUpdate, hpersist]⟩⟩
    | some ru =>
      obtain ⟨h1, h2, h3⟩ := hupdate (w.persistDetail d).2 ru
      cases outboxUpdate with
      | none => exact ⟨h1, h3.trans hanswered, .inl (h2.trans hpersist)⟩
      | some u =>
        refine ⟨h1, h3.trans hanswered, .inr ⟨u, ?_⟩⟩
        simp [World.saveDetailWithRideUpdate, World.applyOutboxUpdate, h2, hpersist]
  obtain ⟨hdetails, hanswered, houtbox⟩ := htables
  refine ⟨hcarries.congr ⟨_, hid ▸ hride'⟩ hdetails fun x hx => ?_, ?_, hanswered⟩
  · rw [hpersist] at hx
    rcases houtbox with hsame | ⟨u, hu⟩
    · exact ⟨x, by rw [hsame, hx], rfl, rfl, rfl⟩
    · rw [hu, World.applyOutboxUpdate, Table.find_update, hx]
      refine ⟨_, rfl, ?_⟩
      simp only
      split <;> exact ⟨rfl, rfl, rfl⟩
  · rw [World.findDetailByRide, hdetails]
    exact hfind

theorem DetailsHold.step (h : DetailsHold env g response notifications d₀ labels w trace)
    (hn : ∀ k, (notifications k).payload.orderId = some g.orderId)
    (hm : DetailMove g response notifications i (labels i) op w l') :
    DetailsHold env g response notifications d₀ (Function.update labels i l') (handle env op w).2
      ((i, ⟨op, a⟩) :: trace) := by
  generalize hl : labels i = l at hm
  cases hm with
  | aside hop =>
    have hquiet {v : World} (hr : op.readsDetail = false) (hw : op.writesDetail = false)
        (hv : ∃ ns, v = { w with notifications := ns }) :
        DetailsHold env g response notifications d₀ (Function.update labels i l') v ((i, ⟨op, a⟩) :: trace) := by
      obtain ⟨ns, rfl⟩ := hv
      refine h.quiet hr hw (h.carries.congr h.carries.ride rfl fun x hx => ⟨x, hx, rfl, rfl, rfl⟩) rfl (fun hno => ?_) (by rw [hl])
      rw [← hl, Function.update_eq_self] at hno
      exact ⟨hno, rfl⟩
    cases op with
    | isIpAllowed | findOutbox | findRide => exact hquiet rfl rfl ⟨w.notifications, rfl⟩
    | emit => exact hquiet rfl rfl ⟨_, rfl⟩
    | _ => exact hop.elim
  | read hop hd =>
    rcases hop with rfl | rfl
    · exact h.read rfl hd hl
    · exact h.read rfl hd hl
  | @saveOutbox l x w hid hpayload =>
    refine h.quiet rfl rfl (h.carries.congr h.carries.ride rfl fun y hy => ?_) rfl (fun hno => ?_) (by rw [hl])
    · obtain ⟨z, hz, -, -, hzp⟩ := h.carries.row
      obtain rfl : y = z := Option.some.inj (hy.symm.trans hz)
      rw [← hid] at hy ⊢
      exact ⟨_, saveOutbox_found hy, rfl, rfl, hpayload.trans hzp.symm⟩
    · rw [← hl, Function.update_eq_self] at hno
      exact ⟨hno, rfl⟩
  | post =>
    refine h.quiet rfl rfl (h.carries.congr h.carries.ride rfl fun x hx => ⟨x, hx, rfl, rfl, rfl⟩) rfl (fun hno => ?_) (by rw [hl]; rfl)
    exact absurd (Function.update_self ..) (hno _)
  | @reply d x w horder =>
    have hsame : Function.update labels none (.posted d) = labels := by
      rw [← hl, Function.update_eq_self]
    obtain ⟨hrid, htells⟩ := h.held none d (by rw [hl]; rfl)
    obtain ⟨hcarries, hfind⟩ := h.carries.persist (d := repliedDetail d x response) hrid
      (congrArg some horder)
    rw [hsame]
    refine h.write rfl rfl hcarries (answered_persistDetail w _) hfind ⟨fun _ => ⟨rfl, rfl⟩, fun hno => ?_, ?_, ?_⟩
    · simp at hno
    · intro hnot
      obtain ⟨k, hk, htext⟩ := (htells.cons _).notification hnot
      exact ⟨k, hk, htext⟩
    · exact fun hno => htells.noNotification hno
  | @notify k d r rideUpdate outboxUpdate now w =>
    have hsame : Function.update labels (some k) (.holding d) = labels := by
      rw [← hl, Function.update_eq_self]
    obtain ⟨hrid, htells⟩ := h.held (some k) d (by rw [hl]; rfl)
    have horder : (applyNotification r (notifications k).payload d).1.orderId = some g.orderId := by
      simp [applyNotification, hn k]
    obtain ⟨hcarries, hfind, hanswered⟩ := h.carries.notify env
      (d := (applyNotification r (notifications k).payload d).1) hrid horder rideUpdate outboxUpdate now
    rw [hsame]
    refine h.write rfl rfl hcarries hanswered hfind ⟨?_, ?_, fun _ => ⟨k, ?_, rfl, rfl⟩, fun hno => ?_⟩
    · exact fun hr => htells.reply hr
    · exact fun hr => htells.noReply hr
    · simp [Processed, Call.writesDetail]
    · simp at hno

/-- In every interleaving nothing is lost exactly if the detail descends from both sides. -/
theorem keeps_both_iff (env : Environment) (h : env.PaymentConfigured) (w : World) (rid : Id)
    (orderId : OrderId) (hinit : w.Initiated rid orderId) (d₀ : RidePaymentDetail)
    (hd₀ : w.findDetailByRide rid = some d₀) (outboxId : Id) (x : PaymentOutbox)
    (hx : w.outbox.find outboxId = some x) (hxo : x.orderId = orderId) (response : Option JsonObject)
    (hreply : env.gateway w.answered x.requestPayload = .ok response) (job : JobDelivery)
    (notifications : κ → Delivery) (hn : ∀ k, (notifications k).payload.orderId = some orderId)
    (sched : List (Option κ)) :
    KeepsBoth rid response notifications
      ((Pool.start (detailParties env outboxId job notifications) w).exec (handle env) sched) ↔
    DescendsFromBoth response notifications d₀
      ((Pool.start (detailParties env outboxId job notifications) w).exec (handle env) sched) := by
  let g : PaymentOrder := ⟨rid, orderId, d₀.id, outboxId, x.requestPayload⟩
  have hcarries : w.Carries g := by
    obtain ⟨d, hd, ho⟩ := hinit.detail
    obtain rfl : d = d₀ := Option.some.inj (hd.symm.trans hd₀)
    exact ⟨hinit.ride, ⟨d, hd, ho, rfl⟩, hinit.unique, hinit.owned,
      ⟨x, hx, (hinit.outbox d hd x (Table.find_some.mp hx).1 hxo).2, hxo, rfl⟩⟩
  have hstart : Outline.Holds (detailOutline env g response notifications) (handle env) (fun _ _ _ => True)
      (fun labels c => DetailsHold env g response notifications d₀ labels c.store c.trace)
      (Pool.start (detailParties env outboxId job notifications) w) := by
    refine ⟨fun _ => .waiting, ⟨hcarries, fun _ => hreply, fun d hd => ?_, fun i d hd => ?_⟩, fun i => ?_⟩
    · obtain rfl : d₀ = d := Option.some.inj (hd₀.symm.trans hd)
      exact ⟨fun hr => (by cases hr), fun _ => ⟨rfl, rfl⟩, fun hr => (by cases hr), fun _ => ⟨rfl, rfl⟩⟩
    · cases hd
    · cases i with
      | none => exact follows_worker h job
      | some k => exact follows_notification (hn k) outboxId job
  have hend := Outline.exec_holds (fun labels c i hJ => hJ.pre i)
    (fun labels c i op next l' hJ _ hi hm => by
      rw [Pool.step_call (handle env) hi]
      cases i with
      | none => exact hJ.step hn hm
      | some k => exact hJ.step hn hm) hstart (Runs.meets_true _ sched)
  obtain ⟨labels, hlast, -⟩ := hend
  obtain ⟨d, hd, -⟩ := hlast.carries.detail
  have htells := hlast.row d hd
  constructor
  · rintro ⟨d', hd', hhas, hnotified⟩
    obtain rfl : d = d' := Option.some.inj (hd.symm.trans hd')
    refine ⟨?_, fun hproc => ?_⟩
    · by_cases hr : (fromReply ((Pool.start (detailParties env outboxId job notifications) w).exec
          (handle env) sched).trace).row = true
      · exact .inl hr
      · obtain ⟨htoken, hurl⟩ := htells.noReply (by simpa using hr)
        exact .inr ⟨htoken ▸ hhas.1, hurl ▸ hhas.2⟩
    · by_cases hr : (fromNotification ((Pool.start (detailParties env outboxId job notifications) w).exec
          (handle env) sched).trace).row = true
      · exact .inl hr
      · obtain ⟨hid, htext⟩ := htells.noNotification (by simpa using hr)
        obtain ⟨k, hk, hkid, hktext⟩ := hnotified hproc
        exact .inr ⟨k, hk, hid ▸ hkid, htext ▸ hktext⟩
  · rintro ⟨hreplied, hnotified⟩
    refine ⟨d, hd, ?_, fun hproc => ?_⟩
    · by_cases hr : (fromReply ((Pool.start (detailParties env outboxId job notifications) w).exec
          (handle env) sched).trace).row = true
      · exact htells.reply hr
      · obtain ⟨htoken, hurl⟩ := htells.noReply (by simpa using hr)
        have hhas := hreplied.resolve_left hr
        exact ⟨htoken.trans hhas.1, hurl.trans hhas.2⟩
    · by_cases hr : (fromNotification ((Pool.start (detailParties env outboxId job notifications) w).exec
          (handle env) sched).trace).row = true
      · exact htells.notification hr
      · obtain ⟨hid, htext⟩ := htells.noNotification (by simpa using hr)
        obtain ⟨k, hk, hkid, hktext⟩ := (hnotified hproc).resolve_left hr
        exact ⟨k, hk, hid.trans hkid, htext.trans hktext⟩

end Steps

/-- The payment of the completed ride has been queued, and nobody has worked on it. -/
def queuedWorld : World :=
  ((Pool.start (paymentCalls (.around [7, 8]) payAndNotify) completedWorld).exec
    (handle (.around [7, 8])) (Pool.turns [(0, 6)])).store

theorem queuedWorld_initiated : ∃ d x, queuedWorld.Initiated 1 0 ∧ queuedWorld.findDetailByRide 1 = some d ∧
    queuedWorld.outbox.find 1 = some x ∧ x.orderId = 0 := by
  have hdetail : queuedWorld.details.rows.map (fun d => (d.id, d.rideId, d.orderId)) =
      [(1, 1, some 0)] := by decide +kernel
  have houtbox : queuedWorld.outbox.rows.map (fun x => (x.id, x.rideId, x.paymentDetailId, x.orderId)) =
      [(1, 1, 1, 0)] := by decide +kernel
  obtain ⟨d, hrows, hd⟩ := List.map_eq_singleton_iff.mp hdetail
  obtain ⟨x, hx, hxd⟩ := List.map_eq_singleton_iff.mp houtbox
  simp only [Prod.mk.injEq] at hd hxd
  have hfind : queuedWorld.findDetailByRide 1 = some d := by
    simp [World.findDetailByRide, hrows, hd.2.1]
  have hinitiated : queuedWorld.Initiated 1 0 :=
    .of_rows (Option.isSome_iff_exists.mp (by decide +kernel)) hrows hd.2.1 hd.2.2 hx hxd.2.1 (hxd.2.2.1.trans hd.1.symm)
  exact ⟨d, x, hinitiated, hfind, Table.find_some.mpr ⟨by simp [hx], hxd.1⟩, hxd.2.2.2⟩

/-- The worker, and a settlement of the order. -/
def workerAndSettlement : Option Unit → Service Unit :=
  detailParties (.around [7, 8]) 1 ⟨5, 6⟩ fun _ => notification "settlement" 7

/-- The reply of the gateway to the order. -/
def gatewayReply : Option JsonObject := some [("token", .str "token"), ("redirect_url", .str "redirect")]

/-- The settlement comes when the worker is done. -/
theorem keeps_both_in_turn : KeepsBoth 1 gatewayReply (fun _ : Unit => notification "settlement" 7)
    ((Pool.start workerAndSettlement queuedWorld).exec (handle (.around [7, 8]))
      (List.replicate 6 none ++ List.replicate 8 (some ()))) := by
  obtain ⟨d, x, hinit, hd, hx, hxo⟩ := queuedWorld_initiated
  exact (keeps_both_iff (.around [7, 8]) (by decide +kernel) queuedWorld 1 0 hinit d hd 1 x hx hxo gatewayReply rfl
    ⟨5, 6⟩ (fun _ => notification "settlement" 7) (fun _ => rfl) _).mpr
      ⟨.inl (by decide +kernel), fun _ => .inl (by decide +kernel)⟩

/-- The settlement has been read before the worker saves the reply, and is written after it:
the token is gone. -/
theorem token_lost : ((Pool.start workerAndSettlement queuedWorld).exec (handle (.around [7, 8]))
      (List.replicate 4 none ++ List.replicate 3 (some ()) ++ List.replicate 2 none ++
        List.replicate 5 (some ()))).Ended ∧
    ¬ KeepsBoth 1 gatewayReply (fun _ : Unit => notification "settlement" 7)
      ((Pool.start workerAndSettlement queuedWorld).exec (handle (.around [7, 8]))
        (List.replicate 4 none ++ List.replicate 3 (some ()) ++ List.replicate 2 none ++
          List.replicate 5 (some ()))) := by
  have hlost : (((Pool.start workerAndSettlement queuedWorld).exec (handle (.around [7, 8]))
      (List.replicate 4 none ++ List.replicate 3 (some ()) ++ List.replicate 2 none ++
        List.replicate 5 (some ()))).store.findDetailByRide 1).all (fun d => d.token.isNone) = true := by
    decide +kernel
  refine ⟨by decide +kernel, ?_⟩
  rintro ⟨d, hd, hreply, -⟩
  rw [hd, Option.all_some, hreply.1] at hlost
  revert hlost
  decide

end NebLite
