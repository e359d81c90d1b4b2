import NebLite.Payment.OneOrder

/-! Notifications of one order, delivered one after the other. The ride changes
on a success only; the payment detail and the outbox take every status. -/

namespace NebLite

open Atomic

/-- One delivery of a notification. -/
structure Delivery where
  payload : PaymentNotification
  sourceIp : String
  now : Time

/-- The status that a delivery carries. -/
def Delivery.status (n : Delivery) : ERidePaymentDetailStatus :=
  normalizePaymentStatus n.payload.transactionStatus

def Delivery.Succeeds (n : Delivery) : Prop := isSuccessfulPaymentStatus n.status = true

instance (n : Delivery) : Decidable n.Succeeds :=
  inferInstanceAs (Decidable (isSuccessfulPaymentStatus n.status = true))

/-- A delivery for an order from an allowed address. -/
def World.Admits (w : World) (orderId : OrderId) (n : Delivery) : Prop :=
  n.payload.orderId = some orderId ∧
    (w.whitelist.any fun ip => ip ∈ (normalizeIpAddresses n.sourceIp).filter fun a => !a.isEmpty) = true

instance (w : World) (orderId : OrderId) (n : Delivery) : Decidable (w.Admits orderId n) :=
  inferInstanceAs (Decidable (_ ∧ _))

def World.deliver (env : Environment) (w : World) (n : Delivery) : World :=
  ((handlePaymentNotification n.payload n.sourceIp n.now).run (handle env) w).2

def World.deliverAll (env : Environment) (w : World) (ns : List Delivery) : World :=
  ns.foldl (World.deliver env) w

/-- The ride has a payment with this order, and nothing else has to do with the order. -/
structure World.Initiated (w : World) (rid : Id) (orderId : OrderId) : Prop where
  ride : ∃ r, w.rides.find rid = some r
  detail : ∃ d, w.findDetailByRide rid = some d ∧ d.orderId = some orderId
  unique : w.DetailUnique rid
  owned : ∀ d ∈ w.details.rows, d.orderId = some orderId → d.rideId = rid
  outbox : ∀ d, w.findDetailByRide rid = some d → ∀ x ∈ w.outbox.rows, x.orderId = orderId →
    x.rideId = rid ∧ x.paymentDetailId = d.id

def World.RidePaid (w : World) (rid : Id) : Prop :=
  ∃ r, w.rides.find rid = some r ∧ r.paymentStatus = some .paid

/-- Ride, payment detail and outbox all say that the order has been paid. -/
structure World.Settled (w : World) (rid : Id) (orderId : OrderId) : Prop where
  ride : w.RidePaid rid
  detail : ∃ d, w.findDetailByRide rid = some d ∧ isSuccessfulPaymentStatus d.status = true
  outbox : ∀ x ∈ w.outbox.rows, x.orderId = orderId → x.status = .completed ∧ x.lastError = none

/-- Detail and outbox say what one status says. -/
structure World.Mirrors (w : World) (rid : Id) (orderId : OrderId)
    (status : ERidePaymentDetailStatus) : Prop where
  detail : ∃ d, w.findDetailByRide rid = some d ∧ d.status = status
  outbox : ∀ x ∈ w.outbox.rows, x.orderId = orderId → ∃ u,
    buildOutboxUpdateForStatus status (isSuccessfulPaymentStatus status) = some u ∧
      x.status = u.status ∧ x.lastError = u.lastError

variable {env : Environment} {w : World} {rid : Id} {orderId : OrderId} {n : Delivery}

/-- Every status has an outbox update. -/
theorem outboxUpdate_some (status : ERidePaymentDetailStatus) :
    ∃ u, buildOutboxUpdateForStatus status (isSuccessfulPaymentStatus status) = some u := by
  cases status <;> exact ⟨_, rfl⟩

theorem outboxUpdate_success {status : ERidePaymentDetailStatus}
    (h : isSuccessfulPaymentStatus status = true) (paid : Bool) :
    buildOutboxUpdateForStatus status paid = some ⟨.completed, true, none⟩ := by
  rw [buildOutboxUpdateForStatus, if_pos h]

/-- Where the order is of one ride only, it leads to the detail of the ride. -/
theorem findDetailByOrder_of_owned (hunique : w.DetailUnique rid)
    (howned : ∀ d ∈ w.details.rows, d.orderId = some orderId → d.rideId = rid) {d : RidePaymentDetail}
    (hd : w.findDetailByRide rid = some d) (ho : d.orderId = some orderId) : w.findDetailByOrder orderId = some d := by
  have hm : d ∈ w.details.rows := (mem_of_findDetailByRide hd).1
  cases hf : w.findDetailByOrder orderId with
  | none =>
    have hn := List.find?_eq_none.mp hf d hm
    simp [ho] at hn
  | some y =>
    have hy : y ∈ w.details.rows := List.mem_of_find?_eq_some hf
    have hyo : y.orderId = some orderId := by simpa using List.find?_some hf
    have hyr := hunique y hy (howned y hy hyo)
    rw [← hyr, hd]

theorem World.Initiated.found (h : w.Initiated rid orderId) {d : RidePaymentDetail}
    (hd : w.findDetailByRide rid = some d) : w.findDetailByOrder orderId = some d := by
  obtain ⟨x, hx, ho⟩ := h.detail
  obtain rfl : x = d := Option.some.inj (hx.symm.trans hd)
  exact findDetailByOrder_of_owned h.unique h.owned hd ho

/-- The transaction of a delivery. -/
def World.notified (w : World) (r : Ride) (d : RidePaymentDetail) (orderId : OrderId) (n : Delivery) :
    RidePaymentDetail × World :=
  let applied := applyNotification r n.payload d
  w.saveDetailWithRideUpdate applied.1
    (if applied.2.1 then some ⟨r.id, some .paid, none⟩ else none)
    (applied.2.2.map fun update =>
      { rideId := some r.id
        paymentDetailId := some applied.1.id
        orderId := applied.1.orderId.getD orderId
        status := update.status
        lastError := update.lastError
        setProcessedAt := update.setProcessedAt })
    n.now

/-- A program that announces and then leaves the store alone. -/
theorem Announces.world {α : Type} {p : Service Unit} (hp : Announces env p) {q : Unit → Service α}
    (hq : ∀ v, ((q ()).run (handle env) v).2 = v) (v : World) :
    ∃ ns, ((p >>= q).run (handle env) v).2 = { v with notifications := ns } := by
  obtain ⟨ns, hrun⟩ := hp v
  exact ⟨ns, by rw [Program.run_bind_ok _ hrun, hq]⟩

/-- A delivery writes the three tables in one transaction, and then only notifies. -/
theorem deliver_eq (env : Environment) (h : w.Initiated rid orderId) (hn : w.Admits orderId n) {r : Ride}
    {d : RidePaymentDetail} (hr : w.rides.find rid = some r) (hd : w.findDetailByRide rid = some d) :
    ∃ ns, w.deliver env n = { (w.notified r d orderId n).2 with notifications := ns } := by
  have hdr : d.rideId = rid := (mem_of_findDetailByRide hd).2
  unfold World.deliver handlePaymentNotification
  have hip := run_call env (.isIpAllowed (normalizeIpAddresses n.sourceIp)) w
  rw [handle, hn.2] at hip
  rw [Program.run_bind_ok _ hip]
  have hord := run_call env (.findDetailByOrder orderId) w
  rw [handle, h.found hd] at hord
  simp only [hn.1, not_true_eq_false, if_false]
  rw [Program.run_bind_ok _ hord]
  have hride := run_findById env d.rideId w
  rw [hdr, hr] at hride
  simp only [hdr]
  rw [Program.run_bind_ok _ hride, Program.run_bind, run_call]
  simp only [handle, World.notified]
  generalize w.saveDetailWithRideUpdate _ _ _ _ = saved
  simp only [Prod.map, id]
  rw [Program.run_bind_ok _ (run_findById env _ _)]
  split
  · exact Announces.world announces_both (fun _ => rfl) _
  · exact ⟨saved.2.notifications, rfl⟩

theorem updatePaymentState_tables (w : World) (rideId : Id) (s : Option ERidePaymentStatus)
    (url : Option String) :
    (w.updatePaymentState rideId s url).2.details = w.details ∧
      (w.updatePaymentState rideId s url).2.outbox = w.outbox ∧
      (w.updatePaymentState rideId s url).2.whitelist = w.whitelist := by
  unfold World.updatePaymentState
  split <;> exact ⟨rfl, rfl, rfl⟩

/-- The three parts of the transaction write one table each. -/
theorem saveDetailWithRideUpdate_tables (w : World) (d : RidePaymentDetail)
    (rideUpdate : Option RidePaymentUpdate) (update : OutboxUpdate) (now : Time) :
    (w.saveDetailWithRideUpdate d rideUpdate (some update) now).2.details = (w.persistDetail d).2.details ∧
      (w.saveDetailWithRideUpdate d rideUpdate (some update) now).2.outbox =
        (w.applyOutboxUpdate update now).outbox ∧
      (w.saveDetailWithRideUpdate d rideUpdate (some update) now).2.whitelist = w.whitelist := by
  have hout : (w.persistDetail d).2.outbox = w.outbox := persistDetail_outbox d
  have hlist : (w.persistDetail d).2.whitelist = w.whitelist := by
    unfold World.persistDetail
    split <;> rfl
  cases rideUpdate with
  | none => exact ⟨rfl, by simp only [World.saveDetailWithRideUpdate, World.applyOutboxUpdate, hout], hlist⟩
  | some u =>
    obtain ⟨h1, h2, h3⟩ := updatePaymentState_tables (w.persistDetail d).2 u.rideId u.paymentStatus u.paymentUrl
    refine ⟨h1, ?_, h3.trans hlist⟩
    simp only [World.saveDetailWithRideUpdate, World.applyOutboxUpdate, World.applyRideUpdate, h2, hout]

theorem mem_persistDetail {d x : RidePaymentDetail} (h : x ∈ (w.persistDetail d).2.details.rows) :
    x ∈ w.details.rows ∨ ∃ k, x = { d with id := k } := by
  unfold World.persistDetail at h
  split at h
  · rcases Table.mem_put.mp h with ⟨rfl, -⟩ | ⟨hx, -⟩
    · exact .inr ⟨_, rfl⟩
    · exact .inl hx
  · rcases Table.mem_insert.mp h with hx | rfl
    · exact .inl hx
    · exact .inr ⟨_, rfl⟩

theorem mem_applyOutboxUpdate {update : OutboxUpdate} {now : Time} {x : PaymentOutbox}
    (h : x ∈ (w.applyOutboxUpdate update now).outbox.rows) : ∃ y ∈ w.outbox.rows,
      x.orderId = y.orderId ∧ x.rideId = y.rideId ∧ x.paymentDetailId = y.paymentDetailId ∧
      (y.orderId = update.orderId → update.rideId = some y.rideId →
        update.paymentDetailId = some y.paymentDetailId →
        x.status = update.status ∧ x.lastError = update.lastError) := by
  obtain ⟨y, hy, rfl⟩ := List.mem_map.mp h
  refine ⟨y, hy, ?_⟩
  split
  · exact ⟨rfl, rfl, rfl, fun _ _ _ => ⟨rfl, rfl⟩⟩
  · next hno =>
    refine ⟨rfl, rfl, rfl, fun h1 h2 h3 => absurd ?_ hno⟩
    simp [h1, h2, h3]

/-- Exactly a success pays the ride. -/
theorem notified_ride (env : Environment) {r : Ride} (d : RidePaymentDetail) (orderId : OrderId)
    (n : Delivery) (hr : w.rides.find rid = some r) :
    ∃ r', (w.notified r d orderId n).2.rides.find rid = some r' ∧
      (r'.paymentStatus = some .paid ↔ n.Succeeds ∨ r.paymentStatus = some .paid) := by
  have hid : r.id = rid := Table.key_of_find hr
  subst hid
  refine ⟨_, find_handle env (.saveDetailWithRideUpdate _ _ _ _) hr, ?_⟩
  have hpaid : (applyNotification r n.payload d).2.1 = isSuccessfulPaymentStatus n.status := rfl
  rw [hpaid]
  by_cases hs : isSuccessfulPaymentStatus n.status = true
  · simp [hs, Call.onRide, Delivery.Succeeds]
  · simp [hs, Call.onRide, Delivery.Succeeds]

/-- What a delivery leaves: the order is still the ride's, detail and outbox mirror
its status, and the ride is paid if it was or if the status is a success. -/
theorem notified_spec (env : Environment) (h : w.Initiated rid orderId) (hn : w.Admits orderId n) :
    (w.deliver env n).Initiated rid orderId ∧ (w.deliver env n).Mirrors rid orderId n.status ∧
      ((w.deliver env n).RidePaid rid ↔ n.Succeeds ∨ w.RidePaid rid) ∧
      (w.deliver env n).whitelist = w.whitelist := by
  obtain ⟨r, hr⟩ := h.ride
  obtain ⟨d, hd, -⟩ := h.detail
  obtain ⟨ns, he⟩ := deliver_eq env h hn hr hd
  obtain ⟨u, hu⟩ := outboxUpdate_some n.status
  obtain ⟨r', hr', hpaid⟩ := notified_ride env d orderId n hr
  have hid : r.id = rid := Table.key_of_find hr
  have hdr : d.rideId = rid := (mem_of_findDetailByRide hd).2
  let updated := (applyNotification r n.payload d).1
  have horder : updated.orderId = some orderId := by simp [updated, applyNotification, hn.1]
  obtain ⟨k, -, hfind, hunique, hk⟩ := persistDetail_spec h.unique (d := updated) hdr
  have hkd : k = d.id := hk d hd
  have hupdate : (applyNotification r n.payload d).2.2 = some u := hu
  have hnot : w.notified r d orderId n = w.saveDetailWithRideUpdate updated
      (if isSuccessfulPaymentStatus n.status then some ⟨r.id, some .paid, none⟩ else none)
      (some ⟨some r.id, some d.id, orderId, u.status, u.lastError, u.setProcessedAt⟩) n.now := by
    have hget : (applyNotification r n.payload d).1.orderId.getD orderId = orderId := by
      rw [show (applyNotification r n.payload d).1.orderId = some orderId from horder]
      rfl
    simp only [World.notified, hupdate, Option.map_some, hget]
    rfl
  obtain ⟨hdetails, houtbox, hlist⟩ := saveDetailWithRideUpdate_tables w updated
    (if isSuccessfulPaymentStatus n.status then some ⟨r.id, some .paid, none⟩ else none)
    ⟨some r.id, some d.id, orderId, u.status, u.lastError, u.setProcessedAt⟩ n.now
  rw [← hnot] at hdetails houtbox hlist
  have hrows (x : PaymentOutbox) (hx : x ∈ (w.notified r d orderId n).2.outbox.rows)
      (hxo : x.orderId = orderId) :
      x.rideId = rid ∧ x.paymentDetailId = d.id ∧ x.status = u.status ∧ x.lastError = u.lastError := by
    rw [houtbox] at hx
    obtain ⟨y, hy, h1, h2, h3, h4⟩ := mem_applyOutboxUpdate hx
    obtain ⟨hyr, hyd⟩ := h.outbox d hd y hy (h1 ▸ hxo)
    obtain ⟨hst, herr⟩ := h4 (h1 ▸ hxo) (by rw [hid, hyr]) (by rw [hyd])
    exact ⟨h2.trans hyr, h3.trans hyd, hst, herr⟩
  have hfound : (w.notified r d orderId n).2.findDetailByRide rid = some { updated with id := k } := by
    rw [World.findDetailByRide, hdetails]
    exact hfind
  rw [he]
  refine ⟨⟨⟨r', hr'⟩, ⟨_, hfound, horder⟩, ?_, ?_, ?_⟩, ⟨⟨_, hfound, rfl⟩, ?_⟩, ?_, hlist⟩
  · intro x hx hxr
    have hx' : x ∈ (w.persistDetail updated).2.details.rows := hdetails ▸ hx
    exact hfound.trans (hfind.symm.trans (hunique x hx' hxr))
  · intro x hx hxo
    have hx' : x ∈ (w.persistDetail updated).2.details.rows := hdetails ▸ hx
    rcases mem_persistDetail hx' with hx | ⟨k', rfl⟩
    · exact h.owned x hx hxo
    · exact hdr
  · intro d' hd' x hx hxo
    obtain rfl := Option.some.inj (hfound.symm.trans hd')
    obtain ⟨hxr, hxd, -⟩ := hrows x hx hxo
    exact ⟨hxr, hxd.trans hkd.symm⟩
  · intro x hx hxo
    obtain ⟨-, -, hst, herr⟩ := hrows x hx hxo
    exact ⟨u, hu, hst, herr⟩
  · constructor
    · rintro ⟨x, hx, hp⟩
      obtain rfl := Option.some.inj (hr'.symm.trans hx)
      exact (hpaid.mp hp).imp_right fun hp => ⟨r, hr, hp⟩
    · intro hp
      refine ⟨r', hr', hpaid.mpr (hp.imp_right ?_)⟩
      rintro ⟨x, hx, hp⟩
      obtain rfl := Option.some.inj (hr.symm.trans hx)
      exact hp

/-- What a sequence of deliveries leaves. -/
theorem deliverAll_spec (env : Environment) {ns : List Delivery} (h : w.Initiated rid orderId)
    (hn : ∀ n ∈ ns, w.Admits orderId n) :
    (w.deliverAll env ns).Initiated rid orderId ∧
      ((w.deliverAll env ns).RidePaid rid ↔ (∃ n ∈ ns, n.Succeeds) ∨ w.RidePaid rid) ∧
      ∀ n, ns.getLast? = some n → (w.deliverAll env ns).Mirrors rid orderId n.status := by
  induction ns generalizing w with
  | nil =>
    refine ⟨h, ?_, fun n hlast => ?_⟩
    · simp [World.deliverAll]
    · cases hlast
  | cons n ns ih =>
    obtain ⟨hinit, hmirror, hpaid, hlist⟩ := notified_spec env h (hn n List.mem_cons_self)
    have hrest : ∀ m ∈ ns, (w.deliver env n).Admits orderId m := by
      intro m hm
      have hw := hn m (List.mem_cons_of_mem n hm)
      rwa [World.Admits, hlist]
    obtain ⟨hinit', hpaid', hlast⟩ := ih hinit hrest
    have hcons : w.deliverAll env (n :: ns) = (w.deliver env n).deliverAll env ns := rfl
    rw [hcons]
    refine ⟨hinit', ?_, fun m hm => ?_⟩
    · rw [hpaid', hpaid]
      simp only [List.mem_cons, exists_eq_or_imp]
      exact or_left_comm.trans or_assoc.symm
    · cases ns with
      | nil =>
        obtain rfl : n = m := by simpa using hm
        exact hmirror
      | cons n' ns =>
        rw [List.getLast?_cons_cons] at hm
        exact hlast m hm

/-- The three tables agree on a payment exactly when the mirrored status is a success. -/
theorem World.Mirrors.settled_iff {status : ERidePaymentDetailStatus} (h : w.Mirrors rid orderId status)
    (hp : w.RidePaid rid) :
    w.Settled rid orderId ↔ isSuccessfulPaymentStatus status = true := by
  obtain ⟨d, hd, hst⟩ := h.detail
  constructor
  · intro hs
    obtain ⟨x, hx, hxs⟩ := hs.detail
    obtain rfl := Option.some.inj (hd.symm.trans hx)
    exact hst ▸ hxs
  · intro hs
    refine ⟨hp, ⟨d, hd, hst.symm ▸ hs⟩, fun x hx ho => ?_⟩
    obtain ⟨u, hu, hxs, hxe⟩ := h.outbox x hx ho
    rw [outboxUpdate_success hs] at hu
    cases hu
    exact ⟨hxs, hxe⟩

/-- In whatever order and however often the notifications of an order are delivered,
if one of them is a success then ride, detail and outbox agree on the payment in the
end exactly when the last one delivered is a success. -/
theorem settled_iff_last (env : Environment) (w : World) (rid : Id) (orderId : OrderId)
    (h : w.Initiated rid orderId) (payloads : List PaymentNotification) (ns : List Delivery)
    (hadmits : ∀ n ∈ ns, w.Admits orderId n)
    (hsame : ∀ p, p ∈ ns.map Delivery.payload ↔ p ∈ payloads)
    (hsuccess : ∃ p ∈ payloads,
      isSuccessfulPaymentStatus (normalizePaymentStatus p.transactionStatus) = true) :
    (w.deliverAll env ns).Settled rid orderId ↔ ∃ n, ns.getLast? = some n ∧ n.Succeeds := by
  obtain ⟨-, hpaid, hlast⟩ := deliverAll_spec env h hadmits
  obtain ⟨p, hp, hs⟩ := hsuccess
  obtain ⟨n, hn, rfl⟩ := List.mem_map.mp ((hsame p).mpr hp)
  have hpaid' := hpaid.mpr (.inl ⟨n, hn, hs⟩)
  have hne : ns ≠ [] := List.ne_nil_of_mem hn
  have hget : ns.getLast? = some (ns.getLast hne) := List.getLast?_eq_some_getLast hne
  rw [(hlast _ hget).settled_iff hpaid', hget]
  constructor
  · intro hs'
    exact ⟨_, rfl, hs'⟩
  · rintro ⟨m, hm, hs'⟩
    obtain rfl := Option.some.inj hm
    exact hs'

/-- A payment of which the detail and the outbox row are the only ones. -/
theorem World.Initiated.of_rows {w : World} {rid : Id} {orderId : OrderId} {d : RidePaymentDetail} {x : PaymentOutbox}
    (hride : ∃ r, w.rides.find rid = some r) (hdetails : w.details.rows = [d]) (hd : d.rideId = rid)
    (ho : d.orderId = some orderId) (houtbox : w.outbox.rows = [x]) (hx : x.rideId = rid)
    (hxd : x.paymentDetailId = d.id) : w.Initiated rid orderId := by
  have hfind : w.findDetailByRide rid = some d := by simp [World.findDetailByRide, hdetails, hd]
  refine ⟨hride, ⟨d, hfind, ho⟩, ?_, ?_, ?_⟩
  · intro y hy _
    obtain rfl : y = d := by simpa [hdetails] using hy
    exact hfind
  · intro y hy _
    obtain rfl : y = d := by simpa [hdetails] using hy
    exact hd
  · intro d' hd' y hy _
    obtain rfl := Option.some.inj (hfind.symm.trans hd')
    obtain rfl : y = x := by simpa [houtbox] using hy
    exact ⟨hx, hxd⟩

/-- Order 0 of the completed ride has been initiated. -/
def initiatedWorld : World :=
  ((Pool.start (paymentCalls (.around [7, 8]) payAndNotify) completedWorld).exec
    (handle (.around [7, 8])) (Pool.turns [(0, 6), (1, 20), (0, 20)])).store

theorem initiatedWorld_initiated : initiatedWorld.Initiated 1 0 := by
  have hdetail : initiatedWorld.details.rows.map (fun d => (d.id, d.rideId, d.orderId)) =
      [(1, 1, some 0)] := by decide +kernel
  have houtbox : initiatedWorld.outbox.rows.map (fun x => (x.rideId, x.paymentDetailId)) =
      [(1, 1)] := by decide +kernel
  obtain ⟨d, hrows, hd⟩ := List.map_eq_singleton_iff.mp hdetail
  obtain ⟨x, hx, hxd⟩ := List.map_eq_singleton_iff.mp houtbox
  simp only [Prod.mk.injEq] at hd hxd
  exact .of_rows (Option.isSome_iff_exists.mp (by decide +kernel)) hrows hd.2.1 hd.2.2 hx hxd.1 (hxd.2.trans hd.1.symm)

def notification (transactionStatus : String) (now : Time) : Delivery :=
  ⟨⟨some 0, some transactionStatus, none, []⟩, "10.0.0.1", now⟩

/-- A pending notification, and then two deliveries of the settlement. -/
theorem settled_pending_first :
    (initiatedWorld.deliverAll (.around [7, 8])
      [notification "pending" 7, notification "settlement" 8, notification "settlement" 9]).Settled 1 0 :=
  (settled_iff_last (.around [7, 8]) initiatedWorld 1 0 initiatedWorld_initiated
    [(notification "settlement" 0).payload, (notification "pending" 0).payload] _ (by decide +kernel)
    (by simp [notification, or_comm]) ⟨_, List.mem_cons_self, by decide +kernel⟩).mpr
      ⟨_, rfl, by decide +kernel⟩

/-- The pending notification is delivered once more after the settlement. -/
theorem settled_then_pending :
    initiatedWorld.Initiated 1 0 ∧
      (∀ n ∈ [notification "settlement" 7, notification "pending" 8], initiatedWorld.Admits 0 n) ∧
      (notification "settlement" 7).Succeeds ∧
      ¬ (initiatedWorld.deliverAll (.around [7, 8])
        [notification "settlement" 7, notification "pending" 8]).Settled 1 0 := by
  refine ⟨initiatedWorld_initiated, by decide +kernel, by decide +kernel, fun h => ?_⟩
  obtain ⟨d, hd, hs⟩ := h.detail
  have hstatus : ((initiatedWorld.deliverAll (.around [7, 8])
      [notification "settlement" 7, notification "pending" 8]).findDetailByRide 1).map (·.status) =
        some .pending := by decide +kernel
  rw [hd, Option.map_some, Option.some.injEq] at hstatus
  rw [hstatus] at hs
  cases hs

end NebLite
