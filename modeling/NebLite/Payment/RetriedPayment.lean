import NebLite.Payment.Sourcing
import NebLite.Atomic.Outcomes

/-! Whether the payment of a ride can be retried after the provider has reported that it failed. -/

namespace NebLite

open Atomic

/-- The notification that a turn processes for the ride. -/
def Turn.notification (env : Environment) (rid : Id) (w : World) : Turn → Option PaymentNotification
  | alone (.handlePaymentNotification payload sourceIp now) =>
    match ((NebLite.handlePaymentNotification payload sourceIp now).run (handle env) w).1 with
    | .ok (ride, _) => if ride.id = rid then some payload else none
    | .error _ => none
  | _ => none

/-- The notifications that a run processes for the ride, in their order. -/
def World.processed (env : Environment) (rid : Id) : World → List Turn → List PaymentNotification
  | _, [] => []
  | w, turn :: turns => (turn.notification env rid w).toList ++ World.processed env rid (turn.step env w) turns

/-- The last notification that the run has processed for the ride reports a final failure. -/
def World.FailedLast (env : Environment) (w : World) (rid : Id) (turns : List Turn) : Prop :=
  ∃ p, (w.processed env rid turns).getLast? = some p ∧
    isFinalFailureStatus (normalizePaymentStatus p.transactionStatus) = true

/-- The order of the ride has been posted again from `w` to `v`, and a link that has been
returned is a reply to what has been posted since. -/
def World.Retried (env : Environment) (w : World) (rid : Id) (outcome : Except ServiceError (Ride × Option FormattedPayment))
    (v : World) : Prop :=
  ∃ later, v.posts = w.posts ++ later ∧ (∃ p ∈ later, ∃ k, w.orderOf rid = some (k, p.orderId)) ∧
    ∀ ride payment, outcome = .ok (ride, some payment) → env.Links w.answered later payment.token payment.redirectUrl

/-- The payment of the ride has neither been made nor given a link. -/
structure World.Payable (w : World) (rid : Id) : Prop where
  unpaid : ∀ r, w.rides.find rid = some r → r.paymentStatus ≠ some .paid
  unlinked : ∀ d, w.findDetailByRide rid = some d → d.isInitiated = false

section History

variable {env : Environment} {w : World} {rid : Id}

theorem processed_mem {p : PaymentNotification} {turns : List Turn} (h : p ∈ w.processed env rid turns) :
    ∃ before turn after, turns = before ++ turn :: after ∧
      turn.notification env rid (w.afterTurns env before) = some p := by
  induction turns generalizing w with
  | nil => cases h
  | cons turn turns ih =>
    rcases List.mem_append.mp h with h | h
    · exact ⟨[], turn, turns, rfl, Option.mem_toList.mp h⟩
    · obtain ⟨before, later, after, rfl, hp⟩ := ih h
      exact ⟨turn :: before, later, after, rfl, hp⟩

variable (env w) in
theorem recorded_ride (payload : PaymentNotification) (orderId : OrderId) (d : RidePaymentDetail) (ride : Ride) (now : Time) :
    (recordNotification payload orderId d ride now).Outcome (handle env) w (fun a _ => a.1.id = ride.id) fun _ _ => True := by
  have hany {α : Type} (p : Service α) (v : World) : p.Outcome (handle env) v (fun _ _ => True) fun _ _ => True :=
    Program.outcome_of_store (P := fun _ => True) trivial
  unfold recordNotification
  refine (hany _ w).bind fun saved v _ => ?_
  refine Program.outcome_after (run_findById env ride.id v) ?_
  have hid (x : Ride) (hx : x.id = ride.id) : ((v.rides.find ride.id).getD x).id = ride.id := by
    cases hfound : v.rides.find ride.id with
    | none => exact hx
    | some y => exact Table.key_of_find hfound
  simp only
  split
  · exact (hany _ v).bind fun _ _ _ => Program.outcome_ret (hid _ rfl)
  · exact Program.outcome_ret (hid _ rfl)

/-- A notification is only processed for a ride that has a detail. -/
theorem notification_detail {turn : Turn} {p : PaymentNotification} (h : turn.notification env rid w = some p) :
    ∃ d ∈ w.details.rows, d.rideId = rid := by
  cases turn with
  | served => cases h
  | alone op =>
    cases op with
    | handlePaymentNotification payload sourceIp now =>
      rw [Turn.notification] at h
      obtain ⟨e, he⟩ | ⟨orderId, d, ride, hd, hride, hrun⟩ := notification_cases env w payload sourceIp now
      · rw [he] at h
        cases h
      · rw [hrun] at h
        refine ⟨d, hd, ?_⟩
        rw [← Table.key_of_find hride]
        obtain ⟨a, hok, hid⟩ | ⟨e, herror, -⟩ := (recorded_ride env w payload orderId d ride now).cases
        · rw [hok] at h
          obtain ⟨he, -⟩ := Option.ite_none_right_eq_some.mp h
          exact hid.symm.trans he
        · rw [herror] at h
          cases h
    | lifecycle | proceedRidePayment | processOutbox => cases h

/-- A ride for which a notification has been processed is billed in the end. -/
theorem processed_billed (hl : w.Ledger) (hs : w.Sourced env) {p : PaymentNotification} {turns : List Turn}
    (h : p ∈ w.processed env rid turns) : ∃ x ∈ (w.afterTurns env turns).outbox.rows, x.rideId = rid := by
  obtain ⟨before, turn, after, rfl, hp⟩ := processed_mem h
  obtain ⟨d, hd, hride⟩ := notification_detail hp
  have hthen : (w.afterTurns env before).Sourced env := sourced_after env hs before
  obtain ⟨x, hx, hxd⟩ := hthen.billed d hd
  obtain ⟨hledger, -⟩ := ledger_after env hl before
  obtain ⟨-, hbinds⟩ := ledger_after env hledger (turn :: after)
  obtain ⟨y, hy, hyx⟩ := hbinds.outbox x hx
  have hsplit : w.afterTurns env (before ++ turn :: after) = (w.afterTurns env before).afterTurns env (turn :: after) :=
    List.foldl_append ..
  rw [hsplit]
  exact ⟨y, hy, hyx.rideId.trans (hxd.trans hride)⟩

end History

section Retry

variable {env : Environment} {w v : World} {jobs : List (Id × JobDelivery)}

/-- What the wait for a job returns has been read, with a redirect URL. -/
theorem outcome_awaitPayment (detailId outboxId : Id) (w : World) :
    (awaitPayment detailId outboxId).Outcome (handle env) w
      (fun d v => v = w ∧ w.details.find detailId = some d ∧ truthy d.redirectUrl = true) fun _ v => v = w := by
  unfold awaitPayment
  have hwait : ((call (.waitPaymentJob outboxId)).catching fun _ => throw (.badRequest "Failed to initiate payment")).Outcome
      (handle env) w (fun _ v => v = w) fun _ v => v = w := by
    have hcall : (call (.waitPaymentJob outboxId)).Outcome (handle env) w (fun _ v => v = w) fun _ v => v = w := by
      refine Program.outcome_of_store (P := fun v : World => v = w) ?_
      rw [run_call]
      rfl
    exact hcall.catching fun _ _ hv => Program.outcome_throw hv
  refine hwait.bind ?_
  rintro - v rfl
  refine Program.outcome_after (run_call env (.findDetail detailId) v) ?_
  cases hd : v.details.find detailId with
  | none => exact Program.outcome_throw rfl
  | some d =>
    simp only [↓Program.throw_seq]
    split
    · exact Program.outcome_throw rfl
    next hurl => exact Program.outcome_ret ⟨rfl, rfl, not_not.mp hurl⟩

theorem enqueue_tables (w : World) (rideId : Id) (d : RidePaymentDetail) (input : OutboxInput) :
    (w.enqueue rideId d input).posts = w.posts ∧ (w.enqueue rideId d input).answered = w.answered ∧
      (w.enqueue rideId d input).details = (w.persistDetail d).2.details := by
  have hkept : (w.persistDetail d).2.posts = w.posts ∧ (w.persistDetail d).2.answered = w.answered := by
    unfold World.persistDetail
    split <;> exact ⟨rfl, rfl⟩
  exact ⟨hkept.1, hkept.2, rfl⟩

/-- The new row asks for what the payment has asked for, and belongs to the detail saved. -/
theorem enqueue_row (w : World) (rideId : Id) (d : RidePaymentDetail) (input : OutboxInput) :
    ∃ x, (w.enqueue rideId d input).outbox.find w.outbox.nextKey = some x ∧ x.requestPayload = input.requestPayload ∧
      x.paymentDetailId = (w.persistDetail d).1.id := by
  let row := (w.saveDetailAndOutbox d input).1.2
  have hid : row.id = w.outbox.nextKey := saveDetailAndOutbox_id d input
  have hrow : ((w.saveDetailAndOutbox d input).2.addPaymentJob row.id (paymentJobId rideId row.id)).outbox.find row.id =
      some row := by
    change (w.saveDetailAndOutbox d input).2.outbox.find row.id = some row
    rw [saveDetailAndOutbox_find, if_pos hid]
  have hsaved := saveOutbox_found (y := { row with jobId := some (paymentJobId rideId row.id) }) hrow
  rw [← hid]
  exact ⟨_, hsaved, rfl, rfl⟩

theorem enqueue_deliverable (hs : w.Sourced env) (hconf : env.PaymentConfigured) (rideId : Id) (d : RidePaymentDetail)
    (input : OutboxInput) : (w.enqueue rideId d input).Deliverable env w.outbox.nextKey where
  configured := hconf
  stocked := by
    obtain ⟨x, hx, -, hdetail⟩ := enqueue_row w rideId d input
    refine ⟨x, hx, ?_⟩
    rw [hdetail]
    exact persistDetail_found d
  job := by
    let row := (w.saveDetailAndOutbox d input).1.2
    have hid : row.id = w.outbox.nextKey := saveDetailAndOutbox_id d input
    have hfresh : w.paymentJobs.find w.outbox.nextKey = none := by
      apply Table.find_none.mpr
      intro j hj he
      apply hs.queued j hj
      change j.outboxId = w.outbox.nextKey at he
      rw [he, Table.find_nextKey]
    have hjobs : (w.saveDetailAndOutbox d input).2.paymentJobs = w.paymentJobs := persistDetail_jobs d
    rw [← hid] at hfresh ⊢
    rw [← hjobs] at hfresh
    let job : PaymentJob := ⟨row.id, paymentJobId rideId row.id, .waiting, 0⟩
    have hadded : (w.enqueue rideId d input).paymentJobs.find row.id = some job := Table.find_upsert_self (r := job) hfresh
    exact ⟨job, hadded, rfl⟩

/-- A payment without a link that is queued is posted, and waits for a link of its own. -/
theorem outcome_queuePayment (hl : w.Ledger) (hs : w.Sourced env) (hconf : env.PaymentConfigured)
    (hjob : ∃ d, (w.outbox.nextKey, d) ∈ jobs) (ride : Ride) {d : RidePaymentDetail} (hlink : d.token = none ∧ d.redirectUrl = none)
    (input : OutboxInput) : ∃ later, input.requestPayload ∈ later ∧
      (queuePayment ride d input).Outcome (serving env jobs) w
        (fun e v => v.posts = w.posts ++ later ∧ env.Links w.answered later e.token e.redirectUrl)
        fun _ v => v.posts = w.posts ++ later := by
  obtain ⟨hposts, hanswered, hdetails⟩ := enqueue_tables w ride.id d input
  obtain ⟨x, hx, hreq, -⟩ := enqueue_row w ride.id d input
  obtain ⟨later, hjobs, hmem⟩ := jobs_post (enqueue_deliverable hs hconf ride.id d input) hjob hx
  obtain ⟨k, hk, hfound, hunique, -⟩ := persistDetail_spec (hl.agree d.rideId).unique (d := d) rfl
  refine ⟨later, hreq ▸ hmem, ?_⟩
  have hposted : (jobs.foldl (World.work env) (w.enqueue ride.id d input)).posts = w.posts ++ later := by
    rw [hjobs.posts, hposts]
  unfold Program.Outcome
  rw [run_queuePayment]
  refine (outcome_awaitPayment _ _ _).mono ?_ ?_
  · rintro e v ⟨rfl, he, hurl⟩
    refine ⟨hposted, ?_⟩
    obtain ⟨e₀, he₀, hride, ⟨-, hsame⟩ | hlinks⟩ := hjobs.details e (Table.find_some.mp he).1
    · -- a redirect URL that was there when the wait began would be the one that was cleared
      have hstored : (w.enqueue ride.id d input).details.find (w.saveDetailAndOutbox d input).1.1.id =
          some { d with id := k } := by
        rw [hdetails]
        exact Table.find_some.mpr ⟨(mem_of_findDetailByRide hfound).1, congrArg RidePaymentDetail.id hk.symm⟩
      obtain ⟨e', he', her⟩ := hjobs.keeps.details _ _ hstored
      obtain rfl := Option.some.inj (he.symm.trans he')
      have hsole : some e₀ = some { d with id := k } := (hunique e₀ (hdetails ▸ he₀) (hride.trans her)).symm.trans hfound
      rw [hsame, Option.some.inj hsole, hlink.2] at hurl
      cases hurl
    · rwa [hanswered] at hlinks
  · rintro e v rfl
    exact hposted

theorem run_serving_call {op : Call} (h : ¬ op.Waits) (w : World) : (call op).run (serving env jobs) w = handle env op w := by
  rw [call, Program.run_perform, serving_idle h]

/-- From the payment that has been initiated on, `proceedRidePayment` posts nothing and returns it. -/
theorem outcome_proceed {rid : Id} {ride : Ride} (hride : w.findPaymentRide rid = some ride) (hstatus : ride.status = .completed)
    (hunpaid : ride.paymentStatus ≠ some .paid) {Q : RidePaymentDetail → List PaymentRequestPayload → Prop}
    {E : List PaymentRequestPayload → Prop}
    (hinit : (initiatePayment env ride).Outcome (serving env jobs) w (fun d v => Q d v.posts) fun _ v => E v.posts) :
    (proceedRidePayment env rid ride.riderId).Outcome (serving env jobs) w
      (fun a v => ∃ d, a.2 = formatPaymentDetail (some d) ∧ Q d v.posts) fun _ v => E v.posts := by
  have hread : (call (.findPaymentRide rid)).run (serving env jobs) w = (.ok (some ride), w) := by
    rw [run_serving_call id, ← hride]
    rfl
  unfold proceedRidePayment
  refine Program.outcome_after hread ?_
  simp only [hstatus, hunpaid, ne_eq, not_true_eq_false, if_false]
  refine hinit.bind fun d v hd => ?_
  have hstate : (updatePaymentState ride.id (some .onProcess) d.redirectUrl).Outcome (serving env jobs) v
      (fun _ u => Q d u.posts) fun _ u => E u.posts := by
    let op : Call := .updatePaymentState ride.id (some .onProcess) d.redirectUrl
    have hwrite : (call op).run (serving env jobs) v = handle env op v := run_serving_call id v
    have hposts : (handle env op v).2.posts = v.posts := by
      have hcalm : op.Calm := trivial
      rw [(hcalm.unqueued env v).posts, List.append_nil]
    refine Program.outcome_after hwrite (Program.outcome_ret ?_)
    change Q d (handle env op v).2.posts
    rwa [hposts]
  refine hstate.bind fun _ u hu => ?_
  have hagain : (call (.findPaymentRide ride.id)).run (serving env jobs) u = (.ok (u.findPaymentRide ride.id), u) :=
    run_serving_call id u
  exact Program.outcome_after hagain (Program.outcome_ret ⟨d, rfl, hu⟩)

theorem buildPaymentRequestPayload_payable {r : Ride} {orderId : OrderId} {fare : ℚ} (hf : r.fareFinal = some fare)
    (hr : r.Printed) (hpos : 0 < fare) : buildPaymentRequestPayload r orderId = .ok ⟨orderId, fare, r.riderId⟩ := by
  rw [buildPaymentRequestPayload, roundCurrency_printed hr hf]
  exact if_neg (not_le.mpr hpos)

/-- A payable ride that has been billed before is posted again. -/
theorem retried_of_payable (hl : w.Ledger) (hs : w.Sourced env) {x : PaymentOutbox} (hx : x ∈ w.outbox.rows) {r : Ride}
    (hr : w.rides.find x.rideId = some r) (hpay : w.Payable x.rideId) (hjob : ∃ d, (w.outbox.nextKey, d) ∈ jobs) :
    w.Retried env x.rideId ((proceedRidePayment env x.rideId r.riderId).run (serving env jobs) w).1
      ((proceedRidePayment env x.rideId r.riderId).run (serving env jobs) w).2 := by
  obtain ⟨r', d, hbills⟩ := hl.bills hx
  obtain rfl := Option.some.inj (hr.symm.trans hbills.ride)
  let ride : Ride := { r with note := none, cancelReason := none, deletedAt := none }
  have hride : w.findPaymentRide x.rideId = some ride := by
    rw [World.findPaymentRide, hr]
    rfl
  have hid : ride.id = x.rideId := Table.key_of_find hr
  have hconf : env.PaymentConfigured := hs.configured d (mem_of_findDetailByRide hbills.detail).1
  let payload : PaymentRequestPayload := ⟨x.orderId, x.requestPayload.grossAmount, ride.riderId⟩
  have hpayload : buildPaymentRequestPayload ride x.orderId = .ok payload :=
    buildPaymentRequestPayload_payable hbills.fare (hl.printed r (Table.find_some.mp hr).1) hbills.positive
  obtain ⟨later, hmem, hqueue⟩ := outcome_queuePayment hl hs hconf hjob ride
    (d := queuedDetail d x.orderId payload) ⟨rfl, rfl⟩ ⟨x.orderId, payload, .pending⟩
  have hinit : (initiatePayment env ride).Outcome (serving env jobs) w
      (fun e v => v.posts = w.posts ++ later ∧ env.Links w.answered later e.token e.redirectUrl)
      fun _ v => v.posts = w.posts ++ later := by
    rw [initiatePayment_eq, ensurePaymentConfiguration_ok hconf, pure_bind]
    have hfound : (call (.findDetailByRide ride.id)).run (serving env jobs) w = (.ok (some d), w) := by
      rw [run_serving_call id, handle, hid, hbills.detail]
    refine Program.outcome_after hfound ?_
    simp only [Option.getD_some, hpay.unlinked d hbills.detail, Bool.false_eq_true, if_false, hbills.order]
    rw [pure_bind, hpayload]
    exact hqueue
  have hend := outcome_proceed (Q := fun e posts => posts = w.posts ++ later ∧
    env.Links w.answered later e.token e.redirectUrl) (E := fun posts => posts = w.posts ++ later) hride hbills.status
    (hpay.unpaid r hr) hinit
  have horder : ∃ p ∈ later, ∃ k, w.orderOf x.rideId = some (k, p.orderId) := by
    refine ⟨payload, hmem, d.id, orderOf_some.mpr ⟨d, hbills.detail, rfl, ?_⟩⟩
    exact hbills.order
  change (proceedRidePayment env x.rideId r.riderId).Outcome _ _ _ _ at hend
  obtain ⟨a, ha, e, hpayment, hposts, hlinks⟩ | ⟨e, he, hposts⟩ := hend.cases
  · refine ⟨later, hposts, horder, fun ride payment hok => ?_⟩
    obtain rfl : a = (ride, some payment) := Except.ok.inj (ha.symm.trans hok)
    obtain rfl : payment = _ := Option.some.inj hpayment
    exact hlinks
  · refine ⟨later, hposts, horder, fun ride payment hok => ?_⟩
    rw [he] at hok
    cases hok

variable (jobs) in
theorem unposted_of_not_payable {rid : Id} {r : Ride} {d : RidePaymentDetail} (hr : w.rides.find rid = some r)
    (hd : w.findDetailByRide rid = some d) (hstatus : r.status = .completed) (hconf : env.PaymentConfigured)
    (hno : ¬ w.Payable rid) : ((proceedRidePayment env rid r.riderId).run (serving env jobs) w).2.posts = w.posts := by
  let ride : Ride := { r with note := none, cancelReason := none, deletedAt := none }
  have hride : w.findPaymentRide rid = some ride := by
    rw [World.findPaymentRide, hr]
    rfl
  have hid : ride.id = rid := Table.key_of_find hr
  have hfound : (call (.findDetailByRide ride.id)).run (serving env jobs) w = (.ok (some d), w) := by
    rw [run_serving_call id, handle, hid, hd]
  have hend : (proceedRidePayment env rid ride.riderId).Outcome (serving env jobs) w
      (fun _ v => v.posts = w.posts) fun _ v => v.posts = w.posts := by
    by_cases hpaid : r.paymentStatus = some .paid
    · have hread : (call (.findPaymentRide rid)).run (serving env jobs) w = (.ok (some ride), w) := by
        rw [run_serving_call id, ← hride]
        rfl
      unfold proceedRidePayment
      refine Program.outcome_after hread ?_
      simp only [ride, hstatus, hpaid, ne_eq, not_true_eq_false, if_false, if_true]
      exact Program.outcome_after hfound (Program.outcome_ret rfl)
    · have hlinked : d.isInitiated = true := by
        by_contra hunlinked
        refine hno ⟨fun x hx => ?_, fun e he => ?_⟩
        · rwa [← Option.some.inj (hr.symm.trans hx)]
        · rw [← Option.some.inj (hd.symm.trans he)]
          exact Bool.eq_false_iff.mpr hunlinked
      have hinit : (initiatePayment env ride).Outcome (serving env jobs) w (fun _ v => v.posts = w.posts)
          fun _ v => v.posts = w.posts := by
        rw [initiatePayment_eq, ensurePaymentConfiguration_ok hconf, pure_bind]
        refine Program.outcome_after hfound ?_
        simp only [Option.getD_some, hlinked, if_true]
        exact Program.outcome_ret rfl
      have hrest := outcome_proceed (Q := fun _ posts => posts = w.posts) (E := fun posts => posts = w.posts) hride
        hstatus hpaid hinit
      exact hrest.mono (fun _ _ h => h.choose_spec.2) fun _ _ h => h
  exact hend.store (P := fun v : World => v.posts = w.posts)

/-- When the last notification that has been processed for a ride reports a final failure,
the next payment of its rider is posted again exactly if the ride is not paid and its
payment detail does not carry a link any more. -/
theorem retried_iff (env : Environment) (whitelist : List String) (turns : List Turn) (rid : Id) (r : Ride)
    (hlast : (World.initial whitelist).FailedLast env rid turns)
    (hr : ((World.initial whitelist).afterTurns env turns).rides.find rid = some r) (jobs : List (Id × JobDelivery))
    (hjob : ∃ d, (((World.initial whitelist).afterTurns env turns).outbox.nextKey, d) ∈ jobs) :
    ((World.initial whitelist).afterTurns env turns).Retried env rid
      ((proceedRidePayment env rid r.riderId).run (serving env jobs) ((World.initial whitelist).afterTurns env turns)).1
      ((proceedRidePayment env rid r.riderId).run (serving env jobs) ((World.initial whitelist).afterTurns env turns)).2 ↔
    ((World.initial whitelist).afterTurns env turns).Payable rid := by
  obtain ⟨p, hp, -⟩ := hlast
  have hledger := ledger_initial whitelist
  have hsourced : (World.initial whitelist).Sourced env := sourced_initial whitelist
  obtain ⟨x, hx, rfl⟩ := processed_billed hledger hsourced (List.mem_of_getLast? hp)
  obtain ⟨hl, -⟩ := ledger_after env hledger turns
  have hs := sourced_after env hsourced turns
  generalize (World.initial whitelist).afterTurns env turns = w at *
  constructor
  · rintro ⟨later, hposts, ⟨p, hmem, -⟩, -⟩
    by_contra hno
    obtain ⟨r', d, hbills⟩ := hl.bills hx
    obtain rfl := Option.some.inj (hr.symm.trans hbills.ride)
    have hconf : env.PaymentConfigured := hs.configured d (mem_of_findDetailByRide hbills.detail).1
    have hnone := unposted_of_not_payable jobs hr hbills.detail hbills.status hconf hno
    rw [hposts, List.append_right_eq_self] at hnone
    rw [hnone] at hmem
    cases hmem
  · exact fun hpay => retried_of_payable hl hs hx hr hpay hjob

end Retry

/-- The ride is completed; the payment of its rider is queued, and the queue has `jobs` while it waits. -/
def askedTurns (jobs : List (Id × JobDelivery)) : List Turn :=
  (completedRun.map fun op => .alone (.lifecycle op)) ++ [.served 1 1 jobs]

/-- Then the provider reports the status. -/
def reportedTurns (jobs : List (Id × JobDelivery)) (status : String) : List Turn :=
  askedTurns jobs ++ [.alone (.handlePaymentNotification ⟨some 0, some status, none, []⟩ "10.0.0.1" 7)]

/-- The store in which the rider tries again. -/
def reportedWorld (jobs : List (Id × JobDelivery)) (status : String) : World :=
  (World.initial ["10.0.0.1"]).afterTurns (.around [7, 8]) (reportedTurns jobs status)

/-- A payment that has been denied before it was posted is posted when the rider tries again. -/
theorem denied_payment_retried : ∃ r, (reportedWorld [] "deny").rides.find 1 = some r ∧
    (reportedWorld [] "deny").Retried (.around [7, 8]) 1
      ((proceedRidePayment (.around [7, 8]) 1 r.riderId).run (serving (.around [7, 8]) [(2, ⟨8, 9⟩)])
        (reportedWorld [] "deny")).1
      ((proceedRidePayment (.around [7, 8]) 1 r.riderId).run (serving (.around [7, 8]) [(2, ⟨8, 9⟩)])
        (reportedWorld [] "deny")).2 := by
  have hlast : (World.initial ["10.0.0.1"]).FailedLast (.around [7, 8]) 1 (reportedTurns [] "deny") :=
    ⟨⟨some 0, some "deny", none, []⟩, by decide +kernel, by decide +kernel⟩
  obtain ⟨r, hr⟩ : ∃ r, (reportedWorld [] "deny").rides.find 1 = some r := Option.isSome_iff_exists.mp (by decide +kernel)
  have hunpaid : ((reportedWorld [] "deny").rides.find 1).all (fun r => r.paymentStatus != some .paid) = true := by
    decide +kernel
  have hunlinked : ((reportedWorld [] "deny").findDetailByRide 1).all (fun d => !d.isInitiated) = true := by
    decide +kernel
  have hkey : (reportedWorld [] "deny").outbox.nextKey = 2 := by decide +kernel
  have hpay : (reportedWorld [] "deny").Payable 1 := by
    refine ⟨fun r hr => ?_, fun d hd => ?_⟩
    · rw [hr] at hunpaid
      simpa using hunpaid
    · rw [hd] at hunlinked
      simpa using hunlinked
  refine ⟨r, hr, (retried_iff (.around [7, 8]) ["10.0.0.1"] (reportedTurns [] "deny") 1 r hlast hr [(2, ⟨8, 9⟩)] ?_).mpr hpay⟩
  exact ⟨⟨8, 9⟩, List.mem_singleton.mpr (Prod.ext hkey rfl)⟩

/-- The link of a payment has expired: the rider who tries again gets that link, and nothing
is posted. -/
theorem expired_link_returned : ∃ r, (reportedWorld [(1, ⟨5, 6⟩)] "expire").rides.find 1 = some r ∧
    (World.initial ["10.0.0.1"]).FailedLast (.around [7, 8]) 1 (reportedTurns [(1, ⟨5, 6⟩)] "expire") ∧
    r.status = .completed ∧ r.paymentStatus ≠ some .paid ∧ (reportedWorld [(1, ⟨5, 6⟩)] "expire").outbox.nextKey = 2 ∧
    ¬ (reportedWorld [(1, ⟨5, 6⟩)] "expire").Retried (.around [7, 8]) 1
      ((proceedRidePayment (.around [7, 8]) 1 r.riderId).run (serving (.around [7, 8]) [(2, ⟨8, 9⟩)])
        (reportedWorld [(1, ⟨5, 6⟩)] "expire")).1
      ((proceedRidePayment (.around [7, 8]) 1 r.riderId).run (serving (.around [7, 8]) [(2, ⟨8, 9⟩)])
        (reportedWorld [(1, ⟨5, 6⟩)] "expire")).2 := by
  have hlast : (World.initial ["10.0.0.1"]).FailedLast (.around [7, 8]) 1 (reportedTurns [(1, ⟨5, 6⟩)] "expire") :=
    ⟨⟨some 0, some "expire", none, []⟩, by decide +kernel, by decide +kernel⟩
  have hride : ∃ r ∈ (reportedWorld [(1, ⟨5, 6⟩)] "expire").rides.rows,
      (reportedWorld [(1, ⟨5, 6⟩)] "expire").rides.find 1 = some r ∧ r.status = .completed ∧
      r.paymentStatus ≠ some .paid ∧ r.riderId = 1 := by decide +kernel
  have hkey : (reportedWorld [(1, ⟨5, 6⟩)] "expire").outbox.nextKey = 2 := by decide +kernel
  have hposts : ((proceedRidePayment (.around [7, 8]) 1 1).run (serving (.around [7, 8]) [(2, ⟨8, 9⟩)])
      (reportedWorld [(1, ⟨5, 6⟩)] "expire")).2.posts = (reportedWorld [(1, ⟨5, 6⟩)] "expire").posts := by decide +kernel
  obtain ⟨r, -, hr, hs, hp, hid⟩ := hride
  refine ⟨r, hr, hlast, hs, hp, hkey, ?_⟩
  rw [hid]
  rintro ⟨later, hlater, ⟨p, hmem, -⟩, -⟩
  rw [hlater, List.append_right_eq_self] at hposts
  rw [hposts] at hmem
  cases hmem

end NebLite
