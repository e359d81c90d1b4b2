import NebLite.Payment.Ledger
import NebLite.Payment.Redelivery

/-! Sequential runs of the operations on rides keep the payment ledger, also when the queue
works while a payment waits for its job. -/

namespace NebLite

open Atomic

/-- What a payment has read still holds. -/
structure Trail.Current (t : Trail) (w : World) : Prop where
  fits : t.Fits w
  rides : ∀ r ∈ t.rides, ∃ x, w.rides.find r.id = some x ∧ x.status = r.status ∧ x.fareFinal = r.fareFinal
  details : ∀ d ∈ t.details, (∃ e, w.details.find d.id = some e ∧ e.rideId = d.rideId) ∧
    w.orderOf d.rideId = d.orderId.map fun o => (d.id, o)
  sought : t.outbox = [] → ∀ p ∈ t.sought, w.orderOf p.1 = p.2.bind fun e => e.orderId.map fun o => (e.id, o)
  ordered : ∀ p ∈ t.ordered, w.orderOf p.2.rideId = some (p.2.id, p.1)

section Current

variable {w w' : World} {t t' : Trail} {rop : RideOp} {op : Call}

theorem Trail.current_empty (w : World) : Trail.empty.Current w where
  fits := Trail.fits_empty w
  rides r hr := by cases hr
  details d hd := by cases hd
  sought _ p hp := by cases hp
  ordered p hp := by cases hp

/-- What was read holds on when the ledger goes on with the same orders. -/
theorem Trail.Current.kept (h : t.Current w) (hc : w.Continues w') (ho : ∀ k, w'.orderOf k = w.orderOf k) :
    t.Current w' where
  fits := h.fits.kept hc.keeps
  rides r hr := by
    obtain ⟨x, hx, hs, hf⟩ := h.rides r hr
    obtain ⟨y, hy, hs', hf'⟩ := hc.rides _ x hx
    exact ⟨y, hy, hs'.trans hs, hf'.trans hf⟩
  details d hd := by
    obtain ⟨⟨e, he, hr⟩, hord⟩ := h.details d hd
    obtain ⟨e', he', hr'⟩ := hc.keeps.details _ e he
    exact ⟨⟨e', he', hr'.trans hr⟩, (ho _).trans hord⟩
  sought hnone p hp := (ho _).trans (h.sought hnone p hp)
  ordered p hp := (ho _).trans (h.ordered p hp)

/-- A detail found by its key is the detail of its ride. -/
theorem World.Ledger.orderOf_detail (h : w.Ledger) {k : Id} {d : RidePaymentDetail} (hd : w.details.find k = some d) :
    w.orderOf d.rideId = d.orderId.map fun o => (d.id, o) := by
  have hfound := (h.agree d.rideId).unique d (Table.find_some.mp hd).1 rfl
  rw [World.orderOf, hfound]
  rfl

theorem World.Ledger.orderOf_order (h : w.Ledger) {orderId : OrderId} {d : RidePaymentDetail}
    (hd : w.findDetailByOrder orderId = some d) : w.orderOf d.rideId = some (d.id, orderId) := by
  have hfound := (h.agree d.rideId).unique d (List.mem_of_find?_eq_some hd) rfl
  have horder : d.orderId = some orderId := by simpa using List.find?_some hd
  exact orderOf_some.mpr ⟨d, hfound, rfl, horder⟩

/-- A call that leaves the orders adds to the trail what holds. -/
theorem Trail.Current.reads (env : Environment) (h : t.Current w) (hl : w.Ledger) (hop : op.Books w)
    (hq : ∀ d input, op ≠ .saveDetailAndOutbox d input) (hr : t.Reads w op t') :
    t'.Current (handle env op w).2 := by
  have hold := h.kept (hop.continues env) fun k => (hop.orders env hl.agree hq k).2
  have hfits := h.fits.reads (hop.continues env).keeps hr
  cases hr with
  | nothing => exact hold
  | ride hx =>
    refine ⟨hfits, fun r hr => ?_, hold.details, hold.sought, hold.ordered⟩
    rcases List.mem_cons.mp hr with rfl | hr
    · have hid := Table.key_of_find hx
      exact ⟨r, hid ▸ hx, rfl, rfl⟩
    · exact hold.rides r hr
  | paymentRide hx =>
    refine ⟨hfits, fun r hr => ?_, hold.details, hold.sought, hold.ordered⟩
    rcases List.mem_cons.mp hr with rfl | hr
    · obtain ⟨y, hy, rfl⟩ := Option.map_eq_some_iff.mp hx
      have hid : y.id = _ := Table.key_of_find hy
      exact ⟨y, hid ▸ hy, rfl, rfl⟩
    · exact hold.rides r hr
  | detail hx =>
    refine ⟨hfits, hold.rides, fun d hd => ?_, hold.sought, hold.ordered⟩
    rcases List.mem_cons.mp hd with rfl | hd
    · have hid : d.id = _ := Table.key_of_find hx
      exact ⟨⟨d, hid ▸ hx, rfl⟩, hl.orderOf_detail hx⟩
    · exact hold.details d hd
  | sought =>
    refine ⟨hfits, hold.rides, hold.details, fun hnone p hp => ?_, hold.ordered⟩
    rcases List.mem_cons.mp hp with rfl | hp
    · rfl
    · exact hold.sought hnone p hp
  | order hx =>
    refine ⟨hfits, hold.rides, hold.details, hold.sought, fun p hp => ?_⟩
    rcases List.mem_cons.mp hp with rfl | hp
    · exact hl.orderOf_order hx
    · exact hold.ordered p hp
  | outbox =>
    refine ⟨hfits, hold.rides, hold.details, fun hnone => ?_, hold.ordered⟩
    cases hnone
  | saved => exact absurd rfl (hq _ _)
  | row => exact ⟨hfits, hold.rides, hold.details, hold.sought, hold.ordered⟩
  | rows => exact ⟨hfits, hold.rides, hold.details, hold.sought, hold.ordered⟩
  | allowed => exact ⟨hfits, hold.rides, hold.details, hold.sought, hold.ordered⟩
  | created => exact ⟨hfits, hold.rides, hold.details, hold.sought, hold.ordered⟩
  | uncreated => exact hold

/-- The call that queues a payment leaves nothing to be current but the orders. -/
theorem Trail.Current.queued (env : Environment) {d : RidePaymentDetail} {input : OutboxInput} (h : t.Current w)
    (hl : w.Ledger) (hd : t.details = []) (hop : (Call.saveDetailAndOutbox d input).Books w) :
    (t.after ⟨.saveDetailAndOutbox d input, (handle env (.saveDetailAndOutbox d input) w).1⟩).Current
      (handle env (.saveDetailAndOutbox d input) w).2 where
  fits := h.fits.reads (hop.continues env).keeps (Trail.reads env w t _)
  rides r hr := by
    obtain ⟨x, hx, hs, hf⟩ := h.rides r hr
    obtain ⟨y, hy, hs', hf'⟩ := (hop.continues env).rides _ x hx
    exact ⟨y, hy, hs'.trans hs, hf'.trans hf⟩
  details e he := by
    change e ∈ t.details at he
    rw [hd] at he
    cases he
  sought hnone := by cases hnone
  ordered p hp := (queue_orders env hl.agree hop p.2.rideId).2 _ _ (h.ordered p hp)

/-- A fare that has been printed is not rounded any more. -/
theorem roundCurrency_printed {r : Ride} {fare : ℚ} (hr : r.Printed) (hf : r.fareFinal = some fare) :
    roundCurrency (parseCurrency r.fareFinal) = fare := by
  obtain ⟨amount, rfl⟩ := hr fare hf
  have hround := mathRound_toFixed 2 amount
  norm_num at hround
  simp [hf, parseCurrency, roundCurrency, hround]

theorem buildPaymentRequestPayload_printed {r : Ride} {orderId : OrderId} {p : PaymentRequestPayload}
    (hr : r.Printed) (h : buildPaymentRequestPayload r orderId = .ok p) :
    p.orderId = orderId ∧ r.fareFinal = some p.grossAmount ∧ 0 < p.grossAmount := by
  unfold buildPaymentRequestPayload at h
  simp only at h
  split at h
  · cases h
  next hpos =>
  obtain rfl := Except.ok.inj h
  refine ⟨rfl, ?_, not_le.mp hpos⟩
  cases hf : r.fareFinal with
  | none =>
    rw [hf] at hpos
    exact absurd (by norm_num [parseCurrency, roundCurrency, mathRound]) hpos
  | some fare =>
    have hround := roundCurrency_printed hr hf
    rw [hf] at hround
    exact congrArg some hround.symm

/-- A payment books what it has read. -/
theorem RideOp.Tends.books (h : rop.Tends t op) (hrop : ∀ lop, rop ≠ .lifecycle lop) (hc : t.Current w)
    (hl : w.Ledger) : op.Books w := by
  have hid := h.identifies hc.fits
  cases rop with
  | lifecycle lop => exact absurd rfl (hrop lop)
  | proceedRidePayment rideId riderId =>
    cases op with
    | saveDetailAndOutbox d input =>
      obtain ⟨-, ho, hride, horder, ⟨r, hr, hrid, hstatus, hpayload⟩, found, hfound, hsame⟩ := h
      obtain ⟨x, hx, hs, hf⟩ := hc.rides r hr
      have hprinted : r.Printed := fun fare hfare => hl.printed x (Table.find_some.mp hx).1 fare (hf.trans hfare)
      obtain ⟨hreq, hfare, hpos⟩ := buildPaymentRequestPayload_printed hprinted hpayload
      have hsought : w.orderOf rideId = found.bind fun e => e.orderId.map fun o => (e.id, o) :=
        hc.sought ho _ hfound
      rw [← hride] at hrid hsought
      refine ⟨horder, hreq, ?_, x, hrid ▸ hx, hs.trans hstatus, hf.trans hfare, hpos⟩
      cases found with
      | none => exact .inl hsought
      | some e =>
        cases he : e.orderId with
        | none => exact .inl (by rw [hsought, Option.bind_some, he]; rfl)
        | some o =>
          obtain rfl := hsame e o rfl he
          exact .inr ⟨e.id, by rw [hsought, Option.bind_some, he]; rfl⟩
    | saveOutbox => exact hid
    | findPaymentRide | findDetailByRide | findDetail | addPaymentJob | waitPaymentJob | generateOrderId
    | updatePaymentState => trivial
    | _ => exact h.elim
  | processOutbox outboxId startedAt endedAt =>
    cases op with
    | saveDetail d =>
      obtain ⟨d', hd', y, hy, hride, hrow, horder⟩ := h
      obtain ⟨⟨e, he, her⟩, hord⟩ := hc.details d' hd'
      obtain ⟨x, hx, hxy⟩ := hc.fits.outbox y hy
      obtain ⟨hbooked, -⟩ := (hl.agree x.rideId).outbox x (Table.find_some.mp hx).1 rfl
      obtain ⟨g, hg, hgid, -⟩ := orderOf_some.mp hbooked
      obtain ⟨hgm, hgr⟩ := mem_of_findDetailByRide hg
      have hsame : w.details.find d'.id = some g :=
        Table.find_some.mpr ⟨hgm, hgid.trans (hxy.paymentDetailId.trans hrow)⟩
      obtain rfl := Option.some.inj (he.symm.trans hsame)
      have hown : w.orderOf d'.rideId = some (d'.id, y.orderId) := by
        rw [← her, hgr, hbooked, hxy.paymentDetailId, hrow, hxy.orderId]
      have hknown : d'.orderId = some y.orderId := by
        obtain ⟨o, ho, hpair⟩ := Option.map_eq_some_iff.mp (hord.symm.trans hown)
        rw [ho, (Prod.mk.inj hpair).2]
      refine ⟨d'.id, y.orderId, hride ▸ hown, ?_⟩
      rcases horder with ho | ho
      · exact ho.trans hknown
      · exact ho
    | saveOutbox => exact hid
    | findOutbox | findDetail | post | takePaymentJob | finishPaymentJob => trivial
    | _ => exact h.elim
  | handlePaymentNotification payload sourceIp now =>
    cases op with
    | saveDetailWithRideUpdate d u x now =>
      obtain ⟨-, orderId, found, -, hfound, hride, horder, -⟩ := h
      exact ⟨found.id, orderId, hride ▸ hc.ordered _ hfound, horder⟩
    | isIpAllowed | findDetailByOrder | findRide | emit => trivial
    | _ => exact h.elim

end Current

section Payments

variable {env : Environment} {w v : World} {t : Trail} {rop : RideOp} {op : Call} {α : Type}

/-- The operation is not one of the lifecycle. -/
def RideOp.Pays (rop : RideOp) : Prop := ∀ lop, rop ≠ .lifecycle lop

/-- The ledger goes on from `w` to `w'` with the orders that it had. -/
structure World.Serves (w w' : World) : Prop where
  ledger : w'.Ledger
  continues : w.Continues w'
  orders : ∀ k, w'.orderOf k = w.orderOf k

theorem World.Serves.refl (h : w.Ledger) : w.Serves w where
  ledger := h
  continues := ⟨.of_eq rfl rfl rfl, fun _ r hr => ⟨r, hr, rfl, rfl⟩⟩
  orders _ := rfl

theorem World.Serves.trans {u : World} (h : w.Serves v) (h' : v.Serves u) : w.Serves u where
  ledger := h'.ledger
  continues := h.continues.trans h'.continues
  orders k := (h'.orders k).trans (h.orders k)

/-- A payment begun in `w` has come to trail `t` and store `v`. -/
structure RideOp.Paying (rop : RideOp) (w : World) (t : Trail) (v : World) : Prop where
  current : t.Current v
  ledger : v.Ledger
  continues : w.Continues v
  orders : (∀ rideId riderId, rop ≠ .proceedRidePayment rideId riderId) → ∀ k, v.orderOf k = w.orderOf k

theorem RideOp.Paying.served {u : World} (h : rop.Paying w t v) (hu : v.Serves u) : rop.Paying w t u where
  current := h.current.kept hu.continues hu.orders
  ledger := hu.ledger
  continues := h.continues.trans hu.continues
  orders hrop k := (hu.orders k).trans (h.orders hrop k)

theorem RideOp.Paying.step (h : rop.Paying w t v) (hrop : rop.Pays) (htends : rop.Tends t op) :
    rop.Paying w (t.after ⟨op, (handle env op v).1⟩) (handle env op v).2 := by
  have hop := htends.books hrop h.current h.ledger
  by_cases hq : ∃ d input, op = .saveDetailAndOutbox d input
  · obtain ⟨d, input, rfl⟩ := hq
    cases rop with
    | lifecycle lop => exact absurd rfl (hrop lop)
    | proceedRidePayment rideId riderId =>
      refine ⟨h.current.queued env h.ledger htends.1 hop, h.ledger.books env hop,
        h.continues.trans (hop.continues env), fun hno => absurd rfl (hno rideId riderId)⟩
    | processOutbox => exact htends.elim
    | handlePaymentNotification => exact htends.elim
  · have hq (d : RidePaymentDetail) (input : OutboxInput) : op ≠ .saveDetailAndOutbox d input :=
      fun he => hq ⟨d, input, he⟩
    refine ⟨h.current.reads env h.ledger hop hq (Trail.reads env v t op), h.ledger.books env hop,
      h.continues.trans (hop.continues env), fun hno k => ?_⟩
    exact (hop.orders env h.ledger.agree hq k).2.trans (h.orders hno k)

/-- A payment keeps the ledger, whatever of the kind is done before its calls. -/
theorem RideOp.Pays.run {p : Service α} (hrop : rop.Pays) (hp : Tracks env rop.Tends .empty p) (work : Call → World → World)
    (hwork : ∀ op (v : World), v.Ledger → v.Serves (work op v)) (hl : w.Ledger) :
    ∃ t, rop.Paying w t (p.run (fun op v => handle env op (work op v)) w).2 := by
  have hself := World.Serves.refl hl
  have hstart : rop.Paying w .empty w := ⟨Trail.current_empty w, hl, hself.continues, fun _ _ => rfl⟩
  obtain ⟨t, -, hend⟩ := hp.run_amid work (fun _ _ _ => trivial)
    (fun t op v t' h hm => hm.1 ▸ h.step hrop hm.2) (fun t op v h => h.served (hwork op v h.ledger)) hstart
  exact ⟨t, hend⟩

/-- One delivery of a job of the queue. -/
def World.work (env : Environment) (w : World) (job : Id × JobDelivery) : World :=
  ((deliverPaymentJob env job.1 job.2.startedAt job.2.endedAt).run (handle env) w).2

theorem serves_work (hl : w.Ledger) (job : Id × JobDelivery) : w.Serves (w.work env job) := by
  obtain ⟨outboxId, startedAt, endedAt⟩ := job
  have hrop : (RideOp.processOutbox outboxId startedAt endedAt).Pays := by
    rintro lop ⟨⟩
  have hp : Tracks env (RideOp.processOutbox outboxId startedAt endedAt).Tends .empty
      (deliverPaymentJob env outboxId startedAt endedAt) := tracks_deliverPaymentJob
  obtain ⟨t, h⟩ := hrop.run hp (fun _ v => v) (fun _ _ h => .refl h) hl
  refine ⟨h.ledger, h.continues, h.orders ?_⟩
  rintro rideId riderId ⟨⟩

theorem serves_jobs (hl : w.Ledger) (jobs : List (Id × JobDelivery)) :
    w.Serves (jobs.foldl (World.work env) w) := by
  induction jobs generalizing w with
  | nil => exact .refl hl
  | cons job jobs ih =>
    have hfirst : w.Serves (w.work env job) := serves_work hl job
    exact hfirst.trans (ih hfirst.ledger)

end Payments

section Lifecycle

variable {env : Environment} {w : World} {rid : Id} {r : Ride}

/-- The program changes nothing. -/
def Rests {α : Type} (env : Environment) (w : World) (p : Service α) : Prop := (p.run (handle env) w).2 = w

theorem Rests.bind {α β : Type} {p : Service α} {f : α → Service β} (hp : Rests env w p)
    (hf : ∀ a, Rests env w (f a)) : Rests env w (p >>= f) := by
  unfold Rests at hp ⊢
  rw [Program.run_bind]
  generalize p.run (handle env) w = reply at hp
  obtain ⟨a | a, v⟩ := reply
  · exact hp
  · obtain rfl : v = w := hp
    exact hf a

theorem rests_findById {α : Type} {f : Option Ride → Service α} (hr : w.rides.find rid = some r)
    (hf : Rests env w (f (some r))) : Rests env w (findById rid >>= f) := by
  unfold Rests
  rw [Program.run_bind_ok _ (run_findById env rid w), hr]
  exact hf

theorem rests_access (requester : RequestingClient) : Rests env w (ensureRequesterCanAccessRide r requester) := by
  unfold ensureRequesterCanAccessRide
  rcases requester with ⟨_ | id, _ | _ | _⟩ <;> simp only <;> first | rfl | (split <;> rfl)

/-- On a finished ride the operations of the lifecycle change nothing. -/
theorem rests_terminal {lop : LifecycleOp} (hr : w.rides.find rid = some r) (hs : r.status.Terminal)
    (hop : lop.ride = some rid) : Rests env w (lop.program env) := by
  cases lop with
  | createRide => cases hop
  | acceptRideByDriver rideId d now =>
    obtain rfl := Option.some.inj hop
    refine Rests.bind ?_ fun _ => rfl
    unfold acceptRideByDriver
    apply rests_findById hr
    rcases hs with hs | hs <;> simp only [hs, ↓Program.throw_seq] <;> rfl
  | rejectRideByDriver rideId d reason now =>
    obtain rfl := Option.some.inj hop
    refine Rests.bind ?_ fun _ => rfl
    unfold rejectRideByDriver
    apply rests_findById hr
    rcases hs with hs | hs <;> simp only [hs, ↓Program.throw_seq] <;> rfl
  | confirmDriverAcceptance rideId riderId now =>
    obtain rfl := Option.some.inj hop
    refine Rests.bind ?_ fun _ => rfl
    unfold confirmDriverAcceptance
    apply rests_findById hr
    simp only [↓Program.throw_seq]
    split
    · rfl
    split
    · rcases hs with hs | hs <;> simp only [hs] <;> rfl
    · rfl
  | rejectDriverAcceptance rideId riderId reason now =>
    obtain rfl := Option.some.inj hop
    refine Rests.bind ?_ fun _ => rfl
    unfold rejectDriverAcceptance
    apply rests_findById hr
    simp only [↓Program.throw_seq]
    split
    · rfl
    split
    · rcases hs with hs | hs <;> simp only [hs] <;> rfl
    · rfl
  | cancelRide rideId requester reason now =>
    obtain rfl := Option.some.inj hop
    refine Rests.bind ?_ fun _ => rfl
    unfold cancelRide
    apply rests_findById hr
    simp only [↓Program.throw_seq]
    split
    · rfl
    · rcases hs with hs | hs <;> simp only [hs] <;> rfl
  | startRide rideId driverId location =>
    obtain rfl := Option.some.inj hop
    refine Rests.bind ?_ fun _ => rfl
    unfold startRide
    cases driverId with
    | none => rfl
    | some d =>
      apply rests_findById hr
      simp only [↓Program.throw_seq]
      split
      · rfl
      · rcases hs with hs | hs <;> simp only [hs] <;> rfl
  | completeRide rideId requester location discount =>
    obtain rfl := Option.some.inj hop
    refine Rests.bind ?_ fun _ => rfl
    unfold completeRide
    cases requester.id with
    | none => rfl
    | some d =>
      apply rests_findById hr
      simp only [↓Program.throw_seq]
      split
      · rfl
      · rcases hs with hs | hs <;> simp only [hs] <;> rfl
  | recordTripLocation rideId requester location =>
    obtain rfl := Option.some.inj hop
    change Rests env w (recordTripLocation rideId requester location)
    unfold recordTripLocation
    cases requester.id with
    | none => rfl
    | some d =>
      apply rests_findById hr
      refine (rests_access requester).bind fun _ => ?_
      rcases hs with hs | hs <;> simp only [hs, ↓Program.throw_seq] <;> rfl

variable (env) in
/-- The operations of the lifecycle leave the tables of the payments, and print their fares. -/
theorem lifecycle_run (lop : LifecycleOp) (h : ∀ r ∈ w.rides.rows, r.Printed) :
    (∀ r ∈ ((RideOp.lifecycle lop).step env w).rides.rows, r.Printed) ∧
      ((RideOp.lifecycle lop).step env w).details = w.details ∧
      ((RideOp.lifecycle lop).step env w).outbox = w.outbox := by
  have hstart : (∀ r ∈ Trail.empty.rides, r.Printed) ∧ (∀ r ∈ w.rides.rows, r.Printed) ∧
      w.details = w.details ∧ w.outbox = w.outbox := by
    refine ⟨fun r hr => ?_, h, rfl, rfl⟩
    cases hr
  have hmove (t : Trail) (op : Call) (v : World) (t' : Trail)
      (hv : (∀ r ∈ t.rides, r.Printed) ∧ (∀ r ∈ v.rides.rows, r.Printed) ∧ v.details = w.details ∧ v.outbox = w.outbox)
      (hm : (trailOutline env lop.Tends).move t op v t') :
      (∀ r ∈ t'.rides, r.Printed) ∧ (∀ r ∈ (handle env op v).2.rides.rows, r.Printed) ∧
        (handle env op v).2.details = w.details ∧ (handle env op v).2.outbox = w.outbox := by
    obtain ⟨rfl, htends⟩ := hm
    obtain ⟨hread, hprinted, hd, ho⟩ := hv
    have htables : (handle env op v).2.details = v.details ∧ (handle env op v).2.outbox = v.outbox := by
      apply payments_handle env
      · rintro d rfl
        exact (LifecycleOp.attends_some htends).elim fun _ ha => ha.elim
      · rintro d u x now rfl
        exact (LifecycleOp.attends_some htends).elim fun _ ha => ha.elim
      · rintro d input rfl
        exact (LifecycleOp.attends_some htends).elim fun _ ha => ha.elim
      · rintro x rfl
        exact (LifecycleOp.attends_some htends).elim fun _ ha => ha.elim
    refine ⟨fun r hr => ?_, ?_, htables.1.trans hd, htables.2.trans ho⟩
    · generalize ht : t.after ⟨op, (handle env op v).1⟩ = t' at hr
      have hreads := Trail.reads env v t op
      rw [ht] at hreads
      cases hreads with
      | ride hx =>
        rcases List.mem_cons.mp hr with rfl | hr
        · exact hprinted r (Table.find_some.mp hx).1
        · exact hread r hr
      | paymentRide hx =>
        rcases List.mem_cons.mp hr with rfl | hr
        · obtain ⟨y, hy, rfl⟩ := Option.map_eq_some_iff.mp hx
          exact hprinted y (Table.find_some.mp hy).1
        · exact hread r hr
      | _ => exact hread r hr
    · apply printed_handle env hprinted
      rintro m rfl fare hfare
      obtain ⟨x, hx, hsame⟩ | hnew := htends.2.2 fare hfare
      · exact hread x hx fare hsame
      · exact hnew
  obtain ⟨t, -, -, hend⟩ := (lop.trails env).run_keeps (fun _ _ _ => trivial) hmove hstart
  exact hend

theorem World.Ledger.tied (h : w.Ledger) : w.Tied := by
  intro k x hx
  obtain ⟨hord, -⟩ := (h.agree x.rideId).outbox x (Table.find_some.mp hx).1 rfl
  obtain ⟨d, hd, hid, -⟩ := orderOf_some.mp hord
  obtain ⟨hm, hr⟩ := mem_of_findDetailByRide hd
  exact ⟨d, Table.find_some.mpr ⟨hm, hid⟩, hr⟩

/-- A ride that has been billed is left alone by the lifecycle. -/
theorem billed_step (hl : w.Ledger) (lop : LifecycleOp) {x : PaymentOutbox} (hx : x ∈ w.outbox.rows) :
    ((RideOp.lifecycle lop).step env w).rides.find x.rideId = w.rides.find x.rideId := by
  obtain ⟨r, hr, hs, -⟩ := hl.billed x hx
  by_cases hown : lop.ride = some x.rideId
  · have hrests : (RideOp.lifecycle lop).step env w = w := rests_terminal hr (.inl hs) hown
    rw [hrests]
  · have hother : (RideOp.lifecycle lop).ride w ≠ some x.rideId := by
      cases hride : lop.ride with
      | some j =>
        rw [hride] at hown
        simpa [RideOp.ride, hride] using hown
      | none =>
        intro he
        have hkey : w.rides.nextKey = x.rideId := by simpa [RideOp.ride, hride] using he
        rw [← hkey, Table.find_nextKey] at hr
        cases hr
    exact congrArg RideRecord.ride ((RideOp.lifecycle lop).recordOf_step env hl.tied hother)

end Lifecycle

section Runs

variable {env : Environment} {w v : World}

/-- The outbox rows of `w` are in `w'`, and their rides have the fare that they had. -/
structure World.Binds (w w' : World) : Prop where
  outbox : ∀ x ∈ w.outbox.rows, ∃ y ∈ w'.outbox.rows, y.ComesFrom x
  fares : ∀ x ∈ w.outbox.rows, ∀ r, w.rides.find x.rideId = some r →
    ∃ r', w'.rides.find x.rideId = some r' ∧ r'.fareFinal = r.fareFinal

theorem World.Binds.refl (w : World) : w.Binds w where
  outbox x hx := ⟨x, hx, .refl x⟩
  fares _ _ r hr := ⟨r, hr, rfl⟩

theorem World.Binds.trans {u : World} (h : w.Binds v) (h' : v.Binds u) : w.Binds u where
  outbox x hx := by
    obtain ⟨y, hy, hyx⟩ := h.outbox x hx
    obtain ⟨z, hz, hzy⟩ := h'.outbox y hy
    exact ⟨z, hz, hzy.trans hyx⟩
  fares x hx r hr := by
    obtain ⟨y, hy, hyx⟩ := h.outbox x hx
    obtain ⟨r', hr', hf⟩ := h.fares x hx r hr
    rw [← hyx.rideId] at hr' ⊢
    obtain ⟨r'', hr'', hf'⟩ := h'.fares y hy r' hr'
    exact ⟨r'', hr'', hf'.trans hf⟩

theorem World.Continues.binds (h : w.Continues v) : w.Binds v where
  outbox x hx := by
    obtain ⟨y, hy, hyx⟩ := h.keeps.outbox x.id x (Table.find_some.mpr ⟨hx, rfl⟩)
    exact ⟨y, (Table.find_some.mp hy).1, hyx⟩
  fares x _ r hr := by
    obtain ⟨r', hr', -, hf⟩ := h.rides _ r hr
    exact ⟨r', hr', hf⟩

/-- An operation of a sequential run: one that runs alone, or the payment of a ride for
which the queue works while it waits. -/
inductive Turn where
  | alone (op : RideOp)
  | served (rideId riderId : Id) (jobs : List (Id × JobDelivery))

/-- What is done before a call of a payment: while it waits for its job, the jobs. -/
def workBefore (env : Environment) (jobs : List (Id × JobDelivery)) : Call → World → World
  | .waitPaymentJob _, w => jobs.foldl (World.work env) w
  | _, w => w

def Turn.step (env : Environment) (w : World) : Turn → World
  | alone op => op.step env w
  | served rideId riderId jobs =>
    ((proceedRidePayment env rideId riderId).run (fun op v => handle env op (workBefore env jobs op v)) w).2

def World.afterTurns (env : Environment) (w : World) (turns : List Turn) : World := turns.foldl (Turn.step env) w

theorem serves_workBefore (jobs : List (Id × JobDelivery)) (op : Call) (hl : w.Ledger) :
    w.Serves (workBefore env jobs op w) := by
  cases op with
  | waitPaymentJob => exact serves_jobs hl jobs
  | _ => exact .refl hl

variable (env) in
theorem Turn.ledger (hl : w.Ledger) (turn : Turn) : (turn.step env w).Ledger ∧ w.Binds (turn.step env w) := by
  have halone (rop : RideOp) (hrop : rop.Pays) : (rop.step env w).Ledger ∧ w.Binds (rop.step env w) := by
    obtain ⟨t, h⟩ := hrop.run (rop.tracks env) (fun _ v => v) (fun _ _ h => .refl h) hl
    exact ⟨h.ledger, h.continues.binds⟩
  cases turn with
  | alone op =>
    cases op with
    | lifecycle lop =>
      obtain ⟨hprinted, hd, ho⟩ := lifecycle_run env lop hl.printed
      have hrows : ∀ x ∈ ((RideOp.lifecycle lop).step env w).outbox.rows, ∃ y ∈ w.outbox.rows, x.ComesFrom y :=
        fun x hx => ⟨x, ho ▸ hx, .refl x⟩
      refine ⟨⟨hprinted, fun k => (hl.agree k).rows hd hrows, fun x hx => ?_⟩, ⟨fun x hx => ?_, fun x hx r hr => ?_⟩⟩
      · change x ∈ ((RideOp.lifecycle lop).step env w).outbox.rows at hx
        rw [ho] at hx
        change ∃ r, ((RideOp.lifecycle lop).step env w).rides.find x.rideId = some r ∧ _
        rw [billed_step hl lop hx]
        exact hl.billed x hx
      · exact ⟨x, ho ▸ hx, .refl x⟩
      · exact ⟨r, (billed_step hl lop hx).trans hr, rfl⟩
    | proceedRidePayment => exact halone _ (by rintro lop ⟨⟩)
    | processOutbox => exact halone _ (by rintro lop ⟨⟩)
    | handlePaymentNotification => exact halone _ (by rintro lop ⟨⟩)
  | served rideId riderId jobs =>
    have hrop : (RideOp.proceedRidePayment rideId riderId).Pays := by
      rintro lop ⟨⟩
    have hp : Tracks env (RideOp.proceedRidePayment rideId riderId).Tends .empty
        (proceedRidePayment env rideId riderId) := tracks_proceedRidePayment rfl rfl
    obtain ⟨t, h⟩ := hrop.run hp (workBefore env jobs) (fun op v hv => serves_workBefore jobs op hv) hl
    exact ⟨h.ledger, h.continues.binds⟩

variable (env) in
theorem ledger_after (hl : w.Ledger) (turns : List Turn) :
    (w.afterTurns env turns).Ledger ∧ w.Binds (w.afterTurns env turns) := by
  induction turns generalizing w with
  | nil => exact ⟨hl, .refl w⟩
  | cons turn turns ih =>
    obtain ⟨hfirst, hbinds⟩ := turn.ledger env hl
    obtain ⟨hrest, hbinds'⟩ := ih hfirst
    exact ⟨hrest, hbinds.trans hbinds'⟩

theorem ledger_initial (whitelist : List String) : (World.initial whitelist).Ledger where
  printed r hr := by cases hr
  agree _ := ⟨fun d hd => (by cases hd), fun x hx => (by cases hx)⟩
  billed x hx := by cases hx

/-- Every outbox row bills a completed ride. -/
def World.Billed (w : World) : Prop := ∀ x ∈ w.outbox.rows, ∃ r d, w.Bills x r d

/-- After any sequential run every request for a payment bills its ride, and no later run
changes the fare of the ride. -/
theorem payments_billed (env : Environment) (whitelist : List String) (turns later : List Turn) :
    ((World.initial whitelist).afterTurns env turns).Billed ∧
      ((World.initial whitelist).afterTurns env turns).Binds
        ((World.initial whitelist).afterTurns env (turns ++ later)) := by
  obtain ⟨hledger, -⟩ := ledger_after env (ledger_initial whitelist) turns
  refine ⟨fun x hx => hledger.bills hx, ?_⟩
  have hsplit : (World.initial whitelist).afterTurns env (turns ++ later) =
      ((World.initial whitelist).afterTurns env turns).afterTurns env later := List.foldl_append ..
  rw [hsplit]
  exact (ledger_after env hledger later).2

/-- The queue posts the request while the payment of the completed ride waits. -/
def paidTurns : List Turn :=
  (completedRun.map fun op => .alone (.lifecycle op)) ++ [.served 1 1 [(1, ⟨5, 6⟩)]]

example : ((World.initial []).afterTurns (.around [7, 8]) paidTurns).outbox.rows.map
    (fun x => (x.status, x.requestPayload.grossAmount)) = [(.completed, 4000)] := by decide +kernel

end Runs

end NebLite
