import NebLite.Payment.PaidRides

/-! The order identifiers that are posted to the payment gateway for one ride,
under concurrent payments of the ride and the work of the payment queue. -/

namespace NebLite

open Atomic

/-- The payment detail of a ride and its order, once there is one. -/
def World.orderOf (w : World) (rid : Id) : Option (Id × OrderId) :=
  (w.findDetailByRide rid).bind fun d => d.orderId.map fun o => (d.id, o)

/-- A ride has one payment detail at most. -/
def World.DetailUnique (w : World) (rid : Id) : Prop :=
  ∀ d ∈ w.details.rows, d.rideId = rid → w.findDetailByRide rid = some d

/-- The outbox rows of a ride carry the order of its payment detail. -/
structure World.PaymentsAgree (w : World) (rid : Id) : Prop where
  unique : w.DetailUnique rid
  outbox : ∀ x ∈ w.outbox.rows, x.rideId = rid →
    w.orderOf rid = some (x.paymentDetailId, x.orderId) ∧ x.requestPayload.orderId = x.orderId

variable {w w' : World} {rid : Id}

theorem mem_of_findDetailByRide {d : RidePaymentDetail} (h : w.findDetailByRide rid = some d) :
    d ∈ w.details.rows ∧ d.rideId = rid :=
  ⟨List.mem_of_find?_eq_some h, by simpa using List.find?_some h⟩

theorem orderOf_some {k : Id} {o : OrderId} : w.orderOf rid = some (k, o) ↔
    ∃ d, w.findDetailByRide rid = some d ∧ d.id = k ∧ d.orderId = some o := by
  constructor
  · intro h
    obtain ⟨d, hd, ho⟩ := Option.bind_eq_some_iff.mp h
    obtain ⟨o', ho', he⟩ := Option.map_eq_some_iff.mp ho
    obtain ⟨rfl, rfl⟩ := Prod.mk.inj he
    exact ⟨d, hd, rfl, ho'⟩
  · rintro ⟨d, hd, rfl, ho⟩
    simp [World.orderOf, hd, ho]

/-- When the rows of the ride are one row, that row is found. -/
theorem findDetailByRide_eq {d : RidePaymentDetail} (hm : d ∈ w.details.rows) (hd : d.rideId = rid)
    (hall : ∀ x ∈ w.details.rows, x.rideId = rid → x = d) : w.findDetailByRide rid = some d := by
  cases hf : w.findDetailByRide rid with
  | none =>
    have hn := List.find?_eq_none.mp hf d hm
    simp [hd] at hn
  | some x =>
    obtain ⟨hx, hxr⟩ := mem_of_findDetailByRide hf
    rw [hall x hx hxr]

theorem persistDetail_outbox (d : RidePaymentDetail) : (w.persistDetail d).2.outbox = w.outbox := by
  unfold World.persistDetail
  split <;> rfl

/-- After `persistDetail` the ride's only detail is the one that was handed in,
under the key it had before. -/
theorem persistDetail_spec (hu : w.DetailUnique rid) {d : RidePaymentDetail} (hd : d.rideId = rid) :
    ∃ k, (w.persistDetail d).1 = { d with id := k } ∧
      (w.persistDetail d).2.findDetailByRide rid = some { d with id := k } ∧
      (w.persistDetail d).2.DetailUnique rid ∧ ∀ x, w.findDetailByRide rid = some x → k = x.id := by
  subst hd
  have finish {v : World} {k : Id} (hm : { d with id := k } ∈ v.details.rows)
      (hall : ∀ x ∈ v.details.rows, x.rideId = d.rideId → x = { d with id := k }) :
      v.findDetailByRide d.rideId = some { d with id := k } ∧ v.DetailUnique d.rideId := by
    have hf := findDetailByRide_eq hm rfl hall
    exact ⟨hf, fun x hx hr => hf.trans (congrArg some (hall x hx hr).symm)⟩
  unfold World.persistDetail
  cases hf : w.findDetailByRide d.rideId with
  | some s =>
    obtain ⟨hs, hsr⟩ := mem_of_findDetailByRide hf
    obtain ⟨h1, h2⟩ := finish (v := { w with details := w.details.put { d with id := s.id } })
      (Table.mem_put.mpr (.inl ⟨rfl, s, hs, rfl⟩)) fun x hx hr => by
        rcases Table.mem_put.mp hx with ⟨rfl, -⟩ | ⟨hx, hne⟩
        · rfl
        · have hxs := hu x hx hr
          rw [hf, Option.some.injEq] at hxs
          exact absurd (by rw [hxs]; rfl) hne
    exact ⟨s.id, rfl, h1, h2, fun x hx => by rw [Option.some.inj hx]⟩
  | none =>
    obtain ⟨h1, h2⟩ := finish
      (v := { w with details := w.details.insert (fun k => { d with id := k }) fun _ => rfl })
      (k := w.details.nextKey) (Table.mem_insert.mpr (.inr rfl)) fun x hx hr => by
        rcases Table.mem_insert.mp hx with hx | rfl
        · have hxs := hu x hx hr
          rw [hf] at hxs
          cases hxs
        · rfl
    exact ⟨_, rfl, h1, h2, fun x hx => by cases hx⟩

/-- What a process knows of the ride's order. -/
inductive PayPhase where
  | idle
  | generated (orderId : OrderId)
  | knows (detailId : Id) (orderId : OrderId)

def PayPhase.Holds (rid : Id) (w : World) : PayPhase → Prop
  | .knows k o => w.orderOf rid = some (k, o)
  | _ => True

/-- Calls that leave details and outbox alone, post nothing and generate no order. -/
def Call.PayQuiet : Call → Prop
  | .findPaymentRide _ | .findDetailByRide _ | .findDetail _ | .findOutbox _ | .addPaymentJob _ _
  | .waitPaymentJob _ | .takePaymentJob _ | .finishPaymentJob _ _ | .updatePaymentState _ _ _ => True
  | _ => False

/-- The calls that a process makes in each phase, and the phase after them. -/
inductive PayMove (rid : Id) (w : World) : PayPhase → Call → PayPhase → Prop
  | quiet {l op} : op.PayQuiet → PayMove rid w l op l
  | learn {op k o} : op.PayQuiet → w.orderOf rid = some (k, o) → PayMove rid w .idle op (.knows k o)
  | generate {o} : PayMove rid w .idle .generateOrderId (.generated o)
  | enqueue {l d input} : d.rideId = rid → d.orderId = some input.orderId →
      input.requestPayload.orderId = input.orderId →
      (l = .generated input.orderId ∨ ∃ k, l = .knows k input.orderId) →
      PayMove rid w l (.saveDetailAndOutbox d input) (.knows (w.persistDetail d).1.id input.orderId)
  | saveDetail {k o d} : d.rideId = rid → d.orderId = some o →
      PayMove rid w (.knows k o) (.saveDetail d) (.knows k o)
  | saveOutbox {k x} : x.rideId = rid → x.paymentDetailId = k →
      x.requestPayload.orderId = x.orderId →
      PayMove rid w (.knows k x.orderId) (.saveOutbox x) (.knows k x.orderId)
  | post {k p} : PayMove rid w (.knows k p.orderId) (.post p) (.knows k p.orderId)

/-- What a call leaves of the ride's payment. -/
structure PaymentKept (rid : Id) (l : PayPhase) (w w' : World) : Prop where
  agree : w'.PaymentsAgree rid
  keeps : ∀ k o, w.orderOf rid = some (k, o) → w'.orderOf rid = some (k, o)
  phase : l.Holds rid w'
  outbox : ∀ x ∈ w'.outbox.rows, x.rideId = rid ∨ ∃ y ∈ w.outbox.rows, y.id = x.id ∧ y.rideId = x.rideId

theorem orderOf_congr (h : w'.details = w.details) : w'.orderOf rid = w.orderOf rid := by
  simp only [World.orderOf, World.findDetailByRide, h]

theorem paymentKept_tables {l : PayPhase} (ha : w.PaymentsAgree rid) (hl : l.Holds rid w)
    (hd : w'.details = w.details) (ho : w'.outbox = w.outbox) : PaymentKept rid l w w' where
  agree := ⟨fun d hm hr => by simpa only [World.findDetailByRide, hd] using ha.unique d (hd ▸ hm) hr,
    fun x hx hr => by rw [orderOf_congr hd]; exact ha.outbox x (ho ▸ hx) hr⟩
  keeps k o h := by rw [orderOf_congr hd, h]
  phase := by
    cases l with
    | knows k o =>
      rw [PayPhase.Holds, orderOf_congr hd]
      exact hl
    | _ => trivial
  outbox x hx := .inr ⟨x, ho ▸ hx, rfl, rfl⟩

/-- The ride's detail is written with the order that it has, or with its first. -/
theorem persistDetail_kept (ha : w.PaymentsAgree rid) {d : RidePaymentDetail} {o : OrderId}
    (hd : d.rideId = rid) (ho : d.orderId = some o)
    (hw : w.orderOf rid = none ∨ ∃ k, w.orderOf rid = some (k, o)) :
    (w.persistDetail d).1.rideId = rid ∧
      PaymentKept rid (.knows (w.persistDetail d).1.id o) w (w.persistDetail d).2 := by
  obtain ⟨k, h1, h2, h3, h4⟩ := persistDetail_spec ha.unique hd
  have hnew : (w.persistDetail d).2.orderOf rid = some (k, o) := orderOf_some.mpr ⟨_, h2, rfl, ho⟩
  have hkeeps (k' : Id) (o' : OrderId) (h : w.orderOf rid = some (k', o')) :
      (w.persistDetail d).2.orderOf rid = some (k', o') := by
    obtain ⟨x, hx, rfl, -⟩ := orderOf_some.mp h
    rcases hw with hw | ⟨k'', hw⟩
    · rw [hw] at h
      cases h
    · rw [hw, Option.some.injEq, Prod.mk.injEq] at h
      rw [hnew, h4 x hx, h.2]
  refine ⟨by rw [h1]; exact hd, ⟨h3, fun x hx hr => ?_⟩, hkeeps, ?_, fun x hx => ?_⟩
  · rw [persistDetail_outbox] at hx
    obtain ⟨hord, hpay⟩ := ha.outbox x hx hr
    exact ⟨hkeeps _ _ hord, hpay⟩
  · rw [PayPhase.Holds, hnew, h1]
  · rw [persistDetail_outbox] at hx
    exact .inr ⟨x, hx, rfl, rfl⟩

theorem Call.PayQuiet.tables (env : Environment) {op : Call} (h : op.PayQuiet) (w : World) :
    (handle env op w).2.details = w.details ∧ (handle env op w).2.outbox = w.outbox := by
  cases op with
  | updatePaymentState rideId s url =>
    simp only [handle, World.updatePaymentState]
    split <;> exact ⟨rfl, rfl⟩
  | takePaymentJob id =>
    simp only [handle, World.takePaymentJob]
    split
    · split <;> exact ⟨rfl, rfl⟩
    · exact ⟨rfl, rfl⟩
  | finishPaymentJob id ok =>
    simp only [handle, World.finishPaymentJob]
    split <;> exact ⟨rfl, rfl⟩
  | findPaymentRide | findDetailByRide | findDetail | findOutbox | addPaymentJob | waitPaymentJob =>
    exact ⟨rfl, rfl⟩
  | _ => exact h.elim

/-- The outbox row of a ride is written back under its key. -/
theorem saveOutbox_kept (ha : w.PaymentsAgree rid) {x : PaymentOutbox} (hr : x.rideId = rid)
    (hp : x.requestPayload.orderId = x.orderId)
    (hx : w.orderOf rid = some (x.paymentDetailId, x.orderId)) :
    PaymentKept rid (.knows x.paymentDetailId x.orderId) w (w.saveOutbox x) := by
  have hd : (w.saveOutbox x).details = w.details := rfl
  refine ⟨⟨ha.unique, fun y hy hyr => ?_⟩, fun k o h => by rw [orderOf_congr hd, h], ?_, fun y hy => ?_⟩
  · rw [orderOf_congr hd]
    rcases Table.mem_upsert hy with hm | rfl | ⟨z, hz, -, rfl⟩
    · exact ha.outbox y hm hyr
    · exact ⟨hx, hp⟩
    · obtain ⟨hord, -⟩ := ha.outbox z hz hyr
      refine ⟨hord, ?_⟩
      rw [hx, Option.some.injEq, Prod.mk.injEq] at hord
      exact hp.trans hord.2
  · rw [PayPhase.Holds, orderOf_congr hd, hx]
  · rcases Table.mem_upsert hy with hm | rfl | ⟨z, hz, -, rfl⟩
    · exact .inr ⟨y, hm, rfl, rfl⟩
    · exact .inl hr
    · exact .inr ⟨z, hz, rfl, rfl⟩

/-- The transaction that queues a payment writes the detail and adds its outbox row. -/
theorem saveDetailAndOutbox_kept (ha : w.PaymentsAgree rid) {d : RidePaymentDetail} {input : OutboxInput}
    (hd : d.rideId = rid) (ho : d.orderId = some input.orderId)
    (hp : input.requestPayload.orderId = input.orderId)
    (hw : w.orderOf rid = none ∨ ∃ k, w.orderOf rid = some (k, input.orderId)) :
    PaymentKept rid (.knows (w.persistDetail d).1.id input.orderId) w
      (w.saveDetailAndOutbox d input).2 := by
  obtain ⟨hr, h⟩ := persistDetail_kept ha hd ho hw
  have hdet : (w.saveDetailAndOutbox d input).2.details = (w.persistDetail d).2.details := rfl
  have hrows (x : PaymentOutbox) (hx : x ∈ (w.saveDetailAndOutbox d input).2.outbox.rows) :
      x ∈ (w.persistDetail d).2.outbox.rows ∨ x.rideId = rid ∧
        x.paymentDetailId = (w.persistDetail d).1.id ∧ x.orderId = input.orderId ∧
        x.requestPayload = input.requestPayload := by
    rcases Table.mem_insert.mp hx with hx | rfl
    · exact .inl hx
    · exact .inr ⟨hr, rfl, rfl, rfl⟩
  refine ⟨⟨h.agree.unique, fun x hx hxr => ?_⟩, fun k o hk => ?_, ?_, fun x hx => ?_⟩
  · rw [orderOf_congr hdet]
    rcases hrows x hx with hx | ⟨-, h1, h2, h3⟩
    · exact h.agree.outbox x hx hxr
    · rw [h1, h2, h3]
      exact ⟨h.phase, hp⟩
  · rw [orderOf_congr hdet]
    exact h.keeps k o hk
  · rw [PayPhase.Holds, orderOf_congr hdet]
    exact h.phase
  · rcases hrows x hx with hx | ⟨h1, -⟩
    · exact h.outbox x hx
    · exact .inl h1

/-- Every move keeps the ride's payment in order, when a generated order is not
saved over another. -/
theorem PayMove.kept (env : Environment) {l l' : PayPhase} {op : Call} (h : PayMove rid w l op l')
    (ha : w.PaymentsAgree rid) (hl : l.Holds rid w)
    (hok : ∀ o d input, l = .generated o → op = .saveDetailAndOutbox d input → w.orderOf rid = none) :
    PaymentKept rid l' w (handle env op w).2 := by
  cases h with
  | quiet hq => exact paymentKept_tables ha hl (hq.tables env w).1 (hq.tables env w).2
  | learn hq hk => exact paymentKept_tables ha hk (hq.tables env w).1 (hq.tables env w).2
  | generate => exact paymentKept_tables ha trivial rfl rfl
  | post => exact paymentKept_tables ha hl rfl rfl
  | saveOutbox hr hk hp =>
    subst hk
    exact saveOutbox_kept ha hr hp hl
  | saveDetail hr ho =>
    have hk := persistDetail_kept ha hr ho (.inr ⟨_, hl⟩)
    exact ⟨hk.2.agree, hk.2.keeps, hk.2.keeps _ _ hl, hk.2.outbox⟩
  | enqueue hr ho hp hphase =>
    refine saveDetailAndOutbox_kept ha hr ho hp ?_
    rcases hphase with rfl | ⟨k, rfl⟩
    · exact .inl (hok _ _ _ rfl rfl)
    · exact .inr ⟨k, hl⟩

theorem PayMove.generated_cases {l : PayPhase} {op : Call} {o : OrderId}
    (h : PayMove rid w l op (.generated o)) : op = .generateOrderId ∨ l = .generated o := by
  cases h with
  | quiet => exact .inr rfl
  | generate => exact .inl rfl

theorem PayMove.posts_known {l l' : PayPhase} {p : PaymentRequestPayload}
    (h : PayMove rid w l (.post p) l') : ∃ k, l = .knows k p.orderId := by
  cases h with
  | quiet hq => exact hq.elim
  | learn hq => exact hq.elim
  | post => exact ⟨_, rfl⟩

/-- The outbox rows that a worker is asked for belong to the ride. -/
def PaymentOp.About (rid : Id) (w : World) : PaymentOp → Prop
  | .proceedRidePayment rideId _ => rideId = rid
  | .handlePaymentNotification .. => False
  | .deliverPaymentJob outboxId .. => ∀ x, w.outbox.find outboxId = some x → x.rideId = rid

theorem PaymentKept.about {l : PayPhase} (h : PaymentKept rid l w w') {op : PaymentOp}
    (hop : op.About rid w) : op.About rid w' := by
  cases op with
  | deliverPaymentJob outboxId =>
    intro x hx
    obtain ⟨hm, hid⟩ := Table.find_some.mp hx
    rcases h.outbox x hm with hr | ⟨y, hy, hyid, hyr⟩
    · exact hr
    · rw [← hyr]
      exact hop y (Table.find_some.mpr ⟨hy, hyid.trans hid⟩)
  | _ => exact hop

def payOutline (rid : Id) (op : PaymentOp) : Outline PayPhase Call World where
  pre l w := w.PaymentsAgree rid ∧ l.Holds rid w ∧ op.About rid w
  move l c w l' := PayMove rid w l c l'

/-- The program follows the payment of the ride from phase `l`. -/
abbrev Pays {α : Type} (env : Environment) (rid : Id) (op : PaymentOp) (l : PayPhase)
    (p : Service α) : Prop :=
  (payOutline rid op).Follows (handle env) (fun _ _ => True) l p

section Pays

variable {env : Environment} {op : PaymentOp} {l : PayPhase} {α β : Type}

theorem follows_pay_quiet {c : Call} {f : c.Answer → Service β} (hc : c.PayQuiet)
    (h : ∀ a, Pays env rid op l (f a)) : Pays env rid op l (call c >>= f) := by
  refine Outline.Follows.perform fun w _ => ⟨l, .quiet hc, ?_⟩
  cases (handle env c w).1 with
  | ok a => exact h a
  | error e => trivial

theorem follows_pay_catching {p : Service α} {g : ServiceError → Service α} {f : α → Service β}
    (hp : p.Calls Call.PayQuiet) (hg : ∀ e, (g e).Calls Call.PayQuiet)
    (h : ∀ a, Pays env rid op l (f a)) : Pays env rid op l (p.catching g >>= f) :=
  Outline.Follows.quiet (hp.catching hg) (fun _ _ hq _ => .quiet hq) (fun _ => trivial) h

theorem follows_saveOutbox {x : PaymentOutbox} {f : Unit → Service β} (hr : x.rideId = rid)
    (hp : x.requestPayload.orderId = x.orderId)
    (h : Pays env rid op (.knows x.paymentDetailId x.orderId) (f ())) :
    Pays env rid op (.knows x.paymentDetailId x.orderId) (savePaymentOutbox x >>= f) :=
  Outline.Follows.perform fun _ _ => ⟨_, .saveOutbox hr rfl hp, h⟩

/-- Reading the ride's detail tells its order, if it has one. -/
theorem follows_findDetailByRide {f : Option RidePaymentDetail → Service β}
    (hknows : ∀ d o, d.rideId = rid → d.orderId = some o → Pays env rid op (.knows d.id o) (f (some d)))
    (hidle : ∀ d : Option RidePaymentDetail, (∀ x, d = some x → x.rideId = rid ∧ x.orderId = none) →
      Pays env rid op .idle (f d)) :
    Pays env rid op .idle (call (.findDetailByRide rid) >>= f) := by
  refine Outline.Follows.perform fun w _ => ?_
  cases hd : w.findDetailByRide rid with
  | none =>
    refine ⟨.idle, .quiet trivial, ?_⟩
    simpa [handle, hd] using hidle none (by simp)
  | some d =>
    have hr := (mem_of_findDetailByRide hd).2
    cases ho : d.orderId with
    | none =>
      refine ⟨.idle, .quiet trivial, ?_⟩
      simpa [handle, hd] using hidle (some d) (by rintro x ⟨⟩; exact ⟨hr, ho⟩)
    | some o =>
      refine ⟨.knows d.id o, .learn trivial (orderOf_some.mpr ⟨d, hd, rfl, ho⟩), ?_⟩
      simpa [handle, hd] using hknows d o hr ho

theorem follows_enqueuePayment {ride : Ride} {detail : RidePaymentDetail} {x : PaymentOutbox}
    {f : RidePaymentDetail → Service β} (hr : x.rideId = rid)
    (hp : x.requestPayload.orderId = x.orderId)
    (h : ∀ d, Pays env rid op (.knows x.paymentDetailId x.orderId) (f d)) :
    Pays env rid op (.knows x.paymentDetailId x.orderId) (enqueuePayment ride detail x >>= f) := by
  unfold enqueuePayment
  simp only [bind_assoc]
  refine follows_pay_quiet trivial fun jobId => ?_
  refine follows_saveOutbox (x := { x with jobId := some jobId }) hr hp ?_
  refine follows_pay_catching (by simp [call, Call.PayQuiet]) (by simp) fun _ => ?_
  refine follows_pay_quiet trivial fun refreshed => ?_
  cases refreshed with
  | none => trivial
  | some d =>
    simp only
    split
    · trivial
    · exact h d

/-- `initiatePayment` from the choice of the order on. -/
theorem follows_queued {ride : Ride} {d : RidePaymentDetail} {o : OrderId}
    {f : RidePaymentDetail → Service β} (hd : d.rideId = rid)
    (hl : l = .generated o ∨ ∃ k, l = .knows k o)
    (h : ∀ d k, Pays env rid op (.knows k o) (f d)) :
    Pays env rid op l (do
      let requestPayload ← Program.ofExcept (buildPaymentRequestPayload ride o)
      let (persistedDetail, savedOutbox) ← call (.saveDetailAndOutbox (queuedDetail d o requestPayload)
        { orderId := o, requestPayload, status := .pending })
      let x ← enqueuePayment ride persistedDetail savedOutbox
      f x) := by
  cases hb : buildPaymentRequestPayload ride o with
  | error e => trivial
  | ok payload =>
    have hpay : payload.orderId = o := by
      unfold buildPaymentRequestPayload at hb
      simp only at hb
      split at hb
      · cases hb
      · cases hb
        rfl
    refine Outline.Follows.perform fun w hw => ⟨_, .enqueue hd rfl hpay hl, ?_⟩
    obtain ⟨k, h1, -⟩ := persistDetail_spec hw.1.unique (d := queuedDetail d o payload) hd
    let saved := (w.saveDetailAndOutbox (queuedDetail d o payload) ⟨o, payload, .pending⟩).1
    have hr : saved.2.rideId = rid := by
      change (w.persistDetail (queuedDetail d o payload)).1.rideId = rid
      rw [h1]
      exact hd
    change Pays env rid op (.knows saved.2.paymentDetailId saved.2.orderId)
      (enqueuePayment ride saved.1 saved.2 >>= f)
    exact follows_enqueuePayment hr hpay fun x => h x _

theorem follows_initiatePayment {ride : Ride} {f : RidePaymentDetail → Service β} (hid : ride.id = rid)
    (h : ∀ d l, Pays env rid op l (f d)) :
    Pays env rid op .idle (initiatePayment env ride >>= f) := by
  unfold initiatePayment ensurePaymentConfiguration
  subst hid
  split
  · simp only [pure_bind, bind_assoc]
    refine follows_findDetailByRide (fun d o hr ho => ?_) fun d hd => ?_
    · simp only [Option.getD_some]
      split
      · exact h _ _
      · simp only [ho, bind_assoc]
        exact follows_queued hr (.inr ⟨_, rfl⟩) fun x k => h x _
    · have hr : (d.getD (newPaymentDetail env ride.id)).rideId = ride.id := by
        cases d with
        | none => rfl
        | some x => exact (hd x rfl).1
      have ho : (d.getD (newPaymentDetail env ride.id)).orderId = none := by
        cases d with
        | none => rfl
        | some x => exact (hd x rfl).2
      split
      · exact h _ _
      · simp only [ho, bind_assoc]
        exact Outline.Follows.perform fun w _ => ⟨.generated w.nextOrderId, .generate,
          follows_queued hr (.inl rfl) fun x k => h x _⟩
  · trivial

theorem follows_proceedRidePayment {riderId : Id} :
    Pays env rid op .idle (proceedRidePayment env rid riderId) := by
  unfold proceedRidePayment
  refine Outline.Follows.perform fun w _ => ⟨.idle, .quiet trivial, ?_⟩
  cases hr : w.findPaymentRide rid with
  | none =>
    simp only [handle, hr, Program.ofExcept_ok, Program.ret_bind]
    trivial
  | some ride =>
    have hid : ride.id = rid := by
      obtain ⟨x, hx, rfl⟩ := Option.map_eq_some_iff.mp hr
      exact Table.key_of_find hx
    simp only [handle, hr, Program.ofExcept_ok, Program.ret_bind, ↓Program.throw_seq]
    split
    · trivial
    split
    · trivial
    split
    · exact follows_pay_quiet trivial fun _ => trivial
    · refine follows_initiatePayment hid fun d l => ?_
      unfold updatePaymentState
      simp only [bind_assoc]
      refine follows_pay_quiet trivial fun rows => ?_
      simp only [UpdateResult.length, Nat.reduceEqDiff, if_false, pure_bind]
      exact follows_pay_quiet trivial fun _ => trivial

theorem follows_processOutbox {outboxId : Id} {startedAt endedAt : Time}
    (hop : ∀ w, op.About rid w → ∀ x, w.outbox.find outboxId = some x → x.rideId = rid) :
    Pays env rid op .idle (processOutbox env outboxId startedAt endedAt) := by
  unfold processOutbox ensurePaymentConfiguration
  split
  · simp only [pure_bind]
    refine Outline.Follows.perform fun w hw => ?_
    cases hx : w.outbox.find outboxId with
    | none => exact ⟨.idle, .quiet trivial, by simp [handle, hx, Outline.Follows]⟩
    | some x =>
      have hr : x.rideId = rid := hop w hw.2.2 x hx
      obtain ⟨hord, hpay⟩ := hw.1.outbox x (Table.find_some.mp hx).1 hr
      refine ⟨.knows x.paymentDetailId x.orderId, .learn trivial hord, ?_⟩
      simp only [handle, hx, Program.ofExcept_ok, Program.ret_bind]
      refine Outline.Follows.perform fun v hv => ⟨_, .quiet trivial, ?_⟩
      obtain ⟨d, hd, hdid, hdo⟩ := orderOf_some.mp hv.2.1
      obtain ⟨hdm, hdr⟩ := mem_of_findDetailByRide hd
      have hfind : v.details.find x.paymentDetailId = some d := Table.find_some.mpr ⟨hdm, hdid⟩
      simp only [handle, hfind, Program.ofExcept_ok, Program.ret_bind]
      have hsave (y : PaymentOutbox) {γ : Type} {g : Unit → Service γ} (hy : y.rideId = x.rideId)
          (hk : y.paymentDetailId = x.paymentDetailId) (ho : y.orderId = x.orderId)
          (hq : y.requestPayload = x.requestPayload)
          (hg : Pays env rid op (.knows x.paymentDetailId x.orderId) (g ())) :
          Pays env rid op (.knows x.paymentDetailId x.orderId) (savePaymentOutbox y >>= g) := by
        rw [← hk, ← ho] at hg ⊢
        exact follows_saveOutbox (hy.trans hr) (by rw [hq, ho, hpay]) hg
      refine hsave _ rfl rfl rfl rfl ?_
      refine Outline.Follows.perform fun u _ => ⟨.knows x.paymentDetailId x.orderId, hpay ▸ .post, ?_⟩
      simp only [handle, Program.ofExcept_ok, Program.ret_bind]
      cases env.gateway u.answered x.requestPayload with
      | ok response =>
        refine Outline.Follows.perform fun _ _ => ⟨_, .saveDetail hdr rfl, ?_⟩
        exact hsave _ rfl rfl rfl rfl trivial
      | error message =>
        refine hsave _ rfl rfl rfl rfl ?_
        exact Outline.Follows.perform fun _ _ => ⟨_, .saveDetail hdr hdo, trivial⟩
  · trivial

theorem follows_deliverPaymentJob {outboxId : Id} {startedAt endedAt : Time} :
    Pays env rid (.deliverPaymentJob outboxId startedAt endedAt) .idle
      (deliverPaymentJob env outboxId startedAt endedAt) := by
  unfold deliverPaymentJob
  refine Outline.Follows.perform fun w _ => ⟨.idle, .quiet trivial, ?_⟩
  have htaken : (w.takePaymentJob outboxId).1 = none ∨ (w.takePaymentJob outboxId).1 = some outboxId := by
    unfold World.takePaymentJob
    split
    · split <;> simp
    · exact .inl rfl
  have hans : (handle env (.takePaymentJob outboxId) w).1 = .ok (w.takePaymentJob outboxId).1 := rfl
  rw [hans]
  rcases htaken with h | h
  · rw [h]
    trivial
  · rw [h]
    have hfinish (succeeded : Bool) (l : PayPhase) :
        Pays env rid (.deliverPaymentJob outboxId startedAt endedAt) l
          (call (.finishPaymentJob outboxId succeeded)) := fun u _ => ⟨l, .quiet trivial, trivial⟩
    have hprocess : Pays env rid (.deliverPaymentJob outboxId startedAt endedAt) .idle
        (processOutbox env outboxId startedAt endedAt) := follows_processOutbox fun _ hw => hw
    have hbody : Pays env rid (.deliverPaymentJob outboxId startedAt endedAt) .idle (do
        let _ ← processOutbox env outboxId startedAt endedAt
        return true : Service Bool) :=
      Outline.Follows.bind hprocess (fun _ _ _ => trivial) fun _ _ _ => trivial
    have hwhole : Pays env rid (.deliverPaymentJob outboxId startedAt endedAt) .idle
        ((do
          let _ ← processOutbox env outboxId startedAt endedAt
          return true : Service Bool).catching fun _ => pure false) :=
      Outline.Follows.catching hbody (fun _ _ _ => trivial) fun _ _ _ => trivial
    simp only [Program.ofExcept_ok, Program.ret_bind]
    exact Outline.Follows.bind hwhole (fun l succeeded _ => hfinish succeeded l) fun _ _ _ => trivial

theorem PaymentOp.follows (env : Environment) {op : PaymentOp} {w : World} (hop : op.About rid w) :
    Pays env rid op .idle (op.program env) := by
  cases op with
  | proceedRidePayment rideId riderId =>
    obtain rfl : rideId = rid := hop
    exact Outline.Follows.bind follows_proceedRidePayment (fun _ _ _ => trivial) fun _ _ _ => trivial
  | handlePaymentNotification => exact hop.elim
  | deliverPaymentJob => exact follows_deliverPaymentJob

end Pays

variable {env : Environment} {ι : Type} [DecidableEq ι]

def Call.generatesOrder : Call → Bool
  | .generateOrderId => true
  | _ => false

def Call.posted : Call → Option PaymentRequestPayload
  | .post payload => some payload
  | _ => none

theorem Call.posted_some {op : Call} {p : PaymentRequestPayload} (h : op.posted = some p) :
    op = .post p := by
  cases op with
  | post q => rw [Option.some.inj h]
  | _ => cases h

/-- Whether process `i` has generated an order identifier. -/
def hasGenerated (c : Pool ι Call Call.Answer ServiceError Unit World) (i : ι) : Bool :=
  c.trace.any fun e => decide (e.1 = i) && e.2.1.generatesOrder

/-- The requests that were posted to the gateway. -/
def postedRequests (c : Pool ι Call Call.Answer ServiceError Unit World) : List PaymentRequestPayload :=
  c.trace.filterMap fun e => e.2.1.posted

/-- Process `i` is not about to save an order identifier that it has generated
for a ride whose payment detail has an order by now. -/
def SavesFirstOrder (rid : Id) (c : Pool ι Call Call.Answer ServiceError Unit World) (i : ι) : Prop :=
  match (c.procs i).pending with
  | some (.saveDetailAndOutbox _ _) => hasGenerated c i = true → c.store.orderOf rid = none
  | _ => True

instance (rid : Id) (c : Pool ι Call Call.Answer ServiceError Unit World) (i : ι) :
    Decidable (SavesFirstOrder rid c i) := by
  unfold SavesFirstOrder
  induction (c.procs i).pending using Option.casesOn with
  | none => infer_instance
  | some op => induction op using Call.casesOn <;> infer_instance

/-- What holds of a pool of payments of one ride in which no first order was overwritten. -/
structure OneOrder (rid : Id) (ops : ι → PaymentOp) (phase : ι → PayPhase)
    (c : Pool ι Call Call.Answer ServiceError Unit World) : Prop where
  agree : c.store.PaymentsAgree rid
  about : ∀ i, (ops i).About rid c.store
  phases : ∀ i, (phase i).Holds rid c.store
  generated : ∀ i o, phase i = .generated o → hasGenerated c i = true
  posted : ∀ p ∈ postedRequests c, ∃ k, c.store.orderOf rid = some (k, p.orderId)

theorem OneOrder.step {ops : ι → PaymentOp} {phase : ι → PayPhase}
    {c : Pool ι Call Call.Answer ServiceError Unit World} {i : ι} {op : Call}
    {next : Except ServiceError op.Answer → Service Unit} {l : PayPhase}
    (h : OneOrder rid ops phase c) (hok : SavesFirstOrder rid c i) (hi : c.procs i = .call op next)
    (hm : PayMove rid c.store (phase i) op l) :
    OneOrder rid ops (Function.update phase i l) (c.step (handle env) i) := by
  have hk := hm.kept env h.agree (h.phases i) fun o d input hg he => by
    subst he
    rw [SavesFirstOrder, hi] at hok
    exact hok (h.generated i o hg)
  rw [Pool.step_call _ hi]
  refine ⟨hk.agree, fun j => hk.about (h.about j), fun j => ?_, fun j o hj => ?_, fun p hp => ?_⟩
  · by_cases hji : j = i
    · subst hji
      simpa using hk.phase
    · rw [Function.update_of_ne hji]
      have hj := h.phases j
      generalize phase j = q at hj
      cases q with
      | knows k o => exact hk.keeps k o hj
      | _ => trivial
  · simp only [hasGenerated, List.any_cons, Bool.or_eq_true]
    by_cases hji : j = i
    · subst hji
      rw [Function.update_self] at hj
      subst hj
      rcases hm.generated_cases with rfl | hp
      · exact .inl (by simp [Call.generatesOrder])
      · exact .inr (h.generated j o hp)
    · rw [Function.update_of_ne hji] at hj
      exact .inr (h.generated j o hj)
  · obtain ⟨e, he, hep⟩ := List.mem_filterMap.mp hp
    rcases List.mem_cons.mp he with rfl | he
    · obtain rfl := Call.posted_some hep
      obtain ⟨k, hph⟩ := hm.posts_known
      have hord := h.phases i
      rw [hph] at hord
      exact ⟨k, hk.keeps k _ hord⟩
    · obtain ⟨k, hord⟩ := h.posted p (List.mem_filterMap.mpr ⟨e, he, hep⟩)
      exact ⟨k, hk.keeps k _ hord⟩

/-- Where no generated order is saved over another, all requests that were posted
for the ride carry the order of its payment detail. -/
theorem posts_carry_stored_order (env : Environment) (rid : Id) (ops : ι → PaymentOp) (w : World)
    (hops : ∀ i, (ops i).About rid w) (hw : w.PaymentsAgree rid) (sched : List ι)
    (hm : Pool.Meets (handle env) (SavesFirstOrder rid) (Pool.start (paymentCalls env ops) w) sched)
    (before : List ι) (hb : before <+: sched) :
    ∀ p ∈ postedRequests ((Pool.start (paymentCalls env ops) w).exec (handle env) before),
      ∃ d, ((Pool.start (paymentCalls env ops) w).exec (handle env) before).store.findDetailByRide rid =
        some d ∧ d.orderId = some p.orderId := by
  have hholds := Outline.exec_holds (o := fun i => payOutline rid (ops i)) (J := OneOrder rid ops)
    (fun _ _ i hJ => ⟨hJ.agree, hJ.phases i, hJ.about i⟩)
    (fun _ _ _ _ _ _ hJ hok hi hmv => hJ.step hok hi hmv)
    ⟨fun _ => .idle, ⟨hw, hops, fun _ => trivial, by simp, by simp [postedRequests, Pool.start]⟩,
      fun i => PaymentOp.follows env (hops i)⟩ (hm.initial hb)
  obtain ⟨_, hJ, -⟩ := hholds
  intro p hp
  obtain ⟨k, hk⟩ := hJ.posted p hp
  obtain ⟨d, hd, -, ho⟩ := orderOf_some.mp hk
  exact ⟨d, hd, ho⟩

/-- The rider pays twice, and the queue works on both requests. -/
def payTwice (i : Fin 4) : PaymentOp :=
  match i with
  | 0 => .proceedRidePayment 1 1
  | 1 => .proceedRidePayment 1 1
  | 2 => .deliverPaymentJob 1 5 6
  | 3 => .deliverPaymentJob 2 5 6

theorem completedWorld_agrees : completedWorld.PaymentsAgree 1 := by
  have hd : completedWorld.details.rows = [] := by decide +kernel
  have ho : completedWorld.outbox.rows = [] := by decide +kernel
  exact ⟨fun d h => by simp [hd] at h, fun x h => by simp [ho] at h⟩

theorem payTwice_about (i : Fin 4) : (payTwice i).About 1 completedWorld := by
  have ho : completedWorld.outbox.rows = [] := by decide +kernel
  have hn (k : Id) : completedWorld.outbox.find k = none := by simp [Table.find, ho]
  match i with
  | 0 => rfl
  | 1 => rfl
  | 2 => exact fun x h => by rw [hn] at h; cases h
  | 3 => exact fun x h => by rw [hn] at h; cases h

/-- The second payment begins when the first one waits for its job. -/
def paidInTurn : List (Fin 4) :=
  List.replicate 6 0 ++ List.replicate 20 1 ++ List.replicate 20 2 ++ List.replicate 20 3

theorem posts_carry_stored_order_in_turn :
    (postedRequests ((Pool.start (paymentCalls (.around [7, 8]) payTwice) completedWorld).exec
      (handle (.around [7, 8])) paidInTurn)).length = 2 ∧
    ∀ p ∈ postedRequests ((Pool.start (paymentCalls (.around [7, 8]) payTwice) completedWorld).exec
      (handle (.around [7, 8])) paidInTurn),
      ∃ d, ((Pool.start (paymentCalls (.around [7, 8]) payTwice) completedWorld).exec
        (handle (.around [7, 8])) paidInTurn).store.findDetailByRide 1 = some d ∧
          d.orderId = some p.orderId :=
  ⟨by decide +kernel, posts_carry_stored_order (.around [7, 8]) 1 payTwice completedWorld payTwice_about
    completedWorld_agrees paidInTurn (by decide +kernel) paidInTurn List.prefix_rfl⟩

/-- Both payments have read that there is no detail before either saves its order. -/
theorem two_orders_posted :
    ¬ ∀ p ∈ postedRequests ((Pool.start (paymentCalls (.around [7, 8]) payTwice) completedWorld).exec
        (handle (.around [7, 8])) ([0, 0, 1, 1] ++ paidInTurn)),
      ∃ d, ((Pool.start (paymentCalls (.around [7, 8]) payTwice) completedWorld).exec
        (handle (.around [7, 8])) ([0, 0, 1, 1] ++ paidInTurn)).store.findDetailByRide 1 = some d ∧
          d.orderId = some p.orderId := by
  have hposts : (postedRequests ((Pool.start (paymentCalls (.around [7, 8]) payTwice)
      completedWorld).exec (handle (.around [7, 8])) ([0, 0, 1, 1] ++ paidInTurn))).map (·.orderId) =
        [1, 0] := by decide +kernel
  intro h
  have horder (o : OrderId) (ho : o ∈ [1, 0]) :
      (((Pool.start (paymentCalls (.around [7, 8]) payTwice) completedWorld).exec
        (handle (.around [7, 8])) ([0, 0, 1, 1] ++ paidInTurn)).store.findDetailByRide 1).bind
          (·.orderId) = some o := by
    rw [← hposts] at ho
    obtain ⟨p, hp, rfl⟩ := List.mem_map.mp ho
    obtain ⟨d, hd, hdo⟩ := h p hp
    rw [hd]
    exact hdo
  have hboth := (horder 0 (by simp)).symm.trans (horder 1 (by simp))
  cases hboth

end NebLite
