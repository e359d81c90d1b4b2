import NebLite.Payment.RideFrames

/-! The payment tables as a ledger: every request for a payment asks for the fare of its
completed ride, under the order of the ride's payment detail. -/

namespace NebLite

open Atomic

/-- The outbox row asks for the fare of its completed ride, under the order of the ride's
only payment detail. -/
structure World.Bills (w : World) (x : PaymentOutbox) (r : Ride) (d : RidePaymentDetail) : Prop where
  ride : w.rides.find x.rideId = some r
  detail : w.findDetailByRide x.rideId = some d
  only : ∀ e ∈ w.details.rows, e.rideId = x.rideId → e = d
  status : r.status = .completed
  fare : r.fareFinal = some x.requestPayload.grossAmount
  positive : 0 < x.requestPayload.grossAmount
  row : x.paymentDetailId = d.id
  order : d.orderId = some x.orderId
  request : x.requestPayload.orderId = x.orderId

/-- The final fare has been printed with two decimals. -/
def Ride.Printed (r : Ride) : Prop := ∀ fare, r.fareFinal = some fare → ∃ amount, fare = toFixed 2 amount

/-- What holds of the payment tables between two operations. -/
structure World.Ledger (w : World) : Prop where
  printed : ∀ r ∈ w.rides.rows, r.Printed
  agree : ∀ k, w.PaymentsAgree k
  billed : ∀ x ∈ w.outbox.rows, ∃ r, w.rides.find x.rideId = some r ∧ r.status = .completed ∧
    r.fareFinal = some x.requestPayload.grossAmount ∧ 0 < x.requestPayload.grossAmount

/-- The rows of `w` are still there in `w'`, the rides in their status and with their fare. -/
structure World.Continues (w w' : World) : Prop where
  keeps : w.Keeps w'
  rides : ∀ k r, w.rides.find k = some r →
    ∃ r', w'.rides.find k = some r' ∧ r'.status = r.status ∧ r'.fareFinal = r.fareFinal

/-- A call that books a payment: the ride is completed and has the fare that is asked for,
and its detail keeps the order that it has. -/
def Call.Books (w : World) : Call → Prop
  | .updateRideRow _ | .insertRide _ | .saveCandidate _ => False
  | .saveDetail d | .saveDetailWithRideUpdate d _ _ _ =>
    ∃ k orderId, w.orderOf d.rideId = some (k, orderId) ∧ d.orderId = some orderId
  | .saveDetailAndOutbox d input => d.orderId = some input.orderId ∧ input.requestPayload.orderId = input.orderId ∧
      (w.orderOf d.rideId = none ∨ ∃ k, w.orderOf d.rideId = some (k, input.orderId)) ∧
      ∃ r, w.rides.find d.rideId = some r ∧ r.status = .completed ∧
        r.fareFinal = some input.requestPayload.grossAmount ∧ 0 < input.requestPayload.grossAmount
  | .saveOutbox x => ∃ y, w.outbox.find x.id = some y ∧ x.ComesFrom y
  | _ => True

section Tables

variable {w w' : World} {k : Id}

theorem World.Ledger.bills (h : w.Ledger) {x : PaymentOutbox} (hx : x ∈ w.outbox.rows) : ∃ r d, w.Bills x r d := by
  obtain ⟨r, hr, hs, hf, hpos⟩ := h.billed x hx
  obtain ⟨hord, hreq⟩ := (h.agree x.rideId).outbox x hx rfl
  obtain ⟨d, hd, hid, ho⟩ := orderOf_some.mp hord
  refine ⟨r, d, hr, hd, fun e he hride => ?_, hs, hf, hpos, hid.symm, ho, hreq⟩
  exact Option.some.inj (((h.agree x.rideId).unique e he hride).symm.trans hd)

theorem World.Continues.trans {w'' : World} (h : w.Continues w') (h' : w'.Continues w'') : w.Continues w'' where
  keeps := h.keeps.trans h'.keeps
  rides k r hr := by
    obtain ⟨x, hx, hs, hf⟩ := h.rides k r hr
    obtain ⟨y, hy, hs', hf'⟩ := h'.rides k x hx
    exact ⟨y, hy, hs'.trans hs, hf'.trans hf⟩

theorem Call.Books.identifies {op : Call} (h : op.Books w) : op.Identifies w := by
  cases op <;> first | exact h | exact h.elim | trivial

theorem findDetailByRide_record (h : w'.recordOf k = w.recordOf k) : w'.findDetailByRide k = w.findDetailByRide k := by
  have hfirst (v : World) : v.findDetailByRide k = (v.recordOf k).details.head? :=
    (List.head?_filter ..).symm
  rw [hfirst, hfirst, h]

theorem orderOf_record (h : w'.recordOf k = w.recordOf k) : w'.orderOf k = w.orderOf k := by
  rw [World.orderOf, World.orderOf, findDetailByRide_record h]

/-- The payment of a ride is in order when its record is what it was. -/
theorem World.PaymentsAgree.record (ha : w.PaymentsAgree k) (h : w'.recordOf k = w.recordOf k) :
    w'.PaymentsAgree k where
  unique d hd hr := by
    have hrow : d ∈ (w'.recordOf k).details := Table.mem_select.mpr ⟨hd, by simpa using hr⟩
    rw [h] at hrow
    rw [findDetailByRide_record h]
    exact ha.unique d (Table.mem_select.mp hrow).1 hr
  outbox x hx hr := by
    rw [orderOf_record h]
    exact ha.outbox x (mem_outbox_record h hx hr) hr

/-- The payment of a ride is in order when no detail is written and no outbox row is new. -/
theorem World.PaymentsAgree.rows (ha : w.PaymentsAgree k) (hd : w'.details = w.details)
    (ho : ∀ x ∈ w'.outbox.rows, ∃ y ∈ w.outbox.rows, x.ComesFrom y) : w'.PaymentsAgree k where
  unique d hm hr := by
    rw [World.findDetailByRide, hd]
    exact ha.unique d (hd ▸ hm) hr
  outbox x hx hr := by
    obtain ⟨y, hy, hxy⟩ := ho x hx
    obtain ⟨hord, hreq⟩ := ha.outbox y hy (hxy.rideId.symm.trans hr)
    rw [orderOf_congr hd, hxy.paymentDetailId, hxy.orderId, hxy.requestPayload]
    exact ⟨hord, hreq⟩

/-- An outbox row after a call was there before, or a payment has queued it. -/
theorem outbox_rows (env : Environment) {op : Call} (hop : op.Identifies w) {x : PaymentOutbox}
    (hx : x ∈ (handle env op w).2.outbox.rows) : (∃ y ∈ w.outbox.rows, x.ComesFrom y) ∨
      ∃ d input, op = .saveDetailAndOutbox d input ∧ x = (w.saveDetailAndOutbox d input).1.2 := by
  have hfound : (handle env op w).2.outbox.find x.id = some x := Table.find_some.mpr ⟨hx, rfl⟩
  cases hold : w.outbox.find x.id with
  | none => exact .inr (outbox_new env hop hfound hold)
  | some y =>
    obtain ⟨x', hx', hxy⟩ := (keeps_handle env hop).outbox x.id y hold
    obtain rfl := Option.some.inj (hfound.symm.trans hx')
    exact .inl ⟨y, (Table.find_some.mp hold).1, hxy⟩

/-- Calls other than the four writes of a payment leave its tables. -/
theorem payments_handle (env : Environment) {op : Call} (hd : ∀ d, op ≠ .saveDetail d)
    (hu : ∀ d u x now, op ≠ .saveDetailWithRideUpdate d u x now) (hq : ∀ d input, op ≠ .saveDetailAndOutbox d input)
    (ho : ∀ x, op ≠ .saveOutbox x) :
    (handle env op w).2.details = w.details ∧ (handle env op w).2.outbox = w.outbox := by
  cases op with
  | saveDetail d => exact absurd rfl (hd d)
  | saveDetailWithRideUpdate d u x now => exact absurd rfl (hu d u x now)
  | saveDetailAndOutbox d input => exact absurd rfl (hq d input)
  | saveOutbox x => exact absurd rfl (ho x)
  | updateRideRow m =>
    simp only [handle, World.updateRideRow]
    split <;> exact ⟨rfl, rfl⟩
  | claimDriver rideId d =>
    simp only [handle, World.claimDriver]
    split
    · exact ⟨rfl, rfl⟩
    split <;> exact ⟨rfl, rfl⟩
  | insertRide options =>
    change (w.insertRide options).2.details = w.details ∧ (w.insertRide options).2.outbox = w.outbox
    obtain h | ⟨_, _, -, -, h⟩ := insertRide_cases w options <;> rw [h] <;> exact ⟨rfl, rfl⟩
  | saveCandidate n =>
    simp only [handle, World.saveCandidate]
    split <;> exact ⟨rfl, rfl⟩
  | updatePaymentState rideId s url =>
    exact ⟨(updatePaymentState_tables w rideId s url).1, (updatePaymentState_tables w rideId s url).2.1⟩
  | takePaymentJob id =>
    simp only [handle, World.takePaymentJob]
    split
    · split <;> exact ⟨rfl, rfl⟩
    · exact ⟨rfl, rfl⟩
  | finishPaymentJob id ok =>
    simp only [handle, World.finishPaymentJob]
    split <;> exact ⟨rfl, rfl⟩
  | _ => exact ⟨rfl, rfl⟩

/-- Calls other than the three of the payment details leave their table. -/
theorem details_handle (env : Environment) {op : Call} (hd : ∀ d, op ≠ .saveDetail d)
    (hu : ∀ d u x now, op ≠ .saveDetailWithRideUpdate d u x now) (hq : ∀ d input, op ≠ .saveDetailAndOutbox d input) :
    (handle env op w).2.details = w.details := by
  by_cases ho : ∃ x, op = .saveOutbox x
  · obtain ⟨x, rfl⟩ := ho
    rfl
  · exact (payments_handle env hd hu hq fun x he => ho ⟨x, he⟩).1

/-- The rides after a call are printed when the row that it writes is. -/
theorem printed_handle (env : Environment) {op : Call} (h : ∀ r ∈ w.rides.rows, r.Printed)
    (hm : ∀ m, op = .updateRideRow m → m.Printed) : ∀ r ∈ (handle env op w).2.rides.rows, r.Printed := by
  intro r hr
  by_cases hins : ∃ options, op = .insertRide options
  · obtain ⟨options, rfl⟩ := hins
    change r ∈ (w.insertRide options).2.rides.rows at hr
    obtain hkept | ⟨_, _, -, -, hnew⟩ := insertRide_cases w options
    · rw [hkept] at hr
      exact h r hr
    · rw [hnew] at hr
      have hrow := (@Table.mem_insert _ _ w.rides (World.newRide options.ride options.now) (fun _ => rfl) r).mp hr
      rcases hrow with hr | rfl
      · exact h r hr
      · intro fare hfare
        cases hfare
  · obtain ⟨x, hx, rfl⟩ := (mem_handle env fun options he => hins ⟨options, he⟩).mp hr
    obtain he | ⟨_, he⟩ | ⟨_, _, he⟩ | ⟨m, hop, -, he⟩ := op.onRide_cases x
    · rw [he]
      exact h x hx
    · rw [he]
      exact h x hx
    · rw [he]
      exact h x hx
    · rw [he]
      exact hm m hop

/-- Other calls than the full-row write keep the rides in their status and with their fare. -/
theorem continues_handle (env : Environment) {op : Call} (hop : op.Identifies w) (hm : ∀ m, op ≠ .updateRideRow m) :
    w.Continues (handle env op w).2 where
  keeps := keeps_handle env hop
  rides k r hr := by
    have hid : r.id = k := Table.key_of_find hr
    subst hid
    refine ⟨op.onRide r, find_handle env op hr, ?_⟩
    obtain he | ⟨_, he⟩ | ⟨_, _, he⟩ | ⟨m, hop, -⟩ := op.onRide_cases r
    · rw [he]
      exact ⟨rfl, rfl⟩
    · rw [he]
      exact ⟨rfl, rfl⟩
    · rw [he]
      exact ⟨rfl, rfl⟩
    · exact absurd hop (hm m)

theorem saveDetailWithRideUpdate_details (w : World) (d : RidePaymentDetail) (u : Option RidePaymentUpdate)
    (x : Option OutboxUpdate) (now : Time) :
    (w.saveDetailWithRideUpdate d u x now).2.details = (w.persistDetail d).2.details := by
  cases u with
  | none => cases x <;> rfl
  | some u =>
    have hstate := (updatePaymentState_tables (w.persistDetail d).2 u.rideId u.paymentStatus u.paymentUrl).1
    cases x <;> exact hstate

/-- A detail is saved with the order that its ride has. -/
theorem persistDetail_books (ha : ∀ k, w.PaymentsAgree k) {d : RidePaymentDetail} {j : Id} {orderId : OrderId}
    (hw : w.orderOf d.rideId = some (j, orderId)) (ho : d.orderId = some orderId) (k : Id) :
    (w.persistDetail d).2.PaymentsAgree k ∧ (w.persistDetail d).2.orderOf k = w.orderOf k := by
  by_cases hk : d.rideId = k
  · subst hk
    obtain ⟨-, hkept⟩ := persistDetail_kept (ha d.rideId) rfl ho (.inr ⟨j, hw⟩)
    exact ⟨hkept.agree, (hkept.keeps j orderId hw).trans hw.symm⟩
  · have hrecord : (w.persistDetail d).2.recordOf k = w.recordOf k := recordOf_persistDetail hk
    exact ⟨(ha k).record hrecord, orderOf_record hrecord⟩

variable {op : Call}

/-- Of the calls that book a payment only the one that queues it gives a ride its order. -/
theorem Call.Books.orders (env : Environment) (hop : op.Books w) (ha : ∀ k, w.PaymentsAgree k)
    (hq : ∀ d input, op ≠ .saveDetailAndOutbox d input) (k : Id) :
    (handle env op w).2.PaymentsAgree k ∧ (handle env op w).2.orderOf k = w.orderOf k := by
  have hrows : ∀ x ∈ (handle env op w).2.outbox.rows, ∃ y ∈ w.outbox.rows, x.ComesFrom y := by
    intro x hx
    obtain hold | ⟨d, input, he, -⟩ := outbox_rows env hop.identifies hx
    · exact hold
    · exact absurd he (hq d input)
  by_cases hs : ∃ d, op = .saveDetail d
  · obtain ⟨d, rfl⟩ := hs
    obtain ⟨j, orderId, hw, ho⟩ := hop
    exact persistDetail_books ha hw ho k
  by_cases hu : ∃ d u x now, op = .saveDetailWithRideUpdate d u x now
  · obtain ⟨d, u, x, now, rfl⟩ := hu
    obtain ⟨j, orderId, hw, ho⟩ := hop
    obtain ⟨hagree, hsame⟩ := persistDetail_books ha hw ho k
    have hdetails : (handle env (.saveDetailWithRideUpdate d u x now) w).2.details = (w.persistDetail d).2.details :=
      saveDetailWithRideUpdate_details w d u x now
    refine ⟨hagree.rows hdetails fun y hy => ?_, (orderOf_congr hdetails).trans hsame⟩
    rw [persistDetail_outbox]
    exact hrows y hy
  · have hdetails : (handle env op w).2.details = w.details :=
      details_handle env (fun d he => hs ⟨d, he⟩) (fun d u x now he => hu ⟨d, u, x, now, he⟩) hq
    exact ⟨(ha k).rows hdetails hrows, orderOf_congr hdetails⟩

/-- The call that queues a payment keeps the orders that there are. -/
theorem queue_orders (env : Environment) (ha : ∀ k, w.PaymentsAgree k) {d : RidePaymentDetail} {input : OutboxInput}
    (hop : (Call.saveDetailAndOutbox d input).Books w) (k : Id) :
    (handle env (.saveDetailAndOutbox d input) w).2.PaymentsAgree k ∧
      ∀ j orderId, w.orderOf k = some (j, orderId) →
        (handle env (.saveDetailAndOutbox d input) w).2.orderOf k = some (j, orderId) := by
  by_cases hk : d.rideId = k
  · subst hk
    obtain ⟨ho, hreq, hw, -⟩ := hop
    have hkept := saveDetailAndOutbox_kept (ha d.rideId) rfl ho hreq hw
    exact ⟨hkept.agree, hkept.keeps⟩
  · have hspares : (Call.saveDetailAndOutbox d input).Spares w k := hk
    have hrecord := recordOf_handle env hspares
    exact ⟨(ha k).record hrecord, fun j orderId h => (orderOf_record hrecord).trans h⟩

theorem Call.Books.continues (env : Environment) (hop : op.Books w) : w.Continues (handle env op w).2 := by
  apply continues_handle env hop.identifies
  rintro m rfl
  exact hop

/-- The ledger is kept by every call that books a payment. -/
theorem World.Ledger.books (env : Environment) (h : w.Ledger) (hop : op.Books w) : (handle env op w).2.Ledger where
  printed := by
    apply printed_handle env h.printed
    rintro m rfl
    exact hop.elim
  agree k := by
    by_cases hq : ∃ d input, op = .saveDetailAndOutbox d input
    · obtain ⟨d, input, rfl⟩ := hq
      exact (queue_orders env h.agree hop k).1
    · exact (hop.orders env h.agree (fun d input he => hq ⟨d, input, he⟩) k).1
  billed x hx := by
    have hrides := (hop.continues env).rides
    obtain ⟨y, hy, hxy⟩ | ⟨d, input, rfl, rfl⟩ := outbox_rows env hop.identifies hx
    · obtain ⟨r, hr, hs, hf, hpos⟩ := h.billed y hy
      obtain ⟨r', hr', hs', hf'⟩ := hrides _ r hr
      rw [hxy.rideId, hxy.requestPayload]
      exact ⟨r', hr', hs'.trans hs, hf'.trans hf, hpos⟩
    · obtain ⟨-, -, -, r, hr, hs, hf, hpos⟩ := hop
      obtain ⟨r', hr', hs', hf'⟩ := hrides _ r hr
      have hride : (w.saveDetailAndOutbox d input).1.2.rideId = d.rideId := (persistDetail_stored w d).2
      rw [hride]
      exact ⟨r', hr', hs'.trans hs, hf'.trans hf, hpos⟩

end Tables

end NebLite
