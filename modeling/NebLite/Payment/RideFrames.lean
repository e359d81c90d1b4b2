import NebLite.Payment.RideRecord

/-! Which ride, driver and payment detail a stored row belongs to never changes, whatever
runs concurrently; and an operation on one ride leaves the records of the others alone. -/

namespace NebLite

open Atomic

/-- The rows of `w` are still there in `w'`, and belong to what they belonged to. -/
structure World.Keeps (w w' : World) : Prop where
  candidates : ∀ k c, w.candidates.find k = some c →
    ∃ x, w'.candidates.find k = some x ∧ x.rideId = c.rideId ∧ x.driverId = c.driverId
  details : ∀ k d, w.details.find k = some d → ∃ x, w'.details.find k = some x ∧ x.rideId = d.rideId
  outbox : ∀ k y, w.outbox.find k = some y → ∃ x, w'.outbox.find k = some x ∧ x.ComesFrom y

/-- A row is written back where it is stored. -/
def Call.Identifies (w : World) : Call → Prop
  | .saveCandidate n => ∃ c, w.candidates.find n.id = some c ∧ c.rideId = n.rideId
  | .saveOutbox x => ∃ y, w.outbox.find x.id = some y ∧ x.ComesFrom y
  | _ => True

/-- What a process has read is still there. -/
structure Trail.Fits (t : Trail) (w : World) : Prop where
  rows : ∀ c ∈ t.rows, ∃ x, w.candidates.find c.id = some x ∧ x.rideId = c.rideId ∧ x.driverId = c.driverId
  outbox : ∀ y ∈ t.outbox, ∃ x, w.outbox.find y.id = some x ∧ x.ComesFrom y

/-- Every outbox row has the payment detail of its own ride. -/
def World.Tied (w : World) : Prop :=
  ∀ k x, w.outbox.find k = some x → ∃ d, w.details.find x.paymentDetailId = some d ∧ d.rideId = x.rideId

section Keeps

variable {w w' : World}

theorem World.Keeps.of_eq (hc : w'.candidates = w.candidates) (hd : w'.details = w.details)
    (ho : w'.outbox = w.outbox) : w.Keeps w' where
  candidates _ c h := ⟨c, hc ▸ h, rfl, rfl⟩
  details _ d h := ⟨d, hd ▸ h, rfl⟩
  outbox _ y h := ⟨y, ho ▸ h, .refl y⟩

theorem World.Keeps.trans {w'' : World} (h : w.Keeps w') (h' : w'.Keeps w'') : w.Keeps w'' where
  candidates k c hc := by
    obtain ⟨x, hx, hr, hd⟩ := h.candidates k c hc
    obtain ⟨y, hy, hr', hd'⟩ := h'.candidates k x hx
    exact ⟨y, hy, hr'.trans hr, hd'.trans hd⟩
  details k d hd := by
    obtain ⟨x, hx, hr⟩ := h.details k d hd
    obtain ⟨y, hy, hr'⟩ := h'.details k x hx
    exact ⟨y, hy, hr'.trans hr⟩
  outbox k z hz := by
    obtain ⟨x, hx, hxz⟩ := h.outbox k z hz
    obtain ⟨y, hy, hyx⟩ := h'.outbox k x hx
    exact ⟨y, hy, hyx.trans hxz⟩

theorem Trail.Fits.kept {t : Trail} (h : t.Fits w) (hk : w.Keeps w') : t.Fits w' where
  rows c hc := by
    obtain ⟨x, hx, hr, hd⟩ := h.rows c hc
    obtain ⟨y, hy, hr', hd'⟩ := hk.candidates _ x hx
    exact ⟨y, hy, hr'.trans hr, hd'.trans hd⟩
  outbox z hz := by
    obtain ⟨x, hx, hxz⟩ := h.outbox z hz
    obtain ⟨y, hy, hyx⟩ := hk.outbox _ x hx
    exact ⟨y, hy, hyx.trans hxz⟩

theorem Trail.fits_empty (w : World) : Trail.empty.Fits w where
  rows c hc := by cases hc
  outbox y hy := by cases hy

theorem keeps_persistDetail (d : RidePaymentDetail) : w.Keeps (w.persistDetail d).2 := by
  unfold World.persistDetail
  cases hstored : w.findDetailByRide d.rideId with
  | some stored =>
    obtain ⟨hmem, hride⟩ := mem_of_findDetailByRide hstored
    refine ⟨fun _ c h => ⟨c, h, rfl, rfl⟩, fun k x h => ?_, fun _ y h => ⟨y, h, .refl y⟩⟩
    have hfound : w.details.find stored.id = some stored := Table.find_some.mpr ⟨hmem, rfl⟩
    simp only [Table.find_put (r := { d with id := stored.id }) hfound, RidePaymentDetail.key_eq]
    by_cases hk : k = stored.id
    · subst hk
      obtain rfl := Option.some.inj (h.symm.trans hfound)
      exact ⟨_, if_pos rfl, hride.symm⟩
    · exact ⟨x, by rw [if_neg hk, h], rfl⟩
  | none =>
    refine ⟨fun _ c h => ⟨c, h, rfl, rfl⟩, fun k x h => ⟨x, ?_, rfl⟩, fun _ y h => ⟨y, h, .refl y⟩⟩
    simp only [Table.find_insert]
    have hne : k ≠ w.details.nextKey := by
      rintro rfl
      rw [Table.find_nextKey] at h
      cases h
    rw [if_neg hne, h]

theorem keeps_paymentState (w : World) (rideId : Id) (s : Option ERidePaymentStatus) (url : Option String) :
    w.Keeps (w.updatePaymentState rideId s url).2 := by
  unfold World.updatePaymentState
  split <;> exact .of_eq rfl rfl rfl

theorem keeps_applyOutboxUpdate (w : World) (u : OutboxUpdate) (now : Time) :
    w.Keeps (w.applyOutboxUpdate u now) := by
  refine ⟨fun _ c h => ⟨c, h, rfl, rfl⟩, fun _ d h => ⟨d, h, rfl⟩, fun k y h => ?_⟩
  simp only [World.applyOutboxUpdate, Table.find_update, h, Option.map_some]
  refine ⟨_, rfl, ?_⟩
  split
  · exact ⟨rfl, rfl, rfl, rfl, rfl⟩
  · exact .refl y

theorem keeps_saveOutbox {x y : PaymentOutbox} (hy : w.outbox.find x.id = some y) (hxy : x.ComesFrom y) :
    w.Keeps (w.saveOutbox x) := by
  refine ⟨fun _ c h => ⟨c, h, rfl, rfl⟩, fun _ d h => ⟨d, h, rfl⟩, fun k z h => ?_⟩
  have hrow : (w.saveOutbox x).outbox.find k = _ := Table.find_upsert hy k
  rw [hrow]
  by_cases hk : k = x.id
  · obtain rfl := Option.some.inj (h.symm.trans (hk ▸ hy))
    exact ⟨_, if_pos hk, rfl, rfl, rfl, rfl, hxy.requestPayload⟩
  · exact ⟨z, by rw [PaymentOutbox.key_eq, if_neg hk, h], .refl z⟩

theorem keeps_insertOutbox (w : World) (row : ℕ → PaymentOutbox) (hrow : ∀ k, (row k).id = k) :
    w.Keeps { w with outbox := w.outbox.insert row hrow } := by
  refine ⟨fun _ c h => ⟨c, h, rfl, rfl⟩, fun _ d h => ⟨d, h, rfl⟩, fun k y h => ⟨y, ?_, .refl y⟩⟩
  have hne : k ≠ w.outbox.nextKey := by
    rintro rfl
    rw [Table.find_nextKey] at h
    cases h
  simp only [Table.find_insert]
  rw [if_neg hne, h]

theorem keeps_saveCandidate {n c : RideDriverCandidate} (hc : w.candidates.find n.id = some c)
    (hr : c.rideId = n.rideId) : w.Keeps (w.saveCandidate n) := by
  have hid : c.id = n.id := Table.key_of_find hc
  unfold World.saveCandidate
  rw [hc]
  refine ⟨fun k x h => ?_, fun _ d h => ⟨d, h, rfl⟩, fun _ y h => ⟨y, h, .refl y⟩⟩
  have hfound : w.candidates.find c.id = some c := hid ▸ hc
  simp only [Table.find_put (r := { n with id := c.id, driverId := c.driverId, createdAt := c.createdAt }) hfound,
    RideDriverCandidate.key_eq]
  by_cases hk : k = c.id
  · subst hk
    obtain rfl := Option.some.inj (h.symm.trans hfound)
    exact ⟨_, if_pos rfl, hr.symm, rfl⟩
  · exact ⟨x, by rw [if_neg hk, h], rfl, rfl⟩

theorem keeps_insertRide (w : World) (options : RideCreationOptions) : w.Keeps (w.insertRide options).2 := by
  obtain hkept | ⟨filled, new, hrows, -, hinserted⟩ := insertRide_cases w options
  · rw [hkept]
    exact .of_eq rfl rfl rfl
  · rw [hinserted]
    refine ⟨fun k c h => ⟨c, ?_, rfl, rfl⟩, fun _ d h => ⟨d, h, rfl⟩, fun _ y h => ⟨y, h, .refl y⟩⟩
    obtain ⟨hmem, hid⟩ := Table.find_some.mp h
    refine Table.find_some.mpr ⟨?_, hid⟩
    rw [hrows]
    exact List.mem_append_left new hmem

/-- A call that writes rows back where they are stored keeps what they belong to. -/
theorem keeps_handle (env : Environment) {op : Call} (h : op.Identifies w) : w.Keeps (handle env op w).2 := by
  cases op with
  | updateRideRow m =>
    simp only [handle, World.updateRideRow]
    split <;> exact .of_eq rfl rfl rfl
  | claimDriver rideId d =>
    simp only [handle, World.claimDriver]
    split
    · exact .of_eq rfl rfl rfl
    split <;> exact .of_eq rfl rfl rfl
  | insertRide options => exact keeps_insertRide w options
  | saveCandidate n =>
    obtain ⟨c, hc, hr⟩ := h
    exact keeps_saveCandidate hc hr
  | updatePaymentState rideId s url => exact keeps_paymentState w rideId s url
  | saveDetail d => exact keeps_persistDetail d
  | saveDetailWithRideUpdate d u x now =>
    have hdetail := keeps_persistDetail (w := w) d
    cases u with
    | none =>
      cases x with
      | none => exact hdetail
      | some x => exact hdetail.trans (keeps_applyOutboxUpdate _ x now)
    | some u =>
      have hstate := keeps_paymentState (w.persistDetail d).2 u.rideId u.paymentStatus u.paymentUrl
      cases x with
      | none => exact hdetail.trans hstate
      | some x => exact hdetail.trans (hstate.trans (keeps_applyOutboxUpdate _ x now))
  | saveDetailAndOutbox d input =>
    exact (keeps_persistDetail d).trans (keeps_insertOutbox (w.persistDetail d).2 _ fun _ => rfl)
  | saveOutbox x =>
    obtain ⟨y, hy, hxy⟩ := h
    exact keeps_saveOutbox hy hxy
  | takePaymentJob id =>
    simp only [handle, World.takePaymentJob]
    split
    · split <;> exact .of_eq rfl rfl rfl
    · exact .of_eq rfl rfl rfl
  | finishPaymentJob id ok =>
    simp only [handle, World.finishPaymentJob]
    split <;> exact .of_eq rfl rfl rfl
  | _ => exact .of_eq rfl rfl rfl

/-- What a call reads is in the store after it. -/
theorem Trail.Fits.reads {t t' : Trail} {env : Environment} {op : Call} (h : t.Fits w)
    (hk : w.Keeps (handle env op w).2) (hr : t.Reads w op t') : t'.Fits (handle env op w).2 := by
  have hold := h.kept hk
  cases hr with
  | row hc =>
    refine ⟨fun x hx => ?_, hold.outbox⟩
    rcases List.mem_cons.mp hx with rfl | hx
    · exact hk.candidates _ _ (Table.find_some.mpr ⟨(World.mem_of_findCandidate hc).1, rfl⟩)
    · exact hold.rows x hx
  | rows =>
    refine ⟨fun x hx => ?_, hold.outbox⟩
    rcases List.mem_append.mp hx with hx | hx
    · exact hk.candidates _ _ (Table.find_some.mpr ⟨(mem_findCandidates.mp hx).1, rfl⟩)
    · exact hold.rows x hx
  | outbox hy =>
    refine ⟨hold.rows, fun x hx => ?_⟩
    rcases List.mem_cons.mp hx with rfl | hx
    · exact hk.outbox _ _ (Table.find_some.mpr ⟨(Table.find_some.mp hy).1, rfl⟩)
    · exact hold.outbox x hx
  | @saved d input =>
    refine ⟨hold.rows, fun x hx => ?_⟩
    rcases List.mem_cons.mp hx with rfl | hx
    · refine ⟨_, ?_, .refl _⟩
      exact Table.find_some.mpr ⟨Table.mem_insert.mpr (.inr rfl), rfl⟩
    · exact hold.outbox x hx
  | _ => exact ⟨hold.rows, hold.outbox⟩

/-- An operation writes rows back where they are stored. -/
theorem RideOp.Tends.identifies {rop : RideOp} {t : Trail} {op : Call} (h : rop.Tends t op) (hf : t.Fits w) :
    op.Identifies w := by
  have hsaved {x : PaymentOutbox} (hx : ∃ y ∈ t.outbox, x.ComesFrom y) :
      ∃ y, w.outbox.find x.id = some y ∧ x.ComesFrom y := by
    obtain ⟨y, hy, hxy⟩ := hx
    obtain ⟨z, hz, hzy⟩ := hf.outbox y hy
    exact ⟨z, hxy.id ▸ hz, hxy.trans hzy.symm⟩
  cases op with
  | saveCandidate n =>
    cases rop with
    | lifecycle lop =>
      obtain ⟨-, -, c, hc, hid, hride, -⟩ := h
      obtain ⟨x, hx, hr, -⟩ := hf.rows c hc
      exact ⟨x, hid ▸ hx, hr.trans hride.symm⟩
    | _ => exact h.elim
  | saveOutbox x =>
    cases rop with
    | lifecycle lop => exact (LifecycleOp.attends_some h).elim fun _ ha => ha.elim
    | proceedRidePayment => exact hsaved h
    | processOutbox => exact hsaved h
    | handlePaymentNotification => exact h.elim
  | _ => trivial

/-- A row of the outbox that was not there is one that a payment has queued. -/
theorem outbox_new (env : Environment) {op : Call} (h : op.Identifies w) {k : Id} {x : PaymentOutbox}
    (hx : (handle env op w).2.outbox.find k = some x) (hnew : w.outbox.find k = none) :
    ∃ d input, op = .saveDetailAndOutbox d input ∧ x = (w.saveDetailAndOutbox d input).1.2 := by
  have hsame (he : (handle env op w).2.outbox = w.outbox) : False := by
    rw [he, hnew] at hx
    cases hx
  have hupdate (v : World) (u : OutboxUpdate) (now : Time) (hv : v.outbox = w.outbox)
      (he : (handle env op w).2.outbox = (v.applyOutboxUpdate u now).outbox) : False := by
    rw [he] at hx
    simp only [World.applyOutboxUpdate, Table.find_update, hv, hnew, Option.map_none] at hx
    cases hx
  cases op with
  | updateRideRow m =>
    refine (hsame ?_).elim
    simp only [handle, World.updateRideRow]
    split <;> rfl
  | claimDriver rideId d =>
    refine (hsame ?_).elim
    simp only [handle, World.claimDriver]
    split
    · rfl
    split <;> rfl
  | insertRide options =>
    refine (hsame ?_).elim
    change (w.insertRide options).2.outbox = w.outbox
    obtain h | ⟨_, _, -, -, h⟩ := insertRide_cases w options <;> rw [h]
  | saveCandidate n =>
    refine (hsame ?_).elim
    simp only [handle, World.saveCandidate]
    split <;> rfl
  | updatePaymentState rideId s url => exact (hsame (updatePaymentState_tables w rideId s url).2.1).elim
  | saveDetail d => exact (hsame (persistDetail_outbox d)).elim
  | saveDetailWithRideUpdate d u x now =>
    have hdetail : (w.persistDetail d).2.outbox = w.outbox := persistDetail_outbox d
    cases u with
    | none =>
      cases x with
      | none => exact (hsame hdetail).elim
      | some x => exact (hupdate _ x now hdetail rfl).elim
    | some u =>
      have hstate := (updatePaymentState_tables (w.persistDetail d).2 u.rideId u.paymentStatus u.paymentUrl).2.1
      cases x with
      | none => exact (hsame (hstate.trans hdetail)).elim
      | some x => exact (hupdate _ x now (hstate.trans hdetail) rfl).elim
  | saveDetailAndOutbox d input =>
    obtain ⟨hmem, hid⟩ := Table.find_some.mp hx
    refine ⟨d, input, rfl, ?_⟩
    rcases Table.mem_insert.mp hmem with hold | hrow
    · have hold : x ∈ (w.persistDetail d).2.outbox.rows := hold
      rw [persistDetail_outbox] at hold
      have hfound : w.outbox.find k = some x := Table.find_some.mpr ⟨hold, hid⟩
      rw [hnew] at hfound
      cases hfound
    · exact hrow
  | saveOutbox y =>
    obtain ⟨z, hz, -⟩ := h
    have hrow : (w.saveOutbox y).outbox.find k = _ := Table.find_upsert hz k
    change (w.saveOutbox y).outbox.find k = some x at hx
    rw [hrow, hnew] at hx
    by_cases hk : k = y.id
    · rw [hk, hz] at hnew
      cases hnew
    · rw [PaymentOutbox.key_eq, if_neg hk] at hx
      cases hx
  | takePaymentJob id =>
    refine (hsame ?_).elim
    simp only [handle, World.takePaymentJob]
    split
    · split <;> rfl
    · rfl
  | finishPaymentJob id ok =>
    refine (hsame ?_).elim
    simp only [handle, World.finishPaymentJob]
    split <;> rfl
  | _ => exact (hsame rfl).elim

theorem persistDetail_stored (w : World) (d : RidePaymentDetail) :
    (w.persistDetail d).2.details.find (w.persistDetail d).1.id = some (w.persistDetail d).1 ∧
      (w.persistDetail d).1.rideId = d.rideId := by
  unfold World.persistDetail
  cases hstored : w.findDetailByRide d.rideId with
  | some stored =>
    have hfound : w.details.find stored.id = some stored :=
      Table.find_some.mpr ⟨(mem_of_findDetailByRide hstored).1, rfl⟩
    refine ⟨?_, rfl⟩
    simp only [Table.find_put (r := { d with id := stored.id }) hfound, RidePaymentDetail.key_eq, if_true]
  | none =>
    refine ⟨?_, rfl⟩
    simp only [Table.find_insert, if_true]

theorem World.Tied.handle (env : Environment) (h : w.Tied) {op : Call} (hop : op.Identifies w) :
    (handle env op w).2.Tied := by
  have hk := keeps_handle env hop
  intro k x hx
  cases hold : w.outbox.find k with
  | some y =>
    obtain ⟨x', hx', hxy⟩ := hk.outbox k y hold
    obtain rfl := Option.some.inj (hx.symm.trans hx')
    obtain ⟨d, hfound, hride⟩ := h k y hold
    obtain ⟨d', hfound', hride'⟩ := hk.details _ d hfound
    exact ⟨d', hxy.paymentDetailId ▸ hfound', hride'.trans (hride.trans hxy.rideId.symm)⟩
  | none =>
    obtain ⟨d, input, rfl, rfl⟩ := outbox_new env hop hx hold
    obtain ⟨hstored, -⟩ := persistDetail_stored w d
    exact ⟨(w.persistDetail d).1, hstored, rfl⟩

end Keeps

section Reached

variable {ι : Type} [DecidableEq ι] {env : Environment} {ops : ι → RideOp}
  {c : Pool ι Call Call.Answer ServiceError Unit World}

/-- What holds of every pool of operations on rides. -/
structure RowsHold (env : Environment) (ops : ι → RideOp) (c : Pool ι Call Call.Answer ServiceError Unit World) :
    Prop where
  tracks : AllTrack env ops c
  fits : ∀ i, (trailOf c i).Fits c.store
  tied : c.store.Tied

theorem RowsHold.step (h : RowsHold env ops c) (i : ι) : RowsHold env ops (c.step (handle env) i) := by
  obtain ⟨-, hs⟩ | ⟨op, next, hi, hs⟩ := c.step_cases (handle env) i
  · rwa [hs]
  have hop : op.Identifies c.store := (h.tracks.tends hi).identifies (h.fits i)
  have hstore : (c.step (handle env) i).store = (handle env op c.store).2 := congrArg Pool.store hs
  refine ⟨h.tracks.step i, fun j => ?_, ?_⟩
  · rw [hstore]
    obtain he | ⟨-, hreads⟩ := trailOf_step env hi j
    · rw [he]
      exact (h.fits j).kept (keeps_handle env hop)
    · exact (h.fits j).reads (keeps_handle env hop) hreads
  · rw [hstore]
    exact h.tied.handle env hop

theorem tied_exec (env : Environment) (ops : ι → RideOp) {w : World} (h : w.Tied) (sched : List ι) :
    ((Pool.start (rideCalls env ops) w).exec (handle env) sched).store.Tied := by
  have hstart : RowsHold env ops (Pool.start (rideCalls env ops) w) := by
    exact ⟨AllTrack.start w, fun i => Trail.fits_empty w, h⟩
  have hend : RowsHold env ops ((Pool.start (rideCalls env ops) w).exec (handle env) sched) :=
    Runs.invariant (fun c i h _ => h.step i) hstart (Runs.meets_true _ sched)
  exact hend.tied

theorem tied_initial (whitelist : List String) : (World.initial whitelist).Tied := by
  intro k x hx
  cases hx

end Reached

section Alone

variable {env : Environment} {w v : World} {k : Id} {rop : RideOp} {t t' : Trail} {op : Call}

/-- The ride that an operation is about: the next one for a creation, the one of its outbox
row for the work of the queue, the one with its order for a notification. -/
def RideOp.ride (w : World) : RideOp → Option Id
  | lifecycle op => some (op.ride.getD w.rides.nextKey)
  | proceedRidePayment rideId _ => some rideId
  | processOutbox outboxId _ _ => (w.outbox.find outboxId).map (·.rideId)
  | handlePaymentNotification payload _ _ =>
    payload.orderId.bind fun orderId => (w.findDetailByOrder orderId).map (·.rideId)

def RideOp.step (env : Environment) (w : World) (op : RideOp) : World :=
  ((op.program env).run (handle env) w).2

/-- An operation on another ride than `k`, begun in `w`, has come to trail `t` and store `v`. -/
structure RideOp.Stays (rop : RideOp) (k : Id) (w : World) (t : Trail) (v : World) : Prop where
  fits : t.Fits v
  tied : v.Tied
  record : v.recordOf k = w.recordOf k
  uncreated : t.created = false → v.rides.nextKey = w.rides.nextKey
  unread : (∃ payload sourceIp now, rop = .handlePaymentNotification payload sourceIp now) →
    t.ordered = [] → v.details = w.details
  outbox : ∀ y ∈ t.outbox, y.rideId ≠ k
  details : (∃ outboxId startedAt endedAt, rop = .processOutbox outboxId startedAt endedAt) →
    ∀ d ∈ t.details, d.rideId ≠ k
  ordered : ∀ p ∈ t.ordered, p.2.rideId ≠ k

theorem mem_outbox_record (h : v.recordOf k = w.recordOf k) {x : PaymentOutbox} (hx : x ∈ v.outbox.rows)
    (hr : x.rideId = k) : x ∈ w.outbox.rows := by
  have hrow : x ∈ (v.recordOf k).outbox := Table.mem_select.mpr ⟨hx, by simpa using hr⟩
  rw [h] at hrow
  exact (Table.mem_select.mp hrow).1

/-- The next call is about other rides. -/
theorem RideOp.Stays.spares (h : rop.Stays k w t v) (hk : rop.ride w ≠ some k) (htends : rop.Tends t op) :
    op.Spares v k := by
  cases rop with
  | lifecycle lop =>
    have hown {rid : Id} (hr : lop.ride = some rid) : rid ≠ k := by
      rintro rfl
      exact hk (by simp [RideOp.ride, hr])
    have hattends (hop : ∀ k, lop.ride.getD k = k → op.Attends k) : op.Spares v k := by
      cases hr : lop.ride with
      | some rid =>
        have ha := hop rid (by rw [hr]; rfl)
        cases op <;> first | exact ha ▸ hown hr | trivial
      | none =>
        have ha := hop (k + 1) (by rw [hr]; rfl)
        cases op <;> first | exact ha ▸ Nat.succ_ne_self k | trivial
    cases op with
    | updateRideRow m => exact hown htends.1
    | claimDriver rideId d => exact hown htends
    | saveHistory entry => exact hown htends
    | insertRide options =>
      change v.rides.nextKey ≠ k
      rw [h.uncreated htends.2]
      rintro rfl
      exact hk (by simp [RideOp.ride, htends.1])
    | saveCandidate n =>
      have hne := hown htends.1
      refine ⟨hne, fun x hx => ?_⟩
      obtain ⟨c, hc, hid, hride, -⟩ := htends.2.2
      obtain ⟨y, hy, hr, -⟩ := h.fits.rows c hc
      obtain rfl := Option.some.inj (hx.symm.trans (hid ▸ hy))
      rw [hr, ← hride]
      exact hne
    | findRide | findCandidate | findCandidates | findUnfinishedRide | requestRoute | nearbyDrivers => trivial
    | _ => exact hattends htends
  | proceedRidePayment rid riderId =>
    have hne : rid ≠ k := fun he => hk (congrArg some he)
    cases op with
    | updatePaymentState => exact htends.1 ▸ hne
    | saveDetailAndOutbox d input =>
      have hd : d.rideId = rid := htends.2.2.1
      exact fun he => hne (hd.symm.trans he)
    | saveOutbox x =>
      obtain ⟨y, hy, hxy⟩ := htends
      obtain ⟨z, hz, hzy⟩ := h.fits.outbox y hy
      exact ⟨z, hxy.id ▸ hz, hzy.rideId ▸ h.outbox y hy⟩
    | findPaymentRide | findDetailByRide | findDetail | addPaymentJob | waitPaymentJob | generateOrderId => trivial
    | _ => exact htends.elim
  | processOutbox outboxId startedAt endedAt =>
    cases op with
    | saveDetail d =>
      obtain ⟨d', hd', -, -, hr, -⟩ := htends
      have hne := h.details ⟨_, _, _, rfl⟩ d' hd'
      exact fun he => hne (hr.symm.trans he)
    | saveOutbox x =>
      obtain ⟨y, hy, hxy⟩ := htends
      obtain ⟨z, hz, hzy⟩ := h.fits.outbox y hy
      exact ⟨z, hxy.id ▸ hz, hzy.rideId ▸ h.outbox y hy⟩
    | findOutbox | findDetail | post | takePaymentJob | finishPaymentJob => trivial
    | _ => exact htends.elim
  | handlePaymentNotification payload sourceIp now =>
    cases op with
    | saveDetailWithRideUpdate d u x now =>
      obtain ⟨-, orderId, found, -, hfound, hd, -, hu, hx⟩ := htends
      have hne := h.ordered _ hfound
      exact ⟨hd ▸ hne, fun u hu' => (hu u hu').1 ▸ hne, fun x hx' => ⟨found.rideId, hx x hx', hne⟩⟩
    | isIpAllowed | findDetailByOrder | findRide | emit => trivial
    | _ => exact htends.elim

theorem nextKey_handle (env : Environment) (h : ∀ options, op ≠ .insertRide options) :
    (handle env op v).2.rides.nextKey = v.rides.nextKey := by
  obtain he | ⟨x, he⟩ := handle_rides (w := v) env h
  · rw [he]
  · rw [he, Table.nextKey_put]

/-- One call of an operation on another ride. -/
theorem RideOp.Stays.step (h : rop.Stays k w t v) (hk : rop.ride w ≠ some k) (htends : rop.Tends t op)
    (hreads : t.Reads v op t') : rop.Stays k w t' (handle env op v).2 := by
  have hop := htends.identifies h.fits
  refine ⟨h.fits.reads (keeps_handle env hop) hreads, h.tied.handle env hop,
    (recordOf_handle env (h.spares hk htends)).trans h.record, ?_, ?_, ?_, ?_, ?_⟩
  · intro hc
    by_cases hins : ∃ options, op = .insertRide options
    · obtain ⟨options, rfl⟩ := hins
      cases hreads with
      | nothing hno => exact absurd rfl (hno options)
      | created => cases hc
      | uncreated hkept =>
        change (v.insertRide options).2.rides.nextKey = _
        rw [hkept]
        exact h.uncreated hc
    · rw [nextKey_handle env fun options he => hins ⟨options, he⟩]
      cases hreads <;> first | exact h.uncreated hc | exact absurd ⟨_, rfl⟩ hins
  · rintro ⟨payload, sourceIp, now, rfl⟩ ho
    have hbefore : t.ordered = [] := by
      cases hreads <;> first | exact ho | cases ho
    have hsame := h.unread ⟨payload, sourceIp, now, rfl⟩ hbefore
    cases op with
    | saveDetailWithRideUpdate =>
      obtain ⟨-, orderId, found, -, hfound, -⟩ := htends
      rw [hbefore] at hfound
      cases hfound
    | isIpAllowed | findDetailByOrder | findRide | emit => exact hsame
    | _ => exact htends.elim
  · intro y hy
    cases hreads with
    | @outbox oid x hx =>
      rcases List.mem_cons.mp hy with rfl | hy
      · cases rop with
        | processOutbox outboxId startedAt endedAt =>
          obtain rfl : oid = outboxId := htends
          intro hr
          obtain ⟨hmem, hid⟩ := Table.find_some.mp hx
          have hfirst : w.outbox.find oid = some y := Table.find_some.mpr ⟨mem_outbox_record h.record hmem hr, hid⟩
          exact hk (by simp [RideOp.ride, hfirst, hr])
        | lifecycle lop => exact (LifecycleOp.attends_some htends).elim fun _ ha => ha.elim
        | _ => exact htends.elim
      · exact h.outbox y hy
    | @saved d input =>
      rcases List.mem_cons.mp hy with rfl | hy
      · cases rop with
        | proceedRidePayment rid riderId =>
          have hr : (v.persistDetail d).1.rideId = rid := (persistDetail_stored v d).2.trans htends.2.2.1
          intro he
          exact hk (congrArg some (hr.symm.trans he))
        | lifecycle lop => exact (LifecycleOp.attends_some htends).elim fun _ ha => ha.elim
        | _ => exact htends.elim
      · exact h.outbox y hy
    | _ => exact h.outbox y hy
  · rintro ⟨outboxId, startedAt, endedAt, rfl⟩ d hd
    have hold := h.details ⟨outboxId, startedAt, endedAt, rfl⟩
    cases hreads with
    | @detail j x hx =>
      rcases List.mem_cons.mp hd with rfl | hd
      · obtain ⟨y, hy, rfl⟩ := htends
        obtain ⟨z, hz, hzy⟩ := h.fits.outbox y hy
        obtain ⟨d', hd', hride⟩ := h.tied _ z hz
        rw [hzy.paymentDetailId, hx, Option.some.injEq] at hd'
        rw [hd', hride, hzy.rideId]
        exact h.outbox y hy
      · exact hold d hd
    | _ => exact hold d hd
  · intro p hp
    cases hreads with
    | @order o d hd =>
      rcases List.mem_cons.mp hp with rfl | hp
      · cases rop with
        | handlePaymentNotification payload sourceIp now =>
          obtain ⟨ho, hnone⟩ := htends
          have hsame : w.findDetailByOrder o = some d := by
            rw [← hd, World.findDetailByOrder, World.findDetailByOrder, h.unread ⟨_, _, _, rfl⟩ hnone]
          intro he
          have hride : d.rideId = k := he
          exact hk (by simp [RideOp.ride, ho, hsame, hride])
        | lifecycle lop => exact (LifecycleOp.attends_some htends).elim fun _ ha => ha.elim
        | _ => exact htends.elim
      · exact h.ordered p hp
    | _ => exact h.ordered p hp

/-- An operation leaves the records of the rides that it is not about as they are. -/
theorem RideOp.recordOf_step (env : Environment) (rop : RideOp) (htied : w.Tied) (hk : rop.ride w ≠ some k) :
    (rop.step env w).recordOf k = w.recordOf k := by
  have hstart : rop.Stays k w .empty w := by
    refine ⟨Trail.fits_empty w, htied, rfl, fun _ => rfl, fun _ _ => rfl, ?_, ?_, ?_⟩
    · intro y hy
      cases hy
    · intro _ d hd
      cases hd
    · intro p hp
      cases hp
  have hrun : ∃ t, True ∧ rop.Stays k w t (rop.step env w) := by
    refine (rop.tracks env).run_keeps (fun _ _ _ => trivial) ?_ hstart
    rintro t op v t' h ⟨rfl, htends⟩
    exact h.step hk htends (Trail.reads env v t op)
  obtain ⟨t, -, hend⟩ := hrun
  exact hend.record

end Alone

end NebLite
