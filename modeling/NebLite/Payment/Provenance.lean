import NebLite.Payment.RideOps
import NebLite.Payment.Webhooks

/-! Where the status PAID of a ride comes from, whatever runs concurrently on rides. -/

namespace NebLite

open Atomic

/-- The source address is on the whitelist: as it is but for white space around it, or as
its IPv4-mapped or unmapped form. -/
def World.Whitelists (w : World) (sourceIp : String) : Prop :=
  ∃ ip ∈ w.whitelist, ip = trim sourceIp ∨ ip = "::ffff:" ++ trim sourceIp ∨ trim sourceIp = "::ffff:" ++ ip

/-- The operation is a notification from a listed address which reports that the order
`orderId` has been paid. -/
inductive RideOp.ReportsPaid (w : World) (orderId : OrderId) : RideOp → Prop
  | mk {payload sourceIp now status} : w.Whitelists sourceIp → payload.orderId = some orderId →
      payload.transactionStatus = some status →
      status.toLower ∈ ["capture", "settlement", "success", "completed"] →
      ReportsPaid w orderId (.handlePaymentNotification payload sourceIp now)

variable {ι : Type} {env : Environment} {ops : ι → RideOp} {w : World}
  {trace : List (ι × Event Call Call.Answer ServiceError)} {rid : Id}

/-- Some process of the run reports an order as paid, and has found it as the order of the
ride's payment detail. -/
def PaidBy (w : World) (ops : ι → RideOp) (trace : List (ι × Event Call Call.Answer ServiceError)) (rid : Id) :
    Prop :=
  ∃ i orderId d, (ops i).ReportsPaid w orderId ∧ (i, ⟨.findDetailByOrder orderId, .ok (some d)⟩) ∈ trace ∧
    d.rideId = rid ∧ d.orderId = some orderId

theorem PaidBy.cons (h : PaidBy w ops trace rid) (e : ι × Event Call Call.Answer ServiceError) :
    PaidBy w ops (e :: trace) rid := by
  obtain ⟨i, orderId, d, hreports, hread, hd⟩ := h
  exact ⟨i, orderId, d, hreports, List.mem_cons_of_mem e hread, hd⟩

theorem whitelists_of_mem {sourceIp ip : String} (hip : ip ∈ w.whitelist)
    (h : ip ∈ normalizeIpAddresses sourceIp) : w.Whitelists sourceIp := by
  refine ⟨ip, hip, ?_⟩
  unfold normalizeIpAddresses at h
  simp only at h
  split at h
  · cases h
  split at h
  · next hprefix =>
    rcases List.mem_cons.mp h with rfl | h
    · exact .inl rfl
    · obtain rfl := List.mem_singleton.mp h
      obtain ⟨rest, hrest⟩ := List.isPrefixOf_iff_prefix.mp hprefix
      refine .inr (.inr ?_)
      apply String.toList_injective
      rw [← hrest, List.drop_left, toList_mapped, String.toList_ofList]
  split at h
  · rcases List.mem_cons.mp h with rfl | h
    · exact .inl rfl
    · exact .inr (.inl (List.mem_singleton.mp h))
  · exact .inl (List.mem_singleton.mp h)

theorem successful_text {status : Option String}
    (h : isSuccessfulPaymentStatus (normalizePaymentStatus status) = true) :
    ∃ s, status = some s ∧ s.toLower ∈ ["capture", "settlement", "success", "completed"] := by
  cases status with
  | none => cases h
  | some s =>
    refine ⟨s, rfl, ?_⟩
    unfold normalizePaymentStatus at h
    simp only at h
    cases hf : paymentDetailStatuses.find? fun t => t.text == s.toLower with
    | none =>
      rw [hf] at h
      cases h
    | some t =>
      have ht : t.text = s.toLower := by simpa using List.find?_some hf
      rw [hf] at h
      rw [← ht]
      have hall : ∀ t, isSuccessfulPaymentStatus t = true →
          t.text ∈ ["capture", "settlement", "success", "completed"] := by
        intro t h
        cases t <;> first | (cases h; done) | decide
      exact hall t h

/-- A row is PAID after a call because it was before, or the call writes it. -/
theorem Call.onRide_paid {op : Call} {r : Ride} (h : (op.onRide r).paymentStatus = some .paid) :
    r.paymentStatus = some .paid ∨ (∃ m, op = .updateRideRow m ∧ m.id = r.id ∧ m.paymentStatus = some .paid) ∨
    (∃ url, op = .updatePaymentState r.id (some .paid) url) ∨
    ∃ d u x now, op = .saveDetailWithRideUpdate d (some u) x now ∧ u.rideId = r.id := by
  cases op with
  | updateRideRow m =>
    simp only [Call.onRide] at h
    split at h
    · next hid => exact .inr (.inl ⟨m, rfl, hid, h⟩)
    · exact .inl h
  | claimDriver rideId d =>
    simp only [Call.onRide] at h
    split at h <;> exact .inl h
  | updatePaymentState k s url =>
    simp only [Call.onRide] at h
    split at h
    · next hid =>
      obtain rfl : s = some .paid := h
      subst hid
      exact .inr (.inr (.inl ⟨url, rfl⟩))
    · exact .inl h
  | saveDetailWithRideUpdate d u x now =>
    cases u with
    | none => exact .inl h
    | some u =>
      simp only [Call.onRide] at h
      split at h
      · next hid => exact .inr (.inr (.inr ⟨d, u, x, now, rfl, hid⟩))
      · exact .inl h
  | _ => exact .inl h

theorem persistDetail_whitelist (w : World) (d : RidePaymentDetail) :
    (w.persistDetail d).2.whitelist = w.whitelist := by
  unfold World.persistDetail
  split <;> rfl

theorem saveDetailWithRideUpdate_whitelist (w : World) (d : RidePaymentDetail) (u : Option RidePaymentUpdate)
    (x : Option OutboxUpdate) (now : Time) :
    (w.saveDetailWithRideUpdate d u x now).2.whitelist = w.whitelist := by
  have hstate (v : World) (u : RidePaymentUpdate) : (v.applyRideUpdate u).whitelist = v.whitelist :=
    (updatePaymentState_tables v u.rideId u.paymentStatus u.paymentUrl).2.2
  cases u with
  | none => cases x <;> exact persistDetail_whitelist w d
  | some u => cases x <;> exact (hstate _ u).trans (persistDetail_whitelist w d)

theorem handle_whitelist (env : Environment) (op : Call) (w : World) :
    (handle env op w).2.whitelist = w.whitelist := by
  cases op with
  | updateRideRow m =>
    simp only [handle, World.updateRideRow]
    split <;> rfl
  | claimDriver k d =>
    simp only [handle, World.claimDriver]
    split
    · rfl
    split <;> rfl
  | insertRide options =>
    change (w.insertRide options).2.whitelist = _
    obtain h | ⟨_, _, -, -, h⟩ := insertRide_cases w options <;> rw [h]
  | saveCandidate n =>
    simp only [handle, World.saveCandidate]
    split <;> rfl
  | updatePaymentState k s url => exact (updatePaymentState_tables w k s url).2.2
  | saveDetail d => exact persistDetail_whitelist w d
  | saveDetailWithRideUpdate d u x now => exact saveDetailWithRideUpdate_whitelist w d u x now
  | saveDetailAndOutbox d input => exact persistDetail_whitelist w d
  | takePaymentJob id =>
    simp only [handle, World.takePaymentJob]
    split
    · split <;> rfl
    · rfl
  | finishPaymentJob id ok =>
    simp only [handle, World.finishPaymentJob]
    split <;> rfl
  | _ => rfl

variable [DecidableEq ι] {c : Pool ι Call Call.Answer ServiceError Unit World}

/-- What is known of every PAID row and every PAID snapshot of a row, and of the
notifications under way. -/
structure PaidKnown (env : Environment) (w : World) (ops : ι → RideOp)
    (c : Pool ι Call Call.Answer ServiceError Unit World) : Prop where
  tracks : AllTrack env ops c
  whitelist : c.store.whitelist = w.whitelist
  rows : ∀ r ∈ c.store.rides.rows, r.paymentStatus = some .paid → PaidBy w ops c.trace r.id
  snapshots : ∀ i, ∀ r ∈ (trailOf c i).rides, r.paymentStatus = some .paid → PaidBy w ops c.trace r.id
  allowed : ∀ i payload sourceIp now, ops i = .handlePaymentNotification payload sourceIp now →
    (trailOf c i).allowed = true → w.Whitelists sourceIp
  ordered : ∀ i orderId d, (orderId, d) ∈ (trailOf c i).ordered →
    (i, ⟨.findDetailByOrder orderId, .ok (some d)⟩) ∈ c.trace ∧ d.orderId = some orderId

/-- An operation that writes PAID has a PAID snapshot of the row, or is a notification
that reports the order of the ride. -/
theorem PaidKnown.writes (h : PaidKnown env w ops c) {i : ι} {op : Call}
    {next : Except ServiceError op.Answer → Service Unit} (hi : c.procs i = .call op next) {r : Ride}
    (hr : r ∈ c.store.rides.rows) (hpaid : (op.onRide r).paymentStatus = some .paid) :
    PaidBy w ops c.trace r.id := by
  have htends := h.tracks.tends hi
  obtain hpaid | ⟨m, rfl, hid, hpaid⟩ | ⟨url, rfl⟩ | ⟨d, u, x, now, rfl, hid⟩ := Call.onRide_paid hpaid
  · exact h.rows r hr hpaid
  · cases hop : ops i with
    | lifecycle lop =>
      rw [hop] at htends
      obtain ⟨-, ⟨s, hs, hsid, hsame | hpending⟩, -⟩ := htends
      · rw [← hid, ← hsid]
        exact h.snapshots i s hs (hsame ▸ hpaid)
      · rw [hpending] at hpaid
        cases hpaid
    | _ =>
      rw [hop] at htends
      exact htends.elim
  · cases hop : ops i with
    | proceedRidePayment rideId riderId =>
      rw [hop] at htends
      obtain ⟨-, hs⟩ := htends
      cases hs
    | lifecycle lop =>
      rw [hop] at htends
      exact (LifecycleOp.attends_some htends).elim fun _ ha => ha.elim
    | _ =>
      rw [hop] at htends
      exact htends.elim
  · cases hop : ops i with
    | handlePaymentNotification payload sourceIp now =>
      rw [hop] at htends
      obtain ⟨hallowed, orderId, found, horder, hfound, -, -, hupdate, -⟩ := htends
      obtain ⟨hride, hsuccess⟩ := hupdate u rfl
      obtain ⟨hread, hd⟩ := h.ordered i orderId found hfound
      obtain ⟨status, hstatus, htext⟩ := successful_text hsuccess
      have hlisted := h.allowed i payload sourceIp now hop hallowed
      have hreports : (ops i).ReportsPaid w orderId := hop ▸ .mk hlisted horder hstatus htext
      exact ⟨i, orderId, found, hreports, hread, hride.symm.trans hid, hd⟩
    | lifecycle lop =>
      rw [hop] at htends
      exact (LifecycleOp.attends_some htends).elim fun _ ha => ha.elim
    | _ =>
      rw [hop] at htends
      exact htends.elim

theorem PaidKnown.step (h : PaidKnown env w ops c) (i : ι) : PaidKnown env w ops (c.step (handle env) i) := by
  obtain ⟨-, hs⟩ | ⟨op, next, hi, hs⟩ := c.step_cases (handle env) i
  · rwa [hs]
  have htends := h.tracks.tends hi
  have hstore : (c.step (handle env) i).store = (handle env op c.store).2 := congrArg Pool.store hs
  have htrace : (c.step (handle env) i).trace = (i, ⟨op, (handle env op c.store).1⟩) :: c.trace :=
    congrArg Pool.trace hs
  have hold {k : Id} (hk : PaidBy w ops c.trace k) : PaidBy w ops (c.step (handle env) i).trace k := by
    rw [htrace]
    exact hk.cons _
  refine ⟨h.tracks.step i, ?_, ?_, ?_, ?_, ?_⟩
  · rw [hstore, handle_whitelist]
    exact h.whitelist
  · intro r hr hpaid
    rw [hstore] at hr
    apply hold
    by_cases hop : ∃ options, op = .insertRide options
    · obtain ⟨options, rfl⟩ := hop
      change r ∈ (c.store.insertRide options).2.rides.rows at hr
      obtain hkept | ⟨_, _, -, -, hnew⟩ := insertRide_cases c.store options
      · rw [hkept] at hr
        exact h.rows r hr hpaid
      · rw [hnew] at hr
        have hrow := (@Table.mem_insert _ _ c.store.rides (World.newRide options.ride options.now) (fun _ => rfl) r).mp hr
        rcases hrow with hr | rfl
        · exact h.rows r hr hpaid
        · cases hpaid
    · obtain ⟨x, hx, rfl⟩ := (mem_handle env fun options he => hop ⟨options, he⟩).mp hr
      rw [Call.onRide_id]
      exact h.writes hi hx hpaid
  · intro j r hr hpaid
    apply hold
    obtain he | ⟨rfl, hreads⟩ := trailOf_step env hi j
    · rw [he] at hr
      exact h.snapshots j r hr hpaid
    · generalize trailOf (c.step (handle env) i) i = t at hreads hr
      cases hreads with
      | ride hx =>
        rcases List.mem_cons.mp hr with rfl | hr
        · exact h.rows _ (Table.find_some.mp hx).1 hpaid
        · exact h.snapshots i r hr hpaid
      | paymentRide hx =>
        rcases List.mem_cons.mp hr with rfl | hr
        · obtain ⟨y, hy, rfl⟩ := Option.map_eq_some_iff.mp hx
          exact h.rows y (Table.find_some.mp hy).1 hpaid
        · exact h.snapshots i r hr hpaid
      | _ => exact h.snapshots i r hr hpaid
  · intro j payload sourceIp now hop hallowed
    obtain he | ⟨rfl, hreads⟩ := trailOf_step env hi j
    · rw [he] at hallowed
      exact h.allowed j payload sourceIp now hop hallowed
    · generalize trailOf (c.step (handle env) i) i = t at hreads hallowed
      cases hreads with
      | @allowed addresses hip =>
        rw [hop] at htends
        obtain rfl : addresses = normalizeIpAddresses sourceIp := htends
        obtain ⟨ip, hlisted, hip⟩ := List.any_eq_true.mp hip
        rw [h.whitelist] at hlisted
        have hmem : ip ∈ (normalizeIpAddresses sourceIp).filter fun a => !a.isEmpty := by simpa using hip
        exact whitelists_of_mem hlisted (List.mem_filter.mp hmem).1
      | _ => exact h.allowed i payload sourceIp now hop hallowed
  · intro j orderId d hd
    rw [htrace]
    obtain he | ⟨rfl, hreads⟩ := trailOf_step env hi j
    · rw [he] at hd
      exact ⟨List.mem_cons_of_mem _ (h.ordered j orderId d hd).1, (h.ordered j orderId d hd).2⟩
    · generalize trailOf (c.step (handle env) i) i = t at hreads hd
      have hbefore (hd : (orderId, d) ∈ (trailOf c i).ordered) :=
        And.intro (List.mem_cons_of_mem (i, ⟨op, (handle env op c.store).1⟩) (h.ordered i orderId d hd).1)
          (h.ordered i orderId d hd).2
      cases hreads with
      | order hx =>
        rcases List.mem_cons.mp hd with he | hd
        · obtain ⟨rfl, rfl⟩ := Prod.mk.inj he
          refine ⟨?_, by simpa using List.find?_some hx⟩
          simp only [handle, hx]
          exact List.mem_cons_self
        · exact hbefore hd
      | _ => exact hbefore hd

/-- A PAID ride has been reported paid, under the order of its payment detail, by a
notification from a listed address. -/
theorem paid_provenance (env : Environment) (ops : ι → RideOp) (w : World)
    (hunpaid : ∀ r ∈ w.rides.rows, r.paymentStatus ≠ some .paid) (sched : List ι) (r : Ride)
    (hr : r ∈ ((Pool.start (rideCalls env ops) w).exec (handle env) sched).store.rides.rows)
    (hpaid : r.paymentStatus = some .paid) :
    PaidBy w ops ((Pool.start (rideCalls env ops) w).exec (handle env) sched).trace r.id := by
  have hstart : PaidKnown env w ops (Pool.start (rideCalls env ops) w) := by
    refine ⟨AllTrack.start w, rfl, fun r hr hp => absurd hp (hunpaid r hr), ?_, ?_, ?_⟩
    · intro i r hr
      cases hr
    · intro i payload sourceIp now _ h
      cases h
    · intro i orderId d h
      cases h
  have hend : PaidKnown env w ops ((Pool.start (rideCalls env ops) w).exec (handle env) sched) :=
    Runs.invariant (fun c i h _ => h.step i) hstart (Runs.meets_true _ sched)
  exact hend.rows r hr hpaid

/-- The rider pays, and the provider notifies the settlement of the order. -/
def payAndSettle (i : Fin 2) : RideOp :=
  match i with
  | 0 => .proceedRidePayment 1 1
  | 1 => .handlePaymentNotification ⟨some 0, some "Settlement", none, []⟩ " ::ffff:10.0.0.1" 7

theorem paid_provenance_settled : ∃ r ∈ ((Pool.start (rideCalls (.around [7, 8]) payAndSettle) completedWorld).exec
      (handle (.around [7, 8])) (Pool.turns [(0, 5), (1, 20)])).store.rides.rows,
    r.paymentStatus = some .paid ∧ PaidBy completedWorld payAndSettle
      ((Pool.start (rideCalls (.around [7, 8]) payAndSettle) completedWorld).exec
        (handle (.around [7, 8])) (Pool.turns [(0, 5), (1, 20)])).trace r.id := by
  have hpaid : ∃ r ∈ ((Pool.start (rideCalls (.around [7, 8]) payAndSettle) completedWorld).exec
      (handle (.around [7, 8])) (Pool.turns [(0, 5), (1, 20)])).store.rides.rows,
      r.paymentStatus = some .paid := by decide +kernel
  obtain ⟨r, hr, hp⟩ := hpaid
  exact ⟨r, hr, hp, paid_provenance (.around [7, 8]) payAndSettle completedWorld (by decide +kernel) _ r hr hp⟩

end NebLite
