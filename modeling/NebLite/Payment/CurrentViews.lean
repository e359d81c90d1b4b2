import NebLite.Payment.LedgerRuns
import NebLite.Rides.Informing

/-! After every sequential run rider and driver know who they are to each other and how far
their ride is, if they go by what they were told last. -/

namespace NebLite

open Atomic

section Bookings

variable {env : Environment} {w v : World} {op : Call}

theorem World.BookedAlike.booking (h : w.BookedAlike v) (k : Id) : v.booking k = w.booking k := by
  have hof (u : World) : u.booking k = (u.view k).map fun x =>
      ⟨x.riderId, x.driverId, x.status, fun d => (u.findCandidate k d).map (·.status)⟩ := by
    unfold World.booking World.view
    cases hr : u.rides.find k with
    | none => rfl
    | some r =>
      obtain rfl : r.id = k := Table.key_of_find hr
      rfl
  rw [hof, hof, h.view]
  unfold World.findCandidate
  rw [h.candidates]

theorem World.BookedAlike.atRest (h : w.BookedAlike v) (hw : w.AtRest) : v.AtRest := by
  have hstored (k : Id) (hk : w.rides.find k ≠ none) : v.rides.find k ≠ none := by
    rw [ne_eq, ← World.booking_none] at hk ⊢
    rwa [h.booking k]
  refine ⟨⟨?_, ?_⟩, fun k b hb => hw.matched k b (h.booking k ▸ hb)⟩
  · rw [h.candidates]
    exact hw.wellFormed.distinct
  · rw [h.candidates]
    exact fun c hc => hstored _ (hw.wellFormed.referenced c hc)

theorem RideOp.Tends.offBookings {rop : RideOp} {t : Trail} (h : rop.Tends t op) (hrop : rop.Pays) :
    op.OffBookings := by
  cases rop with
  | lifecycle lop => exact absurd rfl (hrop lop)
  | proceedRidePayment | processOutbox | handlePaymentNotification => cases op <;> trivial

/-- Only the notification of a payment is passed on. -/
theorem RideOp.Tends.unsent {rop : RideOp} {t : Trail} (h : rop.Tends t op) (hrop : rop.Pays)
    (hsilent : ∀ payload sourceIp now, rop ≠ .handlePaymentNotification payload sourceIp now) :
    (handle env op w).2.notifications = w.notifications := by
  refine (((h.offBookings hrop).unseen fun n hn => ?_).kept env w).2
  subst hn
  cases rop with
  | lifecycle lop => exact hrop lop rfl
  | handlePaymentNotification payload sourceIp now => exact hsilent payload sourceIp now rfl
  | proceedRidePayment | processOutbox => exact h

end Bookings

/-- Nothing has been done that participants could see. -/
structure World.Silent (w v : World) : Prop extends w.BookedAlike v where
  notifications : v.notifications = w.notifications

section Payments

variable {env : Environment} {w v : World} {rop : RideOp} {α : Type}

theorem World.Silent.refl (w : World) : w.Silent w := ⟨.refl w, rfl⟩

theorem World.Silent.trans {u : World} (h : w.Silent v) (h' : v.Silent u) : w.Silent u :=
  ⟨h.toBookedAlike.trans h'.toBookedAlike, h'.notifications.trans h.notifications⟩

/-- What every call of an operation keeps, and the work before it, the whole of it keeps. -/
theorem tracks_keep {R : World → World → Prop} (hrefl : ∀ w, R w w)
    (htrans : ∀ {w v u}, R w v → R v u → R w u) (hstep : ∀ t op v, rop.Tends t op → R v (handle env op v).2)
    {work : Call → World → World} (hwork : ∀ op v, R v (work op v)) {p : Service α}
    (hp : Tracks env rop.Tends .empty p) (w : World) :
    R w (p.run (fun op v => handle env op (work op v)) w).2 := by
  have hmove (t : Trail) (op : Call) (v : World) (t' : Trail) (h : R w v)
      (hm : (trailOutline env rop.Tends).move t op v t') : R w (handle env op v).2 := htrans h (hstep t op v hm.2)
  obtain ⟨t, -, hend⟩ := Outline.Follows.run_amid (I := fun _ v => R w v) work (fun _ _ _ => trivial) hmove
    (fun _ op v h => htrans h (hwork op v)) hp (hrefl w)
  exact hend

theorem RideOp.Pays.bookedAlike (hrop : rop.Pays) (w : World) : w.BookedAlike (rop.step env w) :=
  tracks_keep .refl .trans (fun _ _ v h => (h.offBookings hrop).kept env v) (fun _ v => .refl v) (rop.tracks env) w

theorem RideOp.Pays.silent (hrop : rop.Pays)
    (hsilent : ∀ payload sourceIp now, rop ≠ .handlePaymentNotification payload sourceIp now) {p : Service α}
    (hp : Tracks env rop.Tends .empty p) {work : Call → World → World}
    (hwork : ∀ op (v : World), v.Silent (work op v))
    (w : World) : w.Silent (p.run (fun op v => handle env op (work op v)) w).2 :=
  tracks_keep .refl .trans (fun _ _ v h => ⟨(h.offBookings hrop).kept env v, h.unsent hrop hsilent⟩) hwork hp w

theorem silent_work (job : Id × JobDelivery) (w : World) : w.Silent (w.work env job) := by
  obtain ⟨outboxId, startedAt, endedAt⟩ := job
  have hrop : (RideOp.processOutbox outboxId startedAt endedAt).Pays := by
    rintro lop ⟨⟩
  exact hrop.silent (by rintro payload sourceIp now ⟨⟩) tracks_deliverPaymentJob (fun _ v => .refl v) w

theorem silent_workBefore (jobs : List (Id × JobDelivery)) (op : Call) (w : World) :
    w.Silent (workBefore env jobs op w) := by
  have hjobs : w.Silent (jobs.foldl (World.work env) w) := by
    induction jobs generalizing w with
    | nil => exact .refl w
    | cons job jobs ih => exact (silent_work job w).trans (ih (w.work env job))
  cases op with
  | waitPaymentJob => exact hjobs
  | _ => exact .refl w

theorem view_findPaymentRide {k : Id} {r : Ride} (h : w.findPaymentRide k = some r) : w.view r.id = some r.view := by
  obtain ⟨stored, hstored, rfl⟩ := Option.map_eq_some_iff.mp h
  obtain rfl : stored.id = k := Table.key_of_find hstored
  show (w.rides.find stored.id).map Ride.view = _
  rw [hstored]
  rfl

/-- The ride that a payment answers with was read first or last. -/
theorem answer_reread {β : Type} {work : Call → World → World} {q : Service α} {u : α → Service Unit} {k : Id}
    {ride r : Ride} {g : α → β} {payment : β}
    (h : ((do
      let detail ← q
      u detail
      let refreshed ← call (.findPaymentRide k)
      return (refreshed.getD ride, g detail) : Service (Ride × β)).run
        (fun op v => handle env op (work op v)) w).1 = .ok (r, payment)) :
    r = ride ∨ ((do
      let detail ← q
      u detail
      let refreshed ← call (.findPaymentRide k)
      return (refreshed.getD ride, g detail) : Service (Ride × β)).run
        (fun op v => handle env op (work op v)) w).2.findPaymentRide k = some r := by
  rcases hq : q.run (fun op v => handle env op (work op v)) w with ⟨e | detail, w₁⟩
  · rw [Program.run_bind_error _ hq] at h
    cases h
  rw [Program.run_bind_ok _ hq] at h ⊢
  rcases hu : (u detail).run (fun op v => handle env op (work op v)) w₁ with ⟨e | _, w₂⟩
  · rw [Program.run_bind_error _ hu] at h
    cases h
  have hread : (call (.findPaymentRide k)).run (fun op v => handle env op (work op v)) w₂ =
      (.ok ((work (.findPaymentRide k) w₂).findPaymentRide k), work (.findPaymentRide k) w₂) :=
    Program.run_perform _ _ _
  rw [Program.run_bind_ok _ hu, Program.run_bind_ok _ hread] at h ⊢
  cases hfound : (work (.findPaymentRide k) w₂).findPaymentRide k with
  | none =>
    rw [hfound] at h
    cases h
    exact .inl rfl
  | some x =>
    rw [hfound] at h
    cases h
    exact .inr hfound

/-- A payment answers with the ride as it is. -/
theorem proceedRidePayment_answer {work : Call → World → World} (hwork : ∀ op (v : World), v.Silent (work op v))
    {rideId riderId : Id} {r : Ride} {payment : Option FormattedPayment}
    (h : ((proceedRidePayment env rideId riderId).run (fun op v => handle env op (work op v)) w).1 =
      .ok (r, payment)) : w.view r.id = some r.view := by
  have hrop : (RideOp.proceedRidePayment rideId riderId).Pays := by
    rintro lop ⟨⟩
  have hsilent : w.Silent ((proceedRidePayment env rideId riderId).run (fun op v => handle env op (work op v)) w).2 :=
    hrop.silent (by rintro payload sourceIp now ⟨⟩) (tracks_proceedRidePayment rfl rfl) hwork w
  unfold proceedRidePayment at h hsilent
  have hread : (call (.findPaymentRide rideId)).run (fun op v => handle env op (work op v)) w =
      (.ok ((work (.findPaymentRide rideId) w).findPaymentRide rideId), work (.findPaymentRide rideId) w) :=
    Program.run_perform _ _ _
  have hworked := hwork (.findPaymentRide rideId) w
  rw [Program.run_bind_ok _ hread] at h hsilent
  generalize work (.findPaymentRide rideId) w = v at h hsilent hworked
  cases hfound : v.findPaymentRide rideId with
  | none =>
    rw [hfound] at h
    cases h
  | some ride =>
    rw [hfound] at h hsilent
    have hride : w.view ride.id = some ride.view := by
      rw [← hworked.view]
      exact view_findPaymentRide hfound
    simp only [↓Program.throw_seq] at h hsilent
    split at h
    · cases h
    next hrider =>
    rw [if_neg hrider] at hsilent
    split at h
    · cases h
    next hstatus =>
    rw [if_neg hstatus] at hsilent
    split at h
    · next hpaid =>
      rw [Program.run_bind] at h
      have hdetail : (call (.findDetailByRide ride.id)).run (fun op v => handle env op (work op v)) v =
          (.ok ((work (.findDetailByRide ride.id) v).findDetailByRide ride.id), work (.findDetailByRide ride.id) v) :=
        Program.run_perform _ _ _
      rw [hdetail] at h
      cases h
      exact hride
    · next hpaid =>
      rw [if_neg hpaid] at hsilent
      obtain rfl | hlast := answer_reread h
      · exact hride
      · rw [← hsilent.view]
        exact view_findPaymentRide hlast

theorem informing_handlePaymentNotification {payload : PaymentNotification} {sourceIp : String} {now : Time} :
    Informing env w none (fun _ => none) ⟨w.view, []⟩ (handlePaymentNotification payload sourceIp now) := by
  rw [handlePaymentNotification_eq]
  have hthrow {e : ServiceError} : Informing env w none (fun _ : Ride × Option FormattedPayment => none)
      ⟨w.view, []⟩ (.throw e) := informing_throw (by simp)
  refine (passes_call (.isIpAllowed _) trivial fun _ => ⟨_, rfl⟩).goesOn fun allowed => ?_
  simp only [↓Program.throw_seq]
  split
  · exact hthrow
  cases payload.orderId with
  | none => exact hthrow
  | some orderId =>
    refine (passes_call (.findDetailByOrder _) trivial fun _ => ⟨_, rfl⟩).goesOn fun o => ?_
    cases o with
    | none => exact hthrow
    | some detail =>
      apply informing_opening ⟨_, rfl⟩
      intro r hr hv
      rw [← hr] at hv
      unfold recordNotification
      refine (passes_call (.saveDetailWithRideUpdate _ _ _ _) trivial fun _ => ⟨_, rfl⟩).goesOn fun saved => ?_
      apply informing_findById hv
      intro z hz hzv
      have hzview : w.view z.id = some z.view := by
        rw [hz, hzv, hv]
      simp only [Option.getD_some]
      split
      · apply speaks_both.goesOn hzview
        intro ns hns _
        exact informs_same (accurate_of_same hzview hns) fun _ ha => by cases ha
      · exact informs_same (by simp) fun _ ha => by cases ha

end Payments

/-- Who hears the answer to an operation. -/
def RideOp.caller : RideOp → Option Participant
  | lifecycle op => op.caller
  | proceedRidePayment _ riderId => some (.rider, riderId)
  | processOutbox .. | handlePaymentNotification .. => none

/-- An operation with the ride that the gateway answers with. -/
def RideOp.response (env : Environment) : RideOp → Service (Option Answer)
  | lifecycle op => op.response env
  | proceedRidePayment rideId riderId => do
    let (ride, _) ← NebLite.proceedRidePayment env rideId riderId
    return (toRideResponse ride none).answer
  | processOutbox outboxId startedAt endedAt => do
    let _ ← NebLite.processOutbox env outboxId startedAt endedAt
    return none
  | handlePaymentNotification payload sourceIp now => do
    let _ ← NebLite.handlePaymentNotification payload sourceIp now
    return none

namespace Turn

def caller : Turn → Option Participant
  | alone op => op.caller
  | served _ riderId _ => some (.rider, riderId)

/-- The ride that an operation of the run answers with. -/
def response (env : Environment) (w : World) : Turn → Except ServiceError (Option Answer)
  | alone op => ((op.response env).run (handle env) w).1
  | served rideId riderId jobs =>
    (((RideOp.proceedRidePayment rideId riderId).response env).run
      (fun op v => handle env op (workBefore env jobs op v)) w).1

/-- What the participants are sent, and what the caller is answered. -/
def told (env : Environment) (w : World) (turn : Turn) : List (Message Participant Id RideView) :=
  sentBetween w (turn.step env w) ++ heard turn.caller (turn.response env w)

end Turn

/-- The store, and what each participant was told last of each ride. -/
structure Followed where
  world : World
  copies : Copies Participant Id RideView

def Followed.step (env : Environment) (s : Followed) (turn : Turn) : Followed :=
  ⟨turn.step env s.world, s.copies.deliver (turn.told env s.world)⟩

/-- A run from the beginning, when nobody has been told anything. -/
def followed (env : Environment) (whitelist : List String) (turns : List Turn) : Followed :=
  turns.foldl (Followed.step env) ⟨.initial whitelist, fun _ _ => none⟩

section Runs

variable {env : Environment} {w : World}

theorem sentBetween_silent {v : World} (h : w.Silent v) : sentBetween w v = [] := by
  unfold sentBetween
  rw [h.notifications, List.drop_length, List.map_nil]

/-- A payment tells its caller of a ride that it leaves as it was. -/
theorem announced_payment {work : Call → World → World} (hwork : ∀ op (v : World), v.Silent (work op v))
    (rideId riderId : Id) {v : World} (hv : w.Silent v) :
    Announced RideView.Concerns w.view v.view (sentBetween w v ++ heard (some (.rider, riderId))
      (((RideOp.proceedRidePayment rideId riderId).response env).run (fun op v => handle env op (work op v)) w).1) := by
  rw [sentBetween_silent hv, hv.view, List.nil_append]
  apply Announced.unchanged
  intro m hm
  obtain ⟨a, ha, hkey, hvalue⟩ := mem_heard hm
  rw [hkey, hvalue]
  unfold RideOp.response at ha
  rcases hrun : (proceedRidePayment env rideId riderId).run (fun op v => handle env op (work op v)) w with
    ⟨e | ⟨r, payment⟩, u⟩
  · rw [Program.run_bind_error _ hrun] at ha
    cases ha
  · rw [Program.run_bind_ok _ hrun] at ha
    cases ha
    exact proceedRidePayment_answer hwork (congrArg Prod.fst hrun)

variable (env) in
theorem silent_proceedRidePayment (rideId riderId : Id) (jobs : List (Id × JobDelivery)) (w : World) :
    w.Silent ((RideOp.proceedRidePayment rideId riderId).step env w) ∧
      w.Silent ((Turn.served rideId riderId jobs).step env w) := by
  have hrop : (RideOp.proceedRidePayment rideId riderId).Pays := by
    rintro lop ⟨⟩
  have hother (payload : PaymentNotification) (sourceIp : String) (now : Time) :
      RideOp.proceedRidePayment rideId riderId ≠ .handlePaymentNotification payload sourceIp now := by
    rintro ⟨⟩
  exact ⟨hrop.silent hother (RideOp.tracks env _) (fun _ v => .refl v) w,
    hrop.silent hother (tracks_proceedRidePayment rfl rfl) (silent_workBefore jobs) w⟩

variable (env) in
theorem silent_processOutbox (outboxId : Id) (startedAt endedAt : Time) (w : World) :
    w.Silent ((RideOp.processOutbox outboxId startedAt endedAt).step env w) := by
  have hrop : (RideOp.processOutbox outboxId startedAt endedAt).Pays := by
    rintro lop ⟨⟩
  have hother (payload : PaymentNotification) (sourceIp : String) (now : Time) :
      RideOp.processOutbox outboxId startedAt endedAt ≠ .handlePaymentNotification payload sourceIp now := by
    rintro ⟨⟩
  exact hrop.silent hother (RideOp.tracks env _) (fun _ v => .refl v) w

variable (env) in
theorem Turn.announced (hw : w.AtRest) (turn : Turn) :
    Announced RideView.Concerns w.view (turn.step env w).view (turn.told env w) := by
  cases turn with
  | alone op =>
    cases op with
    | lifecycle lop => exact lop.announced env hw.matched
    | proceedRidePayment rideId riderId =>
      exact announced_payment (fun _ v => .refl v) rideId riderId (silent_proceedRidePayment env rideId riderId [] w).1
    | processOutbox outboxId startedAt endedAt =>
      have hsilent := silent_processOutbox env outboxId startedAt endedAt w
      have htold : (alone (.processOutbox outboxId startedAt endedAt)).told env w = [] := by
        show sentBetween w _ ++ heard none _ = []
        rw [heard_none, List.append_nil]
        exact sentBetween_silent hsilent
      rw [htold]
      show Announced RideView.Concerns w.view ((RideOp.processOutbox outboxId startedAt endedAt).step env w).view []
      rw [hsilent.view]
      exact .unchanged fun m hm => absurd hm List.not_mem_nil
    | handlePaymentNotification payload sourceIp now =>
      have hstep : (RideOp.handlePaymentNotification payload sourceIp now).step env w =
          ((handlePaymentNotification payload sourceIp now).run (handle env) w).2 := run_discard _ w
      have hinforming : Informing env w none (fun _ => none) ⟨w.view, []⟩
          (handlePaymentNotification payload sourceIp now) := informing_handlePaymentNotification
      have htold := announced_run hinforming
      rw [heard_none, ← hstep] at htold
      show Announced RideView.Concerns w.view ((RideOp.handlePaymentNotification payload sourceIp now).step env w).view
        (sentBetween w _ ++ heard none _)
      rw [heard_none]
      exact htold
  | served rideId riderId jobs =>
    have hsilent := (silent_proceedRidePayment env rideId riderId jobs w).2
    exact announced_payment (silent_workBefore jobs) rideId riderId hsilent

theorem Turn.atRest (hd : env.NearbyDistinct) (hw : w.AtRest) (turn : Turn) : (turn.step env w).AtRest := by
  have hpays (rop : RideOp) (hrop : rop.Pays) : (rop.step env w).AtRest := (hrop.bookedAlike w).atRest hw
  cases turn with
  | alone op =>
    cases op with
    | lifecycle lop => exact hw.step hd lop
    | proceedRidePayment => exact hpays _ (by rintro lop ⟨⟩)
    | processOutbox => exact hpays _ (by rintro lop ⟨⟩)
    | handlePaymentNotification => exact hpays _ (by rintro lop ⟨⟩)
  | served rideId riderId jobs =>
    exact (silent_proceedRidePayment env rideId riderId jobs w).2.toBookedAlike.atRest hw

/-- Nobody misses a change of a ride that concerns them. -/
structure Followed.Informed (s : Followed) : Prop where
  atRest : s.world.AtRest
  current : Current RideView.Concerns s.world.view s.copies

theorem Followed.Informed.step (hd : env.NearbyDistinct) {s : Followed} (h : s.Informed) (turn : Turn) :
    (s.step env turn).Informed where
  atRest := turn.atRest hd h.atRest
  current := h.current.deliver (turn.announced env h.atRest)

theorem informed_followed (hd : env.NearbyDistinct) (whitelist : List String) (turns : List Turn) :
    (followed env whitelist turns).Informed := by
  have hstart : (⟨.initial whitelist, fun _ _ => none⟩ : Followed).Informed :=
    ⟨World.atRest_initial whitelist, fun k v hv => by cases hv⟩
  have hrun (s : Followed) (h : s.Informed) : (turns.foldl (Followed.step env) s).Informed := by
    induction turns generalizing s with
    | nil => exact h
    | cons turn turns ih => exact ih (s.step env turn) (h.step hd turn)
  exact hrun _ hstart

theorem world_followed (env : Environment) (whitelist : List String) (turns : List Turn) :
    (followed env whitelist turns).world = (World.initial whitelist).afterTurns env turns := by
  have hrun (s : Followed) : (turns.foldl (Followed.step env) s).world = s.world.afterTurns env turns := by
    induction turns generalizing s with
    | nil => rfl
    | cons turn turns ih => exact ih (s.step env turn)
  exact hrun _

/-- After every sequential run the rider of a ride, and its driver when it has one, know who
they are to each other and how far the ride is, each from what they were told last of it. -/
theorem participants_current (hd : env.NearbyDistinct) (whitelist : List String) (turns : List Turn) {k : Id} {r : Ride}
    (hr : ((World.initial whitelist).afterTurns env turns).rides.find k = some r) :
    (followed env whitelist turns).copies (.rider, r.riderId) k = some r.view ∧
      ∀ d, r.driverId = some d → (followed env whitelist turns).copies (.driver, d) k = some r.view := by
  have hcurrent := (informed_followed hd whitelist turns).current
  have hview : (followed env whitelist turns).world.view k = some r.view := by
    rw [world_followed]
    show (((World.initial whitelist).afterTurns env turns).rides.find k).map Ride.view = _
    rw [hr]
    rfl
  exact ⟨hcurrent k _ hview _ (.inl rfl), fun d hdriver => hcurrent k _ hview _ (.inr ⟨d, hdriver, rfl⟩)⟩

theorem participants_current_paid :
    (followed (.around [7, 8]) [] paidTurns).copies (.rider, 1) 1 = some ⟨1, some 7, .completed⟩ ∧
      (followed (.around [7, 8]) [] paidTurns).copies (.driver, 7) 1 = some ⟨1, some 7, .completed⟩ := by
  have hd : (Environment.around [7, 8]).NearbyDistinct := Environment.around_distinct (by decide)
  have hride : (((World.initial []).afterTurns (.around [7, 8]) paidTurns).rides.find 1).map
      (fun r => (r.riderId, r.driverId, r.status)) = some (1, some 7, .completed) := by decide +kernel
  obtain ⟨r, hr, hfields⟩ := Option.map_eq_some_iff.mp hride
  obtain ⟨hrider, hdriver, hstatus⟩ : r.riderId = 1 ∧ r.driverId = some 7 ∧ r.status = .completed := by
    simpa using hfields
  obtain ⟨htold, hdrivertold⟩ := participants_current hd [] paidTurns hr
  have hview : r.view = ⟨1, some 7, .completed⟩ := by
    unfold Ride.view
    rw [hrider, hdriver, hstatus]
  rw [hview, hrider] at htold
  exact ⟨htold, hview ▸ hdrivertold 7 hdriver⟩

end Runs

end NebLite
