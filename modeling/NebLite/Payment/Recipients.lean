import NebLite.Payment.RideOps
import NebLite.Rides.Recipients

/-! In every interleaving of the operations on rides, notifications reach the parties of their
rides only. -/

namespace NebLite

open Atomic Knowledge

section Payments

variable {Op S T : Type} {Res : Op → Type} {H : Hosting Op Res S T} {env : Environment} {known : List (PartyFact T)}

theorem harmless_configuration : (ensurePaymentConfiguration env).Calls Call.Harmless := by
  unfold ensurePaymentConfiguration
  split <;> trivial

theorem harmless_enqueuePayment {ride : Ride} {detail : RidePaymentDetail} {outbox : PaymentOutbox} :
    (enqueuePayment ride detail outbox).Calls Call.Harmless := by
  unfold enqueuePayment
  have hwait : ((call (.waitPaymentJob outbox.id)).catching fun _ =>
      throw (.badRequest "Failed to initiate payment") : Service Unit).Calls Call.Harmless :=
    Program.Calls.catching (calls_call trivial) fun _ => trivial
  refine Program.Calls.bind (calls_call trivial) fun jobId => ?_
  refine Program.Calls.bind (calls_call trivial) fun _ => hwait.bind fun _ => ?_
  refine Program.Calls.bind (calls_call trivial) fun d => ?_
  cases d with
  | none => trivial
  | some d =>
    simp only
    split <;> trivial

theorem harmless_initiatePayment {ride : Ride} : (initiatePayment env ride).Calls Call.Harmless := by
  unfold initiatePayment
  refine harmless_configuration.bind fun _ => Program.Calls.bind (calls_call trivial) fun existing => ?_
  simp only
  split
  · trivial
  · have hrest (orderId : OrderId) (detail : RidePaymentDetail) : (do
        let payload ← Program.ofExcept (buildPaymentRequestPayload ride orderId)
        let (persisted, saved) ← call (.saveDetailAndOutbox (queuedDetail detail orderId payload)
          { orderId, requestPayload := payload, status := .pending })
        enqueuePayment ride persisted saved : Service RidePaymentDetail).Calls Call.Harmless :=
      Program.Calls.bind (by simp) fun _ => Program.Calls.bind (calls_call trivial) fun _ => harmless_enqueuePayment
    split
    · exact hrest _ _
    · exact Program.Calls.bind (calls_call trivial) fun orderId => hrest orderId _

theorem harmless_proceedRidePayment {rideId riderId : Id} :
    (proceedRidePayment env rideId riderId).Calls Call.Harmless := by
  unfold proceedRidePayment
  refine Program.Calls.bind (calls_call trivial) fun o => ?_
  cases o with
  | none => trivial
  | some ride =>
    simp only [↓Program.throw_seq]
    split
    · trivial
    split
    · trivial
    split
    · exact Program.Calls.bind (calls_call trivial) fun _ => trivial
    · refine harmless_initiatePayment.bind fun detail => ?_
      have hupdate (k : Id) (status : Option ERidePaymentStatus) (url : Option String) :
          (updatePaymentState k status url).Calls Call.Harmless :=
        Program.Calls.bind (calls_call trivial) fun rows => by split <;> trivial
      exact (hupdate ride.id _ _).bind fun _ => Program.Calls.bind (calls_call trivial) fun _ => trivial

theorem harmless_processOutbox {outboxId : Id} {startedAt endedAt : Time} :
    (processOutbox env outboxId startedAt endedAt).Calls Call.Harmless := by
  unfold processOutbox savePaymentOutbox
  refine harmless_configuration.bind fun _ => Program.Calls.bind (calls_call trivial) fun o => ?_
  cases o with
  | none => trivial
  | some outbox =>
    refine Program.Calls.bind (calls_call trivial) fun d => ?_
    cases d with
    | none => trivial
    | some detail =>
      refine Program.Calls.bind (calls_call trivial) fun _ => Program.Calls.bind (calls_call trivial) fun reply => ?_
      cases reply with
      | ok response =>
        exact Program.Calls.bind (calls_call trivial) fun _ => Program.Calls.bind (calls_call trivial) fun _ => trivial
      | error message =>
        exact Program.Calls.bind (calls_call trivial) fun _ => Program.Calls.bind (calls_call trivial) fun _ => trivial

theorem polite_handlePaymentNotification {payload : PaymentNotification} {sourceIp : String} {now : Time} :
    H.Polite known (handlePaymentNotification payload sourceIp now) := by
  rw [handlePaymentNotification_eq]
  apply polite_harmless (calls_call (c := .isIpAllowed _) trivial)
  intro allowed
  simp only [↓Program.throw_seq]
  split
  · exact polite_throw _
  cases payload.orderId with
  | none => exact polite_throw _
  | some orderId =>
    apply polite_harmless (calls_call (c := .findDetailByOrder _) trivial)
    intro o
    cases o with
    | none => exact polite_throw _
    | some detail =>
      apply polite_findById (polite_throw _)
      intro r _
      unfold recordNotification
      apply polite_harmless (calls_call (c := .saveDetailWithRideUpdate _ _ _ _) trivial)
      intro saved
      have hend (x : Ride) (payment : Option FormattedPayment) {all : List (PartyFact T)} (hx : x.partyFacts ⊆ all) :
          H.Polite all (do
            if (applyNotification r payload detail).2.1 = true then notifyRidePaid x payload.transactionId
            return (x, payment)) := by
        split
        · apply polite_both hx
          · split <;> rfl
          · exact polite_pure _
        · exact polite_pure _
      apply polite_findById
      · refine hend _ _ fun f hf => List.mem_append_left _ ?_
        rw [Option.getD_none] at hf
        split at hf <;> exact hf
      · exact fun x _ => hend x _ (List.subset_append_left _ _)

variable (env) in
/-- Every operation on rides minds the parties of the rides. -/
theorem RideOp.polite (op : RideOp) : H.Polite known (op.program env) := by
  cases op with
  | lifecycle lop => exact lop.polite env
  | proceedRidePayment rideId riderId => exact polite_harmless harmless_proceedRidePayment fun _ => polite_pure _
  | processOutbox outboxId startedAt endedAt => exact polite_harmless harmless_processOutbox fun _ => polite_pure _
  | handlePaymentNotification payload sourceIp now =>
    have hp : H.Polite known (NebLite.handlePaymentNotification payload sourceIp now) :=
      polite_handlePaymentNotification
    exact hp.bind fun _ _ => polite_pure _

end Payments

section Runs

variable {ι : Type} [DecidableEq ι]

theorem addressedAll_initial (seen : Coordinate → Id → Prop) (whitelist : List String) :
    (World.initial whitelist).AddressedAll seen where
  near c hc := by cases hc
  seated k r d hr := by cases hr
  sent n hn := by cases hn

theorem addressedAll_exec (env : Environment) (whitelist : List String) (ops : ι → RideOp) (sched : List ι) :
    ((Pool.start (rideCalls env ops) (World.initial whitelist)).exec (handle env) sched).store.AddressedAll
      fun _ _ => True := by
  have hpolite (i : ι) : (hosted id fun _ => (⟨fun _ _ => True, Empty.elim⟩ : Beyond Empty)).Minds (handle env) [] (rideCalls env ops i)
      (fun _ => True) fun _ => [] := by
    have h : (Hosting.tables env).Polite [] ((ops i).program env) := (ops i).polite env
    rw [Hosting.Polite, Hosting.Minds, show (Hosting.tables env).implement = fun c => .perform c from rfl,
      Program.expand_self] at h
    exact h
  exact exec_inv hpolite (addressedAll_initial _ whitelist) sched

/-- Whatever operations on rides run side by side, every notification has gone to the rider of
its ride or to a driver that was invited to it, and names only the two of them. -/
theorem notifications_addressed (env : Environment) (whitelist : List String) (ops : ι → RideOp) (sched : List ι) :
    ∀ n ∈ ((Pool.start (rideCalls env ops) (World.initial whitelist)).exec (handle env) sched).store.notifications,
      n.Addressed ((Pool.start (rideCalls env ops) (World.initial whitelist)).exec (handle env) sched).store :=
  (addressedAll_exec env whitelist ops sched).sent

end Runs

/-- A rider books a ride. -/
def bookRide (_ : Fin 1) : RideOp := .lifecycle (.createRide (some 1) ⟨⟨1, 1⟩, ⟨2, 2⟩, none, none⟩ 0)

theorem notifications_addressed_offer :
    ∃ n ∈ ((Pool.start (rideCalls (.around [7, 8]) bookRide) (World.initial [])).exec (handle (.around [7, 8]))
        (Pool.turns [(0, 20)])).store.notifications,
      n.targetId = 8 ∧ n.Addressed ((Pool.start (rideCalls (.around [7, 8]) bookRide) (World.initial [])).exec
        (handle (.around [7, 8])) (Pool.turns [(0, 20)])).store := by
  have hoffered : ∃ n ∈ ((Pool.start (rideCalls (.around [7, 8]) bookRide) (World.initial [])).exec
      (handle (.around [7, 8])) (Pool.turns [(0, 20)])).store.notifications, n.targetId = 8 := by decide +kernel
  obtain ⟨n, hn, htarget⟩ := hoffered
  exact ⟨n, hn, htarget, notifications_addressed (.around [7, 8]) [] bookRide (Pool.turns [(0, 20)]) n hn⟩

end NebLite
