import NebLite.Payment.Redelivery
import Mathlib.Data.Fintype.Option

/-! The two parties that write an outbox row: `initiatePayment` from its transaction
on, and the deliveries of the job that it queues. Both write the whole row. -/

namespace NebLite

open Atomic

variable {env : Environment} {κ : Type}

/-- `initiatePayment` from `saveDetailAndOutbox` on. -/
def queuePayment (ride : Ride) (detail : RidePaymentDetail) (input : OutboxInput) :
    Service RidePaymentDetail := do
  let (persistedDetail, savedOutbox) ← call (.saveDetailAndOutbox detail input)
  enqueuePayment ride persistedDetail savedOutbox

theorem initiatePayment_eq (ride : Ride) : initiatePayment env ride = (do
    ensurePaymentConfiguration env
    let existing ← call (.findDetailByRide ride.id)
    let paymentDetail := existing.getD (newPaymentDetail env ride.id)
    if paymentDetail.isInitiated then
      return paymentDetail
    let orderId ← match paymentDetail.orderId with
      | some orderId => pure orderId
      | none => call .generateOrderId
    let requestPayload ← Program.ofExcept (buildPaymentRequestPayload ride orderId)
    queuePayment ride (queuedDetail paymentDetail orderId requestPayload)
      { orderId, requestPayload, status := .pending }) := rfl

/-- The producer, and the deliveries of its job. -/
def outboxParties (env : Environment) (ride : Ride) (detail : RidePaymentDetail) (input : OutboxInput)
    (outboxId : Id) (deliveries : κ → JobDelivery) : Option κ → Service Unit
  | none => do
    let _ ← queuePayment ride detail input
  | some k => deliverPaymentJob env outboxId (deliveries k).startedAt (deliveries k).endedAt

abbrev OutboxPool (κ : Type) := Pool (Option κ) Call Call.Answer ServiceError Unit World

abbrev OutboxTrace (κ : Type) := List (Option κ × Event Call Call.Answer ServiceError)

def Call.readsOutbox : Call → Bool
  | .findOutbox _ => true
  | _ => false

def Call.savedOutbox : Call → Option PaymentOutbox
  | .saveOutbox x => some x
  | _ => none

/-- How often `processOutbox` has been executed. -/
def executions (trace : OutboxTrace κ) : ℕ := trace.countP fun e => e.2.1.readsOutbox

/-- The producer has written the row a second time. -/
def writtenAgain (trace : OutboxTrace κ) : Bool :=
  trace.any fun e => e.1.isNone && e.2.1.savedOutbox.isSome

/-- The last row that a worker has written. -/
def lastWritten (trace : OutboxTrace κ) : Option PaymentOutbox :=
  trace.findSome? fun e => if e.1.isSome then e.2.1.savedOutbox else none

theorem executions_cons (i : Option κ) (e : Event Call Call.Answer ServiceError) (trace : OutboxTrace κ) :
    executions ((i, e) :: trace) = executions trace + if e.1.readsOutbox then 1 else 0 := by
  simp [executions, List.countP_cons]

theorem writtenAgain_cons (i : Option κ) (e : Event Call Call.Answer ServiceError) (trace : OutboxTrace κ) :
    writtenAgain ((i, e) :: trace) = (i.isNone && e.1.savedOutbox.isSome || writtenAgain trace) := rfl

theorem lastWritten_cons (i : Option κ) (e : Event Call Call.Answer ServiceError) (trace : OutboxTrace κ) :
    lastWritten ((i, e) :: trace) =
      ((if i.isSome then e.1.savedOutbox else none).or (lastWritten trace)) := by
  cases h : (if i.isSome then e.1.savedOutbox else none) <;> simp [lastWritten, h]

/-- The columns that report on the attempts. -/
structure SameReport (x y : PaymentOutbox) : Prop where
  status : x.status = y.status
  lastError : x.lastError = y.lastError
  lastAttemptedAt : x.lastAttemptedAt = y.lastAttemptedAt
  processedAt : x.processedAt = y.processedAt

/-- The row names its job, counts the executions and reports what the last of them wrote. -/
def Bookkept (outboxId : Id) (c : OutboxPool κ) : Prop :=
  ∃ x job, c.store.outbox.find outboxId = some x ∧ c.store.paymentJobs.find outboxId = some job ∧
    x.jobId = some job.jobId ∧ x.attempts = executions c.trace ∧
    ∀ y, lastWritten c.trace = some y → SameReport x y

/-- A worker reads the row only after the second write of the producer. -/
def ReadsWritten (c : OutboxPool κ) (i : Option κ) : Prop :=
  (c.procs i).pending.any Call.readsOutbox = true → writtenAgain c.trace = true

instance (c : OutboxPool κ) (i : Option κ) : Decidable (ReadsWritten c i) :=
  inferInstanceAs (Decidable (_ → _))

/-- How far the producer is, or a delivery. -/
inductive BookPhase where
  | fresh
  | stored
  | queued
  | written
  | idle
  | taken
  | reading (x : PaymentOutbox)
  | attempting (x : PaymentOutbox)
  | finished

namespace BookPhase

def OfProducer : BookPhase → Prop
  | fresh | stored | queued | written => True
  | _ => False

def OfWorker : BookPhase → Prop
  | idle | taken | reading _ | attempting _ | finished => True
  | _ => False

/-- A delivery that has the job. -/
def Busy : BookPhase → Prop
  | taken | reading _ | attempting _ => True
  | _ => False

end BookPhase

/-- The row is there, and its detail. -/
def World.Stocked (w : World) (outboxId : Id) : Prop :=
  ∃ x, w.outbox.find outboxId = some x ∧ w.details.find x.paymentDetailId ≠ none

def BookPhase.Pre (outboxId : Id) : BookPhase → World → Prop
  | fresh, w => w.outbox.nextKey = outboxId
  | taken, w => w.Stocked outboxId
  | reading x, w => w.details.find x.paymentDetailId ≠ none
  | _, _ => True

inductive ProducerMove (outboxId : Id) (jobId : String) : BookPhase → Call → World → BookPhase → Prop
  | store {d input w} : ProducerMove outboxId jobId .fresh (.saveDetailAndOutbox d input) w .stored
  | queue {w} : ProducerMove outboxId jobId .stored (.addPaymentJob outboxId jobId) w .queued
  | write {x w} : x.id = outboxId → x.jobId = some jobId → x.attempts = 0 →
      ProducerMove outboxId jobId .queued (.saveOutbox x) w .written
  | wait {w} : ProducerMove outboxId jobId .written (.waitPaymentJob outboxId) w .written
  | refresh {k w} : ProducerMove outboxId jobId .written (.findDetail k) w .written

inductive WorkerMove (outboxId : Id) : BookPhase → Call → World → BookPhase → Prop
  | miss {w} : (w.takePaymentJob outboxId).1 = none →
      WorkerMove outboxId .idle (.takePaymentJob outboxId) w .finished
  | take {w} : (w.takePaymentJob outboxId).1 = some outboxId →
      WorkerMove outboxId .idle (.takePaymentJob outboxId) w .taken
  | read {x w} : w.outbox.find outboxId = some x →
      WorkerMove outboxId .taken (.findOutbox outboxId) w (.reading x)
  | detail {x w} : WorkerMove outboxId (.reading x) (.findDetail x.paymentDetailId) w (.reading x)
  | attempt {x t w} : WorkerMove outboxId (.reading x) (.saveOutbox (attemptedOutbox x t)) w
      (.attempting (attemptedOutbox x t))
  | post {x p w} : WorkerMove outboxId (.attempting x) (.post p) w (.attempting x)
  | saveDetail {x d w} : WorkerMove outboxId (.attempting x) (.saveDetail d) w (.attempting x)
  | record {x y w} : y.id = x.id → y.jobId = x.jobId → y.attempts = x.attempts →
      WorkerMove outboxId (.attempting x) (.saveOutbox y) w (.attempting x)
  | finish {x b w} : WorkerMove outboxId (.attempting x) (.finishPaymentJob outboxId b) w .finished

def bookOutline (outboxId : Id) (jobId : String) : Option κ → Outline BookPhase Call World
  | none => ⟨BookPhase.Pre outboxId, ProducerMove outboxId jobId⟩
  | some _ => ⟨BookPhase.Pre outboxId, WorkerMove outboxId⟩

/-- The producer ends after its second write, a delivery after it has given the job back. -/
def BookDone : Option κ → BookPhase → Except ServiceError Unit → Prop
  | none, l, _ => l = .written
  | some _, l, _ => l = .finished

section Follows

variable {outboxId : Id} {jobId : String} {α β : Type}

variable (env) in
theorem saveDetailAndOutbox_answer (w : World) (d : RidePaymentDetail) (input : OutboxInput) :
    ∃ saved x, (handle env (.saveDetailAndOutbox d input) w).1 = .ok (saved, x) ∧
      x.id = w.outbox.nextKey ∧ x.attempts = 0 := by
  refine ⟨_, _, rfl, ?_, rfl⟩
  change (w.persistDetail d).2.outbox.nextKey = w.outbox.nextKey
  rw [persistDetail_outbox]

/-- The calls of a producer that waits for its job. -/
def Call.Awaits (outboxId : Id) : Call → Prop
  | .waitPaymentJob k => k = outboxId
  | .findDetail _ => True
  | _ => False

/-- `enqueuePayment` after its write of the row. -/
def awaitPayment (detailId outboxId : Id) : Service RidePaymentDetail := do
  (call (.waitPaymentJob outboxId)).catching
    fun _ => throw (.badRequest "Failed to initiate payment")
  let some refreshedDetail ← call (.findDetail detailId)
    | throw (.badRequest "Payment detail not found after processing")
  if ¬ truthy refreshedDetail.redirectUrl then
    throw (.badRequest "Payment gateway did not return a redirect URL")
  return refreshedDetail

theorem enqueuePayment_eq (ride : Ride) (detail : RidePaymentDetail) (x : PaymentOutbox) :
    enqueuePayment ride detail x = (do
      let jobId ← call (.addPaymentJob x.id (paymentJobId ride.id x.id))
      savePaymentOutbox { x with jobId := some jobId }
      awaitPayment detail.id x.id) := by
  unfold enqueuePayment awaitPayment
  refine bind_congr fun _ => bind_congr fun _ => bind_congr fun _ => bind_congr fun o => ?_
  cases o <;> rfl

theorem awaits_awaitPayment (detailId outboxId : Id) :
    (awaitPayment detailId outboxId).Calls (Call.Awaits outboxId) := by
  have hwait : (call (.waitPaymentJob outboxId)).Calls (Call.Awaits outboxId) := calls_call rfl
  refine Program.Calls.bind (hwait.catching fun _ => by simp) fun _ => (calls_call trivial).bind fun o => ?_
  cases o with
  | none => trivial
  | some r => by_cases hurl : truthy r.redirectUrl = true <;> simp [hurl]

theorem follows_queuePayment {ride : Ride} (d : RidePaymentDetail) (input : OutboxInput) (κ : Type) :
    (bookOutline outboxId (paymentJobId ride.id outboxId) (none : Option κ)).Follows (handle env)
      (BookDone (none : Option κ)) .fresh (do let _ ← queuePayment ride d input) := by
  unfold queuePayment
  simp only [enqueuePayment_eq]
  intro w hw
  refine ⟨.stored, .store, ?_⟩
  obtain ⟨saved, x, hans, hid, hattempts⟩ := saveDetailAndOutbox_answer env w d input
  rw [hans]
  obtain rfl : x.id = outboxId := hid.trans hw
  intro _ _
  refine ⟨.queued, .queue, ?_⟩
  intro _ _
  refine ⟨.written, .write rfl rfl hattempts, ?_⟩
  refine Outline.Follows.of_calls (q := Call.Awaits x.id) ?_ ?_ fun _ => rfl
  · change (awaitPayment saved.id x.id >>= fun _ => pure ()).Calls (Call.Awaits x.id)
    exact (awaits_awaitPayment saved.id x.id).bind fun _ => trivial
  · intro op _ hop _
    cases op with
    | waitPaymentJob k =>
      obtain rfl : k = x.id := hop
      exact .wait
    | findDetail k => exact .refresh
    | _ => exact hop.elim

/-- What a worker still has to do with the row that it holds. -/
theorem follows_recordReply {detail : RidePaymentDetail} {x : PaymentOutbox} {endedAt : Time}
    (reply : GatewayReply) (κ : Type) (k : κ) : (bookOutline outboxId jobId (some k)).Follows (handle env)
      (fun l _ => ∃ y, l = .attempting y) (.attempting x) (recordReply detail x endedAt reply) := by
  cases reply with
  | ok response =>
    intro _ _
    refine ⟨_, .saveDetail, ?_⟩
    intro _ _
    exact ⟨_, .record rfl rfl rfl, x, rfl⟩
  | error message =>
    intro _ _
    refine ⟨_, .record rfl rfl rfl, ?_⟩
    intro _ _
    exact ⟨_, .saveDetail, x, rfl⟩

theorem follows_attemptPayment {detail : RidePaymentDetail} {x : PaymentOutbox} {startedAt endedAt : Time}
    (κ : Type) (k : κ) : (bookOutline outboxId jobId (some k)).Follows (handle env)
      (fun l _ => ∃ y, l = .attempting y) (.reading x) (attemptPayment x detail startedAt endedAt) := by
  intro _ _
  refine ⟨_, .attempt, ?_⟩
  intro _ _
  exact ⟨_, .post, follows_recordReply _ κ k⟩

theorem takePaymentJob_answer (w : World) (outboxId : Id) :
    (w.takePaymentJob outboxId).1 = none ∨ (w.takePaymentJob outboxId).1 = some outboxId := by
  unfold World.takePaymentJob
  split
  · split <;> simp
  · exact .inl rfl

theorem follows_deliver (h : env.PaymentConfigured) (d : JobDelivery) (k : κ) :
    (bookOutline outboxId jobId (some k)).Follows (handle env) (BookDone (some k)) .idle
      (deliverPaymentJob env outboxId d.startedAt d.endedAt) := by
  have hprocess : (bookOutline outboxId jobId (some k)).Follows (handle env)
      (fun l _ => ∃ y, l = .attempting y) .taken (processOutbox env outboxId d.startedAt d.endedAt) := by
    rw [processOutbox_eq, ensurePaymentConfiguration_ok h, pure_bind]
    rintro w ⟨x, hx, hdetail⟩
    refine ⟨.reading x, .read hx, ?_⟩
    simp only [handle, hx]
    intro v hv
    obtain ⟨r, hr⟩ := Option.ne_none_iff_exists'.mp hv
    refine ⟨.reading x, .detail, ?_⟩
    simp only [handle, hr]
    exact follows_attemptPayment κ k
  have htry : (bookOutline outboxId jobId (some k)).Follows (handle env)
      (fun l r => (∃ y, l = .attempting y) ∧ ∃ b, r = .ok b) .taken ((do
        let _ ← processOutbox env outboxId d.startedAt d.endedAt
        return true : Service Bool).catching fun _ => pure false) := by
    have hbody : (bookOutline outboxId jobId (some k)).Follows (handle env)
        (fun l _ => ∃ y, l = .attempting y) .taken (do
          let _ ← processOutbox env outboxId d.startedAt d.endedAt
          return true : Service Bool) := hprocess.bind (fun _ _ hl => hl) fun _ _ hl => hl
    exact hbody.catching (fun _ b hl => ⟨hl, b, rfl⟩) fun _ _ hl => ⟨hl, false, rfl⟩
  have hend {l : BookPhase} (hl : ∃ y, l = .attempting y) (succeeded : Bool) :
      (bookOutline outboxId jobId (some k)).Follows (handle env) (BookDone (some k)) l
        (call (.finishPaymentJob outboxId succeeded)) := by
    obtain ⟨y, rfl⟩ := hl
    exact fun _ _ => ⟨.finished, .finish, rfl⟩
  intro w _
  have htaken := takePaymentJob_answer w outboxId
  have hans : (handle env (.takePaymentJob outboxId) w).1 = .ok (w.takePaymentJob outboxId).1 := rfl
  rw [hans]
  rcases htaken with ht | ht
  · refine ⟨.finished, .miss ht, ?_⟩
    rw [ht]
    rfl
  · refine ⟨.taken, .take ht, ?_⟩
    rw [ht]
    refine htry.bind (fun l succeeded hl => hend hl.1 succeeded) fun l e hl => ?_
    obtain ⟨-, b, hb⟩ := hl
    cases hb

end Follows

section Store

variable {w : World} {outboxId : Id}

theorem persistDetail_jobs (d : RidePaymentDetail) :
    (w.persistDetail d).2.paymentJobs = w.paymentJobs := by
  unfold World.persistDetail
  split <;> rfl

theorem persistDetail_keeps (d : RidePaymentDetail) {k : Id} (h : w.details.find k ≠ none) :
    (w.persistDetail d).2.details.find k ≠ none := by
  obtain ⟨x, hx⟩ := Option.ne_none_iff_exists'.mp h
  unfold World.persistDetail
  split
  · next stored hstored =>
    have hs : w.details.find stored.id = some stored :=
      Table.find_some.mpr ⟨(mem_of_findDetailByRide hstored).1, rfl⟩
    simp only [Table.find_put (r := { d with id := stored.id }) hs]
    split <;> simp [hx]
  · simp only [Table.find_insert]
    split <;> simp [hx]

theorem persistDetail_found (d : RidePaymentDetail) :
    (w.persistDetail d).2.details.find (w.persistDetail d).1.id ≠ none := by
  unfold World.persistDetail
  split
  · next stored hstored =>
    have hs : w.details.find stored.id = some stored :=
      Table.find_some.mpr ⟨(mem_of_findDetailByRide hstored).1, rfl⟩
    simp only [Table.find_put (r := { d with id := stored.id }) hs]
    simp
  · simp [Table.find_insert]

theorem saveOutbox_found {x y : PaymentOutbox} (hx : w.outbox.find y.id = some x) :
    (w.saveOutbox y).outbox.find y.id = some
      { y with id := x.id, rideId := x.rideId, paymentDetailId := x.paymentDetailId, orderId := x.orderId } := by
  unfold World.saveOutbox
  simp only
  rw [Table.find_upsert (r := y) hx y.id]
  simp

theorem saveDetailAndOutbox_found (d : RidePaymentDetail) (input : OutboxInput) :
    ∃ x, (w.saveDetailAndOutbox d input).2.outbox.find w.outbox.nextKey = some x ∧ x.jobId = none ∧
      x.attempts = 0 ∧ (w.saveDetailAndOutbox d input).2.details.find x.paymentDetailId ≠ none := by
  have hkey : (w.persistDetail d).2.outbox.nextKey = w.outbox.nextKey := by rw [persistDetail_outbox]
  rw [← hkey]
  refine ⟨(w.saveDetailAndOutbox d input).1.2, ?_, rfl, rfl, persistDetail_found d⟩
  simp only [World.saveDetailAndOutbox, Table.find_insert, if_true]

theorem takePaymentJob_none (h : (w.takePaymentJob outboxId).1 = none) :
    (w.takePaymentJob outboxId).2 = w := by
  unfold World.takePaymentJob at h ⊢
  split at h
  · split at h
    · cases h
    · simp_all
  · simp_all

theorem takePaymentJob_some (h : (w.takePaymentJob outboxId).1 = some outboxId) :
    ∃ job, w.paymentJobs.find outboxId = some job ∧ job.state = .waiting ∧
      (w.takePaymentJob outboxId).2 = { w with
        paymentJobs := w.paymentJobs.put
          { job with state := .active, attemptsMade := job.attemptsMade + 1 } } := by
  unfold World.takePaymentJob at h ⊢
  split at h
  · next job hjob =>
    split at h
    · next hwaiting => exact ⟨job, hjob, hwaiting, by simp [hwaiting]⟩
    · cases h
  · cases h

theorem finishPaymentJob_found {job : PaymentJob} (hjob : w.paymentJobs.find outboxId = some job)
    (succeeded : Bool) : ∃ state, w.finishPaymentJob outboxId succeeded =
      { w with paymentJobs := w.paymentJobs.put { job with state } } := by
  unfold World.finishPaymentJob
  rw [hjob]
  exact ⟨_, rfl⟩

theorem put_job_found {job job' : PaymentJob} (hjob : w.paymentJobs.find outboxId = some job)
    (hid : job'.outboxId = job.outboxId) : (w.paymentJobs.put job').find outboxId = some job' := by
  have hkey : job.outboxId = outboxId := Table.key_of_find hjob
  have hfound : w.paymentJobs.find (Keyed.key job') = some job := by
    change w.paymentJobs.find job'.outboxId = some job
    rw [hid, hkey, hjob]
  have hself := Table.find_put_self hfound
  change (w.paymentJobs.put job').find job'.outboxId = some job' at hself
  rwa [hid, hkey] at hself

end Store

/-- What holds of the two parties in every interleaving. -/
structure BookSound (outboxId : Id) (jobId : String) (labels : Option κ → BookPhase) (w : World)
    (trace : OutboxTrace κ) : Prop where
  producer : (labels none).OfProducer
  worker : ∀ k, (labels (some k)).OfWorker
  fresh : labels none = .fresh → w.outbox.nextKey = outboxId
  unqueued : labels none = .fresh ∨ labels none = .stored → w.paymentJobs.find outboxId = none
  queued : labels none = .queued ∨ labels none = .written →
    ∃ job, w.paymentJobs.find outboxId = some job ∧ job.jobId = jobId
  held : ∀ k, (labels (some k)).Busy → ∃ job, w.paymentJobs.find outboxId = some job ∧ job.state ≠ .waiting
  single : ∀ k l, (labels (some k)).Busy → (labels (some l)).Busy → k = l
  row : labels none ≠ .fresh → w.Stocked outboxId
  reading : ∀ k x, labels (some k) = .reading x → x.id = outboxId ∧ w.details.find x.paymentDetailId ≠ none
  attempting : ∀ k x, labels (some k) = .attempting x → x.id = outboxId
  again : writtenAgain trace = true ↔ labels none = .written

/-- `R n` holds of job id and attempts of the row after `n` executions, and of those that
a worker has in hand. -/
structure BookRows (R : ℕ → Option String → ℕ → Prop) (outboxId : Id) (labels : Option κ → BookPhase)
    (w : World) (n : ℕ) : Prop where
  row : (∀ k x, labels (some k) ≠ .reading x) → ∀ x, w.outbox.find outboxId = some x → R n x.jobId x.attempts
  reading : ∀ k x, labels (some k) = .reading x → R n x.jobId (x.attempts + 1)
  attempting : ∀ k x, labels (some k) = .attempting x → R n x.jobId x.attempts

section Steps

variable {outboxId : Id} {jobId : String} {labels : Option κ → BookPhase} {w w' : World}
  {trace : OutboxTrace κ} {e : Event Call Call.Answer ServiceError} {l' : BookPhase} {k : κ}

theorem BookSound.stocked (h : BookSound outboxId jobId labels w trace) (hk : (labels (some k)).Busy) :
    w.Stocked outboxId := by
  refine h.row fun hfresh => ?_
  obtain ⟨job, hjob, -⟩ := h.held k hk
  rw [h.unqueued (.inl hfresh)] at hjob
  cases hjob

theorem BookSound.pre (h : BookSound outboxId jobId labels w trace) (i : Option κ) :
    (labels i).Pre outboxId w := by
  cases i with
  | none =>
    have hp := h.producer
    cases hl : labels none with
    | fresh => exact h.fresh hl
    | stored | queued | written => trivial
    | _ =>
      rw [hl] at hp
      exact hp.elim
  | some k =>
    have hp := h.worker k
    cases hl : labels (some k) with
    | taken => exact h.stocked (k := k) (by rw [hl]; trivial)
    | reading x => exact (h.reading k x hl).2
    | idle | attempting | finished => trivial
    | _ =>
      rw [hl] at hp
      exact hp.elim

/-- Before the job is queued no delivery has it. -/
theorem BookSound.unheld (h : BookSound outboxId jobId labels w trace)
    (hp : labels none = .fresh ∨ labels none = .stored) (k : κ) : ¬ (labels (some k)).Busy := by
  intro hk
  obtain ⟨job, hjob, -⟩ := h.held k hk
  rw [h.unqueued hp] at hjob
  cases hjob

/-- Another delivery does not have the job of a busy one. -/
theorem BookSound.alone (h : BookSound outboxId jobId labels w trace) (hk : (labels (some k)).Busy) {j : κ}
    (hj : j ≠ k) : ¬ (labels (some j)).Busy := fun hb => hj (h.single j k hb hk)

/-- The row after a write of a busy delivery. -/
theorem BookSound.written (h : BookSound outboxId jobId labels w trace) (hk : (labels (some k)).Busy)
    {y : PaymentOutbox} (hy : y.id = outboxId) : ∃ x, w.outbox.find outboxId = some x ∧
      w.details.find x.paymentDetailId ≠ none ∧ (w.saveOutbox y).outbox.find outboxId = some
        { y with id := x.id, rideId := x.rideId, paymentDetailId := x.paymentDetailId, orderId := x.orderId } := by
  subst hy
  obtain ⟨x, hx, hdetail⟩ := h.stocked hk
  exact ⟨x, hx, hdetail, saveOutbox_found hx⟩

variable [DecidableEq κ]

/-- A step of a delivery, told by what it does to the store. -/
theorem BookSound.deliver (h : BookSound outboxId jobId labels w trace) (hl : l'.OfWorker)
    (hkey : labels none = .fresh → w'.outbox.nextKey = outboxId)
    (hnone : w.paymentJobs.find outboxId = none → w'.paymentJobs.find outboxId = none)
    (hsome : ∀ job, w.paymentJobs.find outboxId = some job →
      ∃ job', w'.paymentJobs.find outboxId = some job' ∧ job'.jobId = job.jobId)
    (hbusy : l'.Busy → (∃ job, w'.paymentJobs.find outboxId = some job ∧ job.state ≠ .waiting) ∧
      ∀ j, j ≠ k → ¬ (labels (some j)).Busy)
    (hothers : ∀ j, j ≠ k → (labels (some j)).Busy →
      ∃ job, w'.paymentJobs.find outboxId = some job ∧ job.state ≠ .waiting)
    (hrow : w.Stocked outboxId → w'.Stocked outboxId)
    (hdetails : ∀ m, w.details.find m ≠ none → w'.details.find m ≠ none)
    (hreading : ∀ x, l' = .reading x → x.id = outboxId ∧ w'.details.find x.paymentDetailId ≠ none)
    (hattempting : ∀ x, l' = .attempting x → x.id = outboxId) :
    BookSound outboxId jobId (Function.update labels (some k) l') w' ((some k, e) :: trace) := by
  have hn : Function.update labels (some k) l' none = labels none := by simp
  have hj {j : κ} (hj : j ≠ k) : Function.update labels (some k) l' (some j) = labels (some j) := by
    simp [hj]
  have hk : Function.update labels (some k) l' (some k) = l' := by simp
  refine ⟨?_, ?_, ?_, ?_, ?_, ?_, ?_, ?_, ?_, ?_, ?_⟩
  · rw [hn]
    exact h.producer
  · intro j
    by_cases hjk : j = k
    · rwa [hjk, hk]
    · rw [hj hjk]
      exact h.worker j
  · rwa [hn]
  · rw [hn]
    exact fun hp => hnone (h.unqueued hp)
  · rw [hn]
    intro hp
    obtain ⟨job, hjob, hid⟩ := h.queued hp
    obtain ⟨job', hjob', hid'⟩ := hsome job hjob
    exact ⟨job', hjob', hid'.trans hid⟩
  · intro j hb
    by_cases hjk : j = k
    · rw [hjk, hk] at hb
      exact (hbusy hb).1
    · rw [hj hjk] at hb
      exact hothers j hjk hb
  · intro i j hbi hbj
    by_cases hik : i = k <;> by_cases hjk : j = k
    · rw [hik, hjk]
    · rw [hik, hk] at hbi
      rw [hj hjk] at hbj
      exact absurd hbj ((hbusy hbi).2 j hjk)
    · rw [hjk, hk] at hbj
      rw [hj hik] at hbi
      exact absurd hbi ((hbusy hbj).2 i hik)
    · rw [hj hik] at hbi
      rw [hj hjk] at hbj
      exact h.single i j hbi hbj
  · rw [hn]
    exact fun hp => hrow (h.row hp)
  · intro j x hx
    by_cases hjk : j = k
    · rw [hjk, hk] at hx
      exact hreading x hx
    · rw [hj hjk] at hx
      exact ⟨(h.reading j x hx).1, hdetails _ (h.reading j x hx).2⟩
  · intro j x hx
    by_cases hjk : j = k
    · rw [hjk, hk] at hx
      exact hattempting x hx
    · rw [hj hjk] at hx
      exact h.attempting j x hx
  · rw [hn, ← h.again, writtenAgain_cons]
    simp

/-- A busy delivery that leaves the jobs and the keys of the rows alone. -/
theorem BookSound.work (h : BookSound outboxId jobId labels w trace) (hk : (labels (some k)).Busy)
    (hl : l'.OfWorker) (hjobs : w'.paymentJobs = w.paymentJobs) (hrow : w.Stocked outboxId → w'.Stocked outboxId)
    (hdetails : ∀ m, w.details.find m ≠ none → w'.details.find m ≠ none)
    (hreading : ∀ x, l' = .reading x → x.id = outboxId ∧ w'.details.find x.paymentDetailId ≠ none)
    (hattempting : ∀ x, l' = .attempting x → x.id = outboxId) :
    BookSound outboxId jobId (Function.update labels (some k) l') w' ((some k, e) :: trace) := by
  have hheld := h.held k hk
  rw [← hjobs] at hheld
  refine h.deliver hl ?_ (by rw [hjobs]; exact id) (by rw [hjobs]; exact fun job hjob => ⟨job, hjob, rfl⟩)
    (fun _ => ⟨hheld, fun j hj => h.alone hk hj⟩) (fun _ _ _ => hheld) hrow hdetails hreading hattempting
  intro hfresh
  obtain ⟨job, hjob, -⟩ := h.held k hk
  rw [h.unqueued (.inl hfresh)] at hjob
  cases hjob

theorem BookSound.save (h : BookSound outboxId jobId labels w trace) (hk : (labels (some k)).Busy)
    {x y : PaymentOutbox} (hx : x.id = outboxId) (hy : y.id = outboxId) :
    BookSound outboxId jobId (Function.update labels (some k) (.attempting x)) (w.saveOutbox y)
      ((some k, e) :: trace) := by
  obtain ⟨z, -, hdetail, hfound⟩ := h.written hk hy
  refine h.work hk trivial rfl (fun _ => ⟨_, hfound, hdetail⟩) (fun _ hm => hm) (by simp) fun x' hx' => ?_
  rw [← BookPhase.attempting.inj hx']
  exact hx

theorem BookSound.worker_step (h : BookSound outboxId jobId labels w trace) {op : Call}
    (hm : WorkerMove outboxId (labels (some k)) op w l') :
    BookSound outboxId jobId (Function.update labels (some k) l') (handle env op w).2
      ((some k, e) :: trace) := by
  generalize hl : labels (some k) = l at hm
  have hquiet (hk : (labels (some k)).Busy) (hl' : l'.OfWorker)
      (hread : ∀ x, l' = .reading x → x.id = outboxId ∧ w.details.find x.paymentDetailId ≠ none)
      (hatt : ∀ x, l' = .attempting x → x.id = outboxId) (answered : ℕ) (posts : List PaymentRequestPayload) :
      BookSound outboxId jobId (Function.update labels (some k) l') { w with posts, answered }
        ((some k, e) :: trace) :=
    h.work hk hl' rfl (fun hw => hw) (fun _ hm => hm) hread hatt
  cases hm with
  | miss hmiss =>
    have hw : (handle env (.takePaymentJob outboxId) w).2 = w := takePaymentJob_none hmiss
    rw [hw]
    exact h.deliver trivial h.fresh id (fun job hjob => ⟨job, hjob, rfl⟩) (fun hb => hb.elim)
      (fun j _ hb => h.held j hb) id (fun _ hm => hm) (by simp) (by simp)
  | take htake =>
    obtain ⟨job, hjob, hwaiting, hw⟩ := takePaymentJob_some htake
    change BookSound _ _ _ (w.takePaymentJob outboxId).2 _
    rw [hw]
    have hidle (j : κ) : ¬ (labels (some j)).Busy := by
      intro hb
      obtain ⟨job', hjob', hstate⟩ := h.held j hb
      obtain rfl : job = job' := Option.some.inj (hjob.symm.trans hjob')
      exact hstate hwaiting
    have hput := @put_job_found _ _ _ { job with state := .active, attemptsMade := job.attemptsMade + 1 } hjob rfl
    refine h.deliver trivial h.fresh (by simp [hjob]) (fun job' hjob' => ⟨_, hput, ?_⟩)
      (fun _ => ⟨⟨_, hput, by simp⟩, fun j _ => hidle j⟩) (fun j _ hb => absurd hb (hidle j)) id
      (fun _ hm => hm) (by simp) (by simp)
    rw [← Option.some.inj (hjob.symm.trans hjob')]
  | read hx =>
    have hk : (labels (some k)).Busy := by
      rw [hl]
      trivial
    refine hquiet hk trivial (fun y hy => ?_) (by simp) w.answered w.posts
    obtain ⟨x, hx', hdetail⟩ := h.stocked hk
    obtain rfl := BookPhase.reading.inj hy
    rw [hx, Option.some.injEq] at hx'
    exact ⟨Table.key_of_find hx, hx' ▸ hdetail⟩
  | detail =>
    refine hquiet (by rw [hl]; trivial) trivial (fun y hy => ?_) (by simp) w.answered w.posts
    obtain rfl := BookPhase.reading.inj hy
    exact h.reading k _ hl
  | attempt =>
    have hid := (h.reading k _ hl).1
    exact h.save (by rw [hl]; trivial) hid hid
  | post =>
    refine hquiet (by rw [hl]; trivial) trivial (by simp) (fun y hy => ?_) _ _
    rw [← BookPhase.attempting.inj hy]
    exact h.attempting k _ hl
  | @saveDetail x d =>
    have hw : (handle env (.saveDetail d) w).2 = (w.persistDetail d).2 := rfl
    rw [hw]
    refine h.work (by rw [hl]; trivial) trivial (persistDetail_jobs d) ?_
      (fun m hm => persistDetail_keeps d hm) (by simp) ?_
    · rintro ⟨y, hy, hdetail⟩
      exact ⟨y, by rwa [persistDetail_outbox], persistDetail_keeps d hdetail⟩
    · intro y hy
      rw [← BookPhase.attempting.inj hy]
      exact h.attempting k _ hl
  | record hid =>
    have hx := h.attempting k _ hl
    exact h.save (by rw [hl]; trivial) hx (hid.trans hx)
  | @finish x b =>
    have hk : (labels (some k)).Busy := by
      rw [hl]
      trivial
    obtain ⟨job, hjob, -⟩ := h.held k hk
    obtain ⟨state, hw⟩ := finishPaymentJob_found hjob b
    change BookSound _ _ _ (w.finishPaymentJob outboxId b) _
    rw [hw]
    have hput := @put_job_found _ _ _ { job with state } hjob rfl
    refine h.deliver trivial h.fresh (by simp [hjob]) (fun job' hjob' => ⟨_, hput, ?_⟩) (fun hb => hb.elim)
      (fun j hj hb => absurd hb (h.alone hk hj)) id (fun _ hm => hm) (by simp) (by simp)
    rw [← Option.some.inj (hjob.symm.trans hjob')]

/-- A step of the producer leaves the deliveries where they are. -/
theorem BookSound.produce (h : BookSound outboxId jobId labels w trace) (hl : l'.OfProducer)
    (hlater : l' ≠ .fresh) (hunqueued : l' = .stored → w'.paymentJobs.find outboxId = none)
    (hqueued : l' = .queued ∨ l' = .written → ∃ job, w'.paymentJobs.find outboxId = some job ∧ job.jobId = jobId)
    (hheld : ∀ k, (labels (some k)).Busy → w'.paymentJobs = w.paymentJobs)
    (hrow : w'.Stocked outboxId)
    (hdetails : ∀ k, (labels (some k)).Busy → w'.details = w.details)
    (hagain : writtenAgain ((none, e) :: trace) = true ↔ l' = .written) :
    BookSound outboxId jobId (Function.update labels none l') w' ((none, e) :: trace) := by
  have hn : Function.update labels none l' none = l' := by simp
  have hs (k : κ) : Function.update labels none l' (some k) = labels (some k) := by simp
  refine ⟨by rwa [hn], fun k => ?_, fun hp => ?_, fun hp => ?_, by rwa [hn], fun k hk => ?_, fun i j hi hj => ?_,
    fun _ => hrow, fun k x hx => ?_, fun k x hx => ?_, by rwa [hn]⟩
  · rw [hs]
    exact h.worker k
  · rw [hn] at hp
    exact absurd hp hlater
  · rw [hn] at hp
    exact hunqueued (hp.resolve_left hlater)
  · rw [hs] at hk
    rw [hheld k hk]
    exact h.held k hk
  · rw [hs] at hi hj
    exact h.single i j hi hj
  · rw [hs] at hx
    rw [hdetails k (by rw [hx]; trivial)]
    exact h.reading k x hx
  · rw [hs] at hx
    exact h.attempting k x hx

theorem BookSound.producer_step (h : BookSound outboxId jobId labels w trace) {op : Call}
    {a : Except ServiceError op.Answer} (hm : ProducerMove outboxId jobId (labels none) op w l') :
    BookSound outboxId jobId (Function.update labels none l') (handle env op w).2
      ((none, ⟨op, a⟩) :: trace) := by
  generalize hl : labels none = l at hm
  have hbefore (hne : labels none ≠ .written) : writtenAgain trace = false := by
    rw [← Bool.not_eq_true, h.again]
    exact hne
  cases hm with
  | @store d input =>
    have hidle := h.unheld (.inl hl)
    obtain ⟨x, hx, -, -, hdetail⟩ := saveDetailAndOutbox_found (w := w) d input
    rw [h.fresh hl] at hx
    have hjobs : (handle env (.saveDetailAndOutbox d input) w).2.paymentJobs = w.paymentJobs :=
      persistDetail_jobs d
    refine h.produce trivial (by simp) (fun _ => ?_) (by simp) (fun k hk => absurd hk (hidle k)) ⟨x, hx, hdetail⟩
      (fun k hk => absurd hk (hidle k)) ?_
    · rw [hjobs]
      exact h.unqueued (.inl hl)
    · rw [writtenAgain_cons, hbefore (by simp [hl])]
      simp [Call.savedOutbox]
  | queue =>
    have hidle := h.unheld (.inr hl)
    have hjob : (w.addPaymentJob outboxId jobId).paymentJobs.find outboxId = some ⟨outboxId, jobId, .waiting, 0⟩ :=
      Table.find_upsert_self (h.unqueued (.inr hl))
    refine h.produce trivial (by simp) (by simp) (fun _ => ⟨_, hjob, rfl⟩) (fun k hk => absurd hk (hidle k))
      (h.row (by simp [hl])) (fun k hk => absurd hk (hidle k)) ?_
    rw [writtenAgain_cons, hbefore (by simp [hl])]
    simp [Call.savedOutbox]
  | @write x _ hid hjobId hattempts =>
    obtain ⟨y, hy, hdetail⟩ := h.row (by simp [hl])
    subst hid
    refine h.produce trivial (by simp) (by simp) (fun _ => h.queued (.inl hl)) (fun _ _ => rfl)
      ⟨_, saveOutbox_found hy, hdetail⟩ (fun _ _ => rfl) ?_
    simp [writtenAgain_cons, Call.savedOutbox]
  | wait | refresh =>
    refine h.produce trivial (by simp) (by simp) (fun _ => h.queued (.inr hl)) (fun _ _ => rfl)
      (h.row (by simp [hl])) (fun _ _ => rfl) ?_
    rw [writtenAgain_cons, h.again.mpr hl]
    simp

/-- A step of a delivery keeps what the row and the rows in hand say, execution by execution. -/
theorem BookRows.worker_step {R : ℕ → Option String → ℕ → Prop} (hR : ∀ n j a, R n j a → R (n + 1) j (a + 1))
    {n : ℕ} (hb : BookRows R outboxId labels w n) (h : BookSound outboxId jobId labels w trace) {op : Call}
    (hm : WorkerMove outboxId (labels (some k)) op w l') :
    BookRows R outboxId (Function.update labels (some k) l') (handle env op w).2
      (n + if op.readsOutbox then 1 else 0) := by
  generalize hl : labels (some k) = l at hm
  have hk : Function.update labels (some k) l' (some k) = l' := by simp
  have hj {j : κ} (hj : j ≠ k) : Function.update labels (some k) l' (some j) = labels (some j) := by
    simp [hj]
  -- a step that neither reads nor writes the row
  have hquiet (hread : ∀ x, l' = .reading x → l = .reading x) (hread' : ∀ x, l = .reading x → l' = .reading x)
      (hatt : ∀ x, l' = .attempting x → l = .attempting x) {w' : World}
      (hout : w'.outbox.find outboxId = w.outbox.find outboxId) :
      BookRows R outboxId (Function.update labels (some k) l') w' n := by
    refine ⟨fun hno x hx => ?_, fun j x hx => ?_, fun j x hx => ?_⟩
    · rw [hout] at hx
      refine hb.row (fun j y hy => ?_) x hx
      by_cases hjk : j = k
      · subst hjk
        rw [hl] at hy
        exact hno j y (hk.trans (hread' y hy))
      · exact hno j y ((hj hjk).trans hy)
    · by_cases hjk : j = k
      · subst hjk
        rw [hk] at hx
        exact hb.reading j x (hl.trans (hread x hx))
      · rw [hj hjk] at hx
        exact hb.reading j x hx
    · by_cases hjk : j = k
      · subst hjk
        rw [hk] at hx
        exact hb.attempting j x (hl.trans (hatt x hx))
      · rw [hj hjk] at hx
        exact hb.attempting j x hx
  -- a write of the row, which says what the worker has in hand
  have hwrite (hbusy : (labels (some k)).Busy) {x y : PaymentOutbox} (hy : y.id = outboxId)
      (hx : R n x.jobId x.attempts) (hjob : y.jobId = x.jobId) (hatt : y.attempts = x.attempts) :
      BookRows R outboxId (Function.update labels (some k) (.attempting x)) (w.saveOutbox y) n := by
    have hu (j : κ) (hjk : j ≠ k) : Function.update labels (some k) (.attempting x) (some j) = labels (some j) := by
      simp [hjk]
    obtain ⟨z, -, -, hfound⟩ := h.written hbusy hy
    refine ⟨fun _ v hv => ?_, fun j v hv => ?_, fun j v hv => ?_⟩
    · rw [hfound, Option.some.injEq] at hv
      rw [← hv]
      change R n y.jobId y.attempts
      rwa [hjob, hatt]
    · by_cases hjk : j = k
      · subst hjk
        simp at hv
      · rw [hu j hjk] at hv
        exact hb.reading j v hv
    · by_cases hjk : j = k
      · subst hjk
        simp only [Function.update_self, BookPhase.attempting.injEq] at hv
        rwa [← hv]
      · rw [hu j hjk] at hv
        exact hb.attempting j v hv
  cases hm with
  | miss hmiss =>
    have hw : (handle env (.takePaymentJob outboxId) w).2 = w := takePaymentJob_none hmiss
    rw [hw]
    exact hquiet (by simp) (by simp) (by simp) rfl
  | take htake =>
    obtain ⟨job, -, -, hw⟩ := takePaymentJob_some htake
    refine hquiet (by simp) (by simp) (by simp) ?_
    change (w.takePaymentJob outboxId).2.outbox.find outboxId = _
    rw [hw]
  | @read x _ hx =>
    have hbusy : (labels (some k)).Busy := by
      rw [hl]
      trivial
    have hidle (j : κ) (hjk : j ≠ k) (y : PaymentOutbox) :
        labels (some j) ≠ .reading y ∧ labels (some j) ≠ .attempting y := by
      have hno := h.alone hbusy hjk
      refine ⟨fun hy => hno ?_, fun hy => hno ?_⟩ <;> rw [hy] <;> trivial
    have hrow : R n x.jobId x.attempts := by
      refine hb.row (fun j y => ?_) x hx
      by_cases hjk : j = k
      · rw [hjk, hl]
        simp
      · exact (hidle j hjk y).1
    refine ⟨fun hno => absurd hk (hno k x), fun j y hy => ?_, fun j y hy => ?_⟩
    · by_cases hjk : j = k
      · subst hjk
        rw [hk] at hy
        rw [← BookPhase.reading.inj hy]
        exact hR n _ _ hrow
      · rw [hj hjk] at hy
        exact absurd hy (hidle j hjk y).1
    · by_cases hjk : j = k
      · subst hjk
        rw [hk] at hy
        cases hy
      · rw [hj hjk] at hy
        exact absurd hy (hidle j hjk y).2
  | detail => exact hquiet (by simp) (by simp) (by simp) rfl
  | attempt =>
    exact hwrite (by rw [hl]; trivial) (h.reading k _ hl).1 (hb.reading k _ hl) rfl rfl
  | post => exact hquiet (by simp) (by simp) (by simp) rfl
  | @saveDetail x d =>
    refine hquiet (by simp) (by simp) (by simp) ?_
    change (w.persistDetail d).2.outbox.find outboxId = _
    rw [persistDetail_outbox]
  | record hid hjob hatt =>
    exact hwrite (by rw [hl]; trivial) (hid.trans (h.attempting k _ hl)) (hb.attempting k _ hl) hjob hatt
  | @finish x b =>
    obtain ⟨job, hjob, -⟩ := h.held k (by rw [hl]; trivial)
    obtain ⟨state, hw⟩ := finishPaymentJob_found hjob b
    refine hquiet (by simp) (by simp) (by simp) ?_
    change (w.finishPaymentJob outboxId b).outbox.find outboxId = _
    rw [hw]

end Steps

/-- No worker has read the row before the producer has written it again. -/
structure BookGood (outboxId : Id) (jobId : String) (labels : Option κ → BookPhase) (w : World)
    (trace : OutboxTrace κ) : Prop where
  sound : BookSound outboxId jobId labels w trace
  early : labels none ≠ .written → executions trace = 0 ∧ lastWritten trace = none ∧
    ∀ k x, labels (some k) ≠ .reading x ∧ labels (some k) ≠ .attempting x
  unwritten : labels none = .stored ∨ labels none = .queued →
    ∀ x, w.outbox.find outboxId = some x → x.jobId = none
  rows : labels none = .written →
    BookRows (fun n j a => j = some jobId ∧ a = n) outboxId labels w (executions trace)
  report : labels none = .written → ∀ x y, w.outbox.find outboxId = some x → lastWritten trace = some y →
    SameReport x y

/-- A worker has, and from then on the row lacks the job or the right count. -/
structure BookBad (outboxId : Id) (jobId : String) (labels : Option κ → BookPhase) (w : World)
    (trace : OutboxTrace κ) : Prop where
  sound : BookSound outboxId jobId labels w trace
  counted : 0 < executions trace
  later : labels none = .queued ∨ labels none = .written
  rows : BookRows (fun n j a => j = none ∨ labels none = .written ∧ a ≠ n) outboxId labels w (executions trace)

section Outcome

variable [DecidableEq κ] {outboxId : Id} {jobId : String} {labels : Option κ → BookPhase} {w : World}
  {trace : OutboxTrace κ} {l l' : BookPhase} {k : κ} {op : Call} {a : Except ServiceError op.Answer}

theorem WorkerMove.read_inv (hm : WorkerMove outboxId l op w l') (hop : op.readsOutbox = true) :
    ∃ x, l = .taken ∧ l' = .reading x ∧ w.outbox.find outboxId = some x := by
  cases hm with
  | read hx => exact ⟨_, rfl, rfl, hx⟩
  | _ => cases hop

/-- Without a row in hand a delivery does not write, and only a read gives it one. -/
theorem WorkerMove.empty_handed (hm : WorkerMove outboxId l op w l')
    (hl : ∀ x, l ≠ .reading x ∧ l ≠ .attempting x) (hop : op.readsOutbox ≠ true) :
    op.savedOutbox = none ∧ ∀ x, l' ≠ .reading x ∧ l' ≠ .attempting x := by
  cases hm with
  | miss | take => exact ⟨rfl, fun x => by simp⟩
  | read => exact absurd rfl hop
  | detail | attempt => exact absurd rfl (hl _).1
  | post | saveDetail | record | finish => exact absurd rfl (hl _).2

/-- A delivery changes the rows only where it saves one. -/
theorem WorkerMove.unsaved (hm : WorkerMove outboxId l op w l') (hop : op.savedOutbox = none) :
    (handle env op w).2.outbox = w.outbox := by
  cases hm with
  | miss hmiss =>
    have hw : (handle env (.takePaymentJob outboxId) w).2 = w := takePaymentJob_none hmiss
    rw [hw]
  | take htake =>
    obtain ⟨job, -, -, hw⟩ := takePaymentJob_some htake
    change (w.takePaymentJob outboxId).2.outbox = w.outbox
    rw [hw]
  | saveDetail => exact persistDetail_outbox _
  | attempt | record => cases hop
  | finish =>
    change (w.finishPaymentJob outboxId _).outbox = w.outbox
    unfold World.finishPaymentJob
    split <;> rfl
  | _ => rfl

omit [DecidableEq κ] in
/-- A saved row is the row of the job, as it was saved. -/
theorem WorkerMove.saved (h : BookSound outboxId jobId labels w trace)
    (hm : WorkerMove outboxId (labels (some k)) op w l') {y : PaymentOutbox} (hop : op.savedOutbox = some y)
    {x : PaymentOutbox} (hx : (handle env op w).2.outbox.find outboxId = some x) : SameReport x y := by
  generalize hl : labels (some k) = l at hm
  have hsame (hbusy : (labels (some k)).Busy) {z : PaymentOutbox} (hz : z.id = outboxId)
      (hfound : (w.saveOutbox z).outbox.find outboxId = some x) : SameReport x z := by
    obtain ⟨v, -, -, hv⟩ := h.written hbusy hz
    rw [hv, Option.some.injEq] at hfound
    rw [← hfound]
    exact ⟨rfl, rfl, rfl, rfl⟩
  cases hm with
  | attempt =>
    rw [← Option.some.inj hop]
    exact hsame (by rw [hl]; trivial) (h.reading k _ hl).1 hx
  | record hid =>
    rw [← Option.some.inj hop]
    exact hsame (by rw [hl]; trivial) (hid.trans (h.attempting k _ hl)) hx
  | _ => cases hop

theorem BookGood.worker_step (h : BookGood outboxId jobId labels w trace)
    (hm : WorkerMove outboxId (labels (some k)) op w l')
    (hok : op.readsOutbox = true → writtenAgain trace = true) :
    BookGood outboxId jobId (Function.update labels (some k) l') (handle env op w).2
      ((some k, ⟨op, a⟩) :: trace) := by
  have hn : Function.update labels (some k) l' none = labels none := by simp
  -- before the second write nothing is read, and so nothing is saved
  have hidle (hne : labels none ≠ .written) : op.readsOutbox ≠ true ∧ op.savedOutbox = none ∧
      ∀ x, l' ≠ .reading x ∧ l' ≠ .attempting x := by
    have hread : op.readsOutbox ≠ true := fun hop => hne (h.sound.again.mp (hok hop))
    exact ⟨hread, hm.empty_handed ((h.early hne).2.2 k) hread⟩
  refine ⟨h.sound.worker_step hm, ?_, ?_, ?_, ?_⟩
  · intro hne
    rw [hn] at hne
    obtain ⟨hread, hsaved, hl'⟩ := hidle hne
    obtain ⟨hcount, hlast, hhands⟩ := h.early hne
    refine ⟨by simp [executions_cons, hcount, hread], by simp [lastWritten_cons, hlast, hsaved], fun j x => ?_⟩
    by_cases hj : j = k
    · subst hj
      simpa using hl' x
    · simpa [hj] using hhands j x
  · intro hp x hx
    rw [hn] at hp
    have hne : labels none ≠ .written := by rcases hp with hp | hp <;> simp [hp]
    rw [hm.unsaved (hidle hne).2.1] at hx
    exact h.unwritten hp x hx
  · intro hwritten
    rw [hn] at hwritten
    rw [executions_cons]
    refine (h.rows hwritten).worker_step (fun n j b hR => ?_) h.sound hm
    exact ⟨hR.1, by rw [hR.2]⟩
  · intro hwritten x y hx hy
    rw [hn] at hwritten
    rw [lastWritten_cons] at hy
    cases hop : op.savedOutbox with
    | none =>
      rw [hm.unsaved hop] at hx
      simp only [hop, ite_self, Option.none_or] at hy
      exact h.report hwritten x y hx hy
    | some z =>
      simp only [hop, Option.isSome_some, if_true, Option.some_or, Option.some.injEq] at hy
      rw [← hy]
      exact hm.saved h.sound hop hx

/-- The first read before the second write. -/
theorem BookGood.worker_strays (h : BookGood outboxId jobId labels w trace)
    (hm : WorkerMove outboxId (labels (some k)) op w l')
    (hno : ¬ (op.readsOutbox = true → writtenAgain trace = true)) :
    BookBad outboxId jobId (Function.update labels (some k) l') (handle env op w).2
      ((some k, ⟨op, a⟩) :: trace) := by
  obtain ⟨hread, hbefore⟩ := Classical.not_imp.mp hno
  have hne : labels none ≠ .written := fun hl => hbefore (h.sound.again.mpr hl)
  have hsound : BookSound outboxId jobId (Function.update labels (some k) l') (handle env op w).2
      ((some k, ⟨op, a⟩) :: trace) := h.sound.worker_step hm
  obtain ⟨x, hl, rfl, hx⟩ := hm.read_inv hread
  have hbusy : (labels (some k)).Busy := by
    rw [hl]
    trivial
  have hqueued : labels none = .queued := by
    have hp := h.sound.producer
    have hunheld := fun hp => h.sound.unheld hp k hbusy
    cases hnone : labels none with
    | fresh => exact absurd (.inl hnone) hunheld
    | stored => exact absurd (.inr hnone) hunheld
    | queued => rfl
    | written => exact absurd hnone hne
    | _ =>
      rw [hnone] at hp
      exact hp.elim
  obtain ⟨-, -, hhands⟩ := h.early hne
  refine ⟨hsound, ?_, .inl (by simpa using hqueued), fun hno => ?_, fun j y hy => ?_, fun j y hy => ?_⟩
  · rw [executions_cons, if_pos hread]
    omega
  · exact absurd (by simp) (hno k x)
  · left
    by_cases hj : j = k
    · subst hj
      simp only [Function.update_self, BookPhase.reading.injEq] at hy
      rw [← hy]
      exact h.unwritten (.inr hqueued) x hx
    · exact absurd (by simpa [hj] using hy) (hhands j y).1
  · by_cases hj : j = k
    · simp [hj] at hy
    · exact absurd (by simpa [hj] using hy) (hhands j y).2

theorem BookBad.worker_step (h : BookBad outboxId jobId labels w trace)
    (hm : WorkerMove outboxId (labels (some k)) op w l') :
    BookBad outboxId jobId (Function.update labels (some k) l') (handle env op w).2
      ((some k, ⟨op, a⟩) :: trace) := by
  have hn : Function.update labels (some k) l' none = labels none := by simp
  refine ⟨h.sound.worker_step hm, ?_, by rw [hn]; exact h.later, ?_⟩
  · have := h.counted
    rw [executions_cons]
    omega
  · rw [hn, executions_cons]
    refine h.rows.worker_step (fun n j b hR => ?_) h.sound hm
    rcases hR with hj | ⟨hl, hne⟩
    · exact .inl hj
    · exact .inr ⟨hl, by omega⟩

/-- The calls of the producer read no row, and do not count as a worker's. -/
theorem ProducerMove.unread (hm : ProducerMove outboxId jobId l op w l') : op.readsOutbox ≠ true := by
  cases hm <;> simp [Call.readsOutbox]

variable (env) in
/-- A producer that only waits changes nothing. -/
theorem ProducerMove.waiting (hm : ProducerMove outboxId jobId .written op w l') :
    l' = .written ∧ (handle env op w).2 = w := by
  cases hm <;> exact ⟨rfl, rfl⟩

theorem BookGood.producer_step (h : BookGood outboxId jobId labels w trace)
    (hm : ProducerMove outboxId jobId (labels none) op w l') :
    BookGood outboxId jobId (Function.update labels none l') (handle env op w).2
      ((none, ⟨op, a⟩) :: trace) := by
  have hsound : BookSound outboxId jobId (Function.update labels none l') (handle env op w).2
      ((none, ⟨op, a⟩) :: trace) := h.sound.producer_step hm
  have hcount : executions ((none, ⟨op, a⟩) :: trace) = executions trace := by
    simp [executions_cons, hm.unread]
  have hlast : lastWritten ((none, ⟨op, a⟩) :: trace) = lastWritten trace := by
    simp [lastWritten_cons]
  have hearly (hne : labels none ≠ .written) : executions ((none, ⟨op, a⟩) :: trace) = 0 ∧
      lastWritten ((none, ⟨op, a⟩) :: trace) = none ∧ ∀ k x,
        Function.update labels none l' (some k) ≠ .reading x ∧
        Function.update labels none l' (some k) ≠ .attempting x := by
    obtain ⟨h1, h2, h3⟩ := h.early hne
    exact ⟨hcount.trans h1, hlast.trans h2, fun k x => by simpa using h3 k x⟩
  generalize hl : labels none = l at hm
  by_cases hwritten : l = .written
  · subst hwritten
    obtain ⟨rfl, hw⟩ := hm.waiting env
    have hsame : Function.update labels none .written = labels := by
      rw [← hl]
      exact Function.update_eq_self none labels
    rw [hsame] at hsound ⊢
    rw [hw] at hsound ⊢
    refine ⟨hsound, fun hne => absurd hl hne, h.unwritten, ?_, ?_⟩
    · rw [hcount]
      exact h.rows
    · rw [hlast]
      exact h.report
  · have hidle := hearly (by rwa [hl])
    refine ⟨hsound, fun _ => hidle, fun hp x hx => ?_, fun hp => ?_, fun _ x y _ hy => ?_⟩
    · cases hm with
      | @store d input =>
        obtain ⟨x', hx', hjob, -, -⟩ := saveDetailAndOutbox_found (w := w) d input
        rw [h.sound.fresh hl] at hx'
        obtain rfl : x' = x := Option.some.inj (hx'.symm.trans hx)
        exact hjob
      | queue => exact h.unwritten (.inl hl) x hx
      | write => simp at hp
      | wait | refresh => exact absurd rfl hwritten
    · cases hm with
      | @write y _ hid hjob hattempts =>
        obtain ⟨z, hz, -⟩ := h.sound.row (by simp [hl])
        subst hid
        refine ⟨fun _ x hx => ?_, fun k x hx => absurd hx (hidle.2.2 k x).1, fun k x hx => absurd hx (hidle.2.2 k x).2⟩
        have hfound := saveOutbox_found hz
        obtain rfl := Option.some.inj (hfound.symm.trans hx)
        exact ⟨hjob, hattempts.trans hidle.1.symm⟩
      | store | queue => simp at hp
      | wait | refresh => exact absurd rfl hwritten
    · rw [hidle.2.1] at hy
      cases hy

theorem BookBad.producer_step (h : BookBad outboxId jobId labels w trace)
    (hm : ProducerMove outboxId jobId (labels none) op w l') :
    BookBad outboxId jobId (Function.update labels none l') (handle env op w).2
      ((none, ⟨op, a⟩) :: trace) := by
  have hsound : BookSound outboxId jobId (Function.update labels none l') (handle env op w).2
      ((none, ⟨op, a⟩) :: trace) := h.sound.producer_step hm
  have hcount : executions ((none, ⟨op, a⟩) :: trace) = executions trace := by
    simp [executions_cons, hm.unread]
  have hcounted := h.counted
  rw [← hcount] at hcounted
  generalize hl : labels none = l at hm
  by_cases hwritten : l = .written
  · subst hwritten
    obtain ⟨rfl, hw⟩ := hm.waiting env
    have hsame : Function.update labels none .written = labels := by
      rw [← hl]
      exact Function.update_eq_self none labels
    rw [hsame] at hsound ⊢
    rw [hw] at hsound ⊢
    refine ⟨hsound, hcounted, h.later, ?_⟩
    rw [hcount]
    exact h.rows
  · have hqueued : l = .queued := by
      rw [← hl]
      exact h.later.resolve_right (by rwa [hl])
    subst hqueued
    cases hm with
    | @write y _ hid hjob hattempts =>
      obtain ⟨z, hz, -⟩ := h.sound.row (by simp [hl])
      subst hid
      refine ⟨hsound, hcounted, .inr (by simp), fun _ x hx => ?_, fun k x hx => ?_, fun k x hx => ?_⟩
      · have hfound := saveOutbox_found hz
        obtain rfl := Option.some.inj (hfound.symm.trans hx)
        refine .inr ⟨by simp, ?_⟩
        change y.attempts ≠ _
        omega
      · refine .inl ((h.rows.reading k x (by simpa using hx)).resolve_right fun hno => ?_)
        exact hwritten (hl.symm.trans hno.1)
      · refine .inl ((h.rows.attempting k x (by simpa using hx)).resolve_right fun hno => ?_)
        exact hwritten (hl.symm.trans hno.1)

end Outcome

section Run

variable {outboxId : Id} {jobId : String}

/-- The parties at the end. -/
theorem bookkept_of_rows {labels : Option κ → BookPhase} {c : OutboxPool κ}
    (h : BookGood outboxId jobId labels c.store c.trace) (hn : labels none = .written)
    (hk : ∀ k, labels (some k) = .finished) : Bookkept outboxId c := by
  obtain ⟨x, hx, -⟩ := h.sound.row (by simp [hn])
  obtain ⟨job, hjob, hid⟩ := h.sound.queued (.inr hn)
  obtain ⟨hrow, hcount⟩ := (h.rows hn).row (fun k y => by simp [hk k]) x hx
  exact ⟨x, job, hx, hjob, by rw [hrow, hid], hcount, fun y hy => h.report hn x y hx hy⟩

theorem not_bookkept_of_rows {labels : Option κ → BookPhase} {c : OutboxPool κ}
    (h : BookBad outboxId jobId labels c.store c.trace) (hk : ∀ k, labels (some k) = .finished) :
    ¬ Bookkept outboxId c := by
  rintro ⟨x, job, hx, -, hid, hcount, -⟩
  rcases h.rows.row (fun k y => by simp [hk k]) x hx with hnone | ⟨-, hne⟩
  · rw [hnone] at hid
    cases hid
  · exact hne hcount

theorem outboxParties_follow (h : env.PaymentConfigured) (ride : Ride) (detail : RidePaymentDetail)
    (input : OutboxInput) (outboxId : Id) (deliveries : κ → JobDelivery) (i : Option κ) :
    (bookOutline outboxId (paymentJobId ride.id outboxId) i).Follows (handle env) (BookDone i)
      (i.elim .fresh fun _ => .idle) (outboxParties env ride detail input outboxId deliveries i) := by
  cases i with
  | none => exact follows_queuePayment detail input κ
  | some k => exact follows_deliver h (deliveries k) k

variable [DecidableEq κ]

/-- When producer and deliveries have ended, the books are kept exactly if no delivery has
read the row before the producer wrote it for the second time. -/
theorem bookkept_iff (env : Environment) (h : env.PaymentConfigured) (ride : Ride)
    (detail : RidePaymentDetail) (input : OutboxInput) (deliveries : κ → JobDelivery) (w : World)
    (hjob : w.paymentJobs.find w.outbox.nextKey = none) (sched : List (Option κ))
    (hended : ((Pool.start (outboxParties env ride detail input w.outbox.nextKey deliveries) w).exec
      (handle env) sched).Ended) :
    Bookkept w.outbox.nextKey
      ((Pool.start (outboxParties env ride detail input w.outbox.nextKey deliveries) w).exec (handle env) sched) ↔
    Pool.Meets (handle env) ReadsWritten
      (Pool.start (outboxParties env ride detail input w.outbox.nextKey deliveries) w) sched := by
  let jobId := paymentJobId ride.id w.outbox.nextKey
  let start : Option κ → BookPhase := fun i => i.elim .fresh fun _ => .idle
  have hsound : BookSound w.outbox.nextKey jobId start w [] := by
    refine ⟨trivial, fun _ => trivial, fun _ => rfl, fun _ => hjob, ?_, fun _ hk => hk.elim, fun _ _ hk => hk.elim,
      fun hno => absurd rfl hno, ?_, ?_, ?_⟩
    · rintro (hl | hl) <;> cases hl
    · intro k x hx
      cases hx
    · intro k x hx
      cases hx
    · exact ⟨fun hl => (by cases hl), fun hl => (by cases hl)⟩
  have hgood : BookGood w.outbox.nextKey jobId start w [] := by
    refine ⟨hsound, fun _ => ⟨rfl, rfl, fun k x => ⟨fun hx => (by cases hx), fun hx => (by cases hx)⟩⟩, ?_,
      fun hl => (by cases hl), fun hl => (by cases hl)⟩
    rintro (hl | hl) <;> cases hl
  have hstart : Outline.Holds (bookOutline w.outbox.nextKey jobId) (handle env) BookDone
      (fun labels c => BookGood w.outbox.nextKey jobId labels c.store c.trace)
      (Pool.start (outboxParties env ride detail input w.outbox.nextKey deliveries) w) :=
    ⟨start, hgood, outboxParties_follow h ride detail input _ deliveries⟩
  have hruns : (Pool.Meets (handle env) ReadsWritten
        (Pool.start (outboxParties env ride detail input w.outbox.nextKey deliveries) w) sched →
      Outline.Holds (bookOutline w.outbox.nextKey jobId) (handle env) BookDone
        (fun labels c => BookGood w.outbox.nextKey jobId labels c.store c.trace)
        ((Pool.start (outboxParties env ride detail input w.outbox.nextKey deliveries) w).exec (handle env) sched)) ∧
      (¬ Pool.Meets (handle env) ReadsWritten
        (Pool.start (outboxParties env ride detail input w.outbox.nextKey deliveries) w) sched →
      Outline.Holds (bookOutline w.outbox.nextKey jobId) (handle env) BookDone
        (fun labels c => BookBad w.outbox.nextKey jobId labels c.store c.trace)
        ((Pool.start (outboxParties env ride detail input w.outbox.nextKey deliveries) w).exec (handle env) sched)) := by
    refine Outline.exec_splits (fun c i hi => by simp [ReadsWritten, hi]) ?_ ?_ ?_ ?_ sched hstart
    · intro labels c i hJ
      cases i <;> exact hJ.sound.pre _
    · intro labels c i hJ
      cases i <;> exact hJ.sound.pre _
    · intro labels c i op next l' hJ hi hm
      rw [Pool.step_call (handle env) hi]
      simp only [ReadsWritten, hi, Program.pending, Option.any_some]
      cases i with
      | none =>
        have hun : op.readsOutbox ≠ true := ProducerMove.unread hm
        exact ⟨fun _ => hJ.producer_step hm, fun hno => absurd (fun hr => absurd hr hun) hno⟩
      | some k => exact ⟨fun hok => hJ.worker_step hm hok, fun hno => hJ.worker_strays hm hno⟩
    · intro labels c i op next l' hJ hi hm
      rw [Pool.step_call (handle env) hi]
      cases i with
      | none => exact hJ.producer_step hm
      | some k => exact hJ.worker_step hm
  obtain ⟨hmeets, hstrays⟩ := hruns
  constructor
  · intro hkept
    by_contra hno
    obtain ⟨labels, hbad, hout⟩ := (hstrays hno).outcome
    refine not_bookkept_of_rows hbad (fun k => ?_) hkept
    obtain ⟨r, hr⟩ := hended.outcome (some k)
    exact hout (some k) r hr
  · intro hm
    obtain ⟨labels, hkept, hout⟩ := (hmeets hm).outcome
    have hlast (i : Option κ) : ∃ r, BookDone i (labels i) r := by
      obtain ⟨r, hr⟩ := hended.outcome i
      exact ⟨r, hout i r hr⟩
    refine bookkept_of_rows hkept ?_ fun k => ?_
    · obtain ⟨r, hr⟩ := hlast none
      exact hr
    · obtain ⟨r, hr⟩ := hlast (some k)
      exact hr

end Run

/-- The completed ride, as `proceedRidePayment` reads it. -/
def completedRide : Ride := (completedWorld.findPaymentRide 1).get (by decide +kernel)

def completedPayload : PaymentRequestPayload :=
  ⟨0, roundCurrency (parseCurrency completedRide.fareFinal), completedRide.riderId⟩

/-- The payment of the completed ride, and two deliveries of its job. -/
def completedParties : Option Bool → Service Unit :=
  outboxParties (.around [7, 8]) completedRide
    (queuedDetail (newPaymentDetail (.around [7, 8]) 1) 0 completedPayload) ⟨0, completedPayload, .pending⟩
    completedWorld.outbox.nextKey fun _ => ⟨5, 6⟩

/-- The producer has written the row again when the job is delivered. -/
theorem bookkept_in_turn : Bookkept completedWorld.outbox.nextKey
    ((Pool.start completedParties completedWorld).exec (handle (.around [7, 8]))
      (List.replicate 3 none ++ List.replicate 8 (some true) ++ List.replicate 2 none ++
        List.replicate 2 (some false))) :=
  (bookkept_iff (.around [7, 8]) (by decide +kernel) completedRide _ _ _ completedWorld (by decide +kernel) _
    (by decide +kernel)).mpr (by decide +kernel)

/-- The job is delivered before the producer writes the row again: the write takes the
attempt back. -/
theorem attempt_taken_back : ((Pool.start completedParties completedWorld).exec (handle (.around [7, 8]))
      (List.replicate 2 none ++ List.replicate 8 (some true) ++ List.replicate 3 none ++
        List.replicate 2 (some false))).Ended ∧
    ¬ Bookkept completedWorld.outbox.nextKey
      ((Pool.start completedParties completedWorld).exec (handle (.around [7, 8]))
        (List.replicate 2 none ++ List.replicate 8 (some true) ++ List.replicate 3 none ++
          List.replicate 2 (some false))) := by
  have hrow : (((Pool.start completedParties completedWorld).exec (handle (.around [7, 8]))
      (List.replicate 2 none ++ List.replicate 8 (some true) ++ List.replicate 3 none ++
        List.replicate 2 (some false))).store.outbox.find completedWorld.outbox.nextKey).all fun x =>
      x.attempts != executions ((Pool.start completedParties completedWorld).exec (handle (.around [7, 8]))
        (List.replicate 2 none ++ List.replicate 8 (some true) ++ List.replicate 3 none ++
          List.replicate 2 (some false))).trace := by decide +kernel
  refine ⟨by decide +kernel, ?_⟩
  rintro ⟨x, job, hx, -, -, hcount, -⟩
  rw [hx] at hrow
  simp [hcount] at hrow

end NebLite
