import NebLite.Payment.Webhooks
import NebLite.Rides.Snapshots

/-! Deliveries of a payment job whose outbox row is completed already. `processOutbox`
does not look at the status of the row. -/

namespace NebLite

open Atomic

/-- The condition of `ensurePaymentConfiguration`. -/
def Environment.PaymentConfigured (env : Environment) : Prop :=
  (truthy env.paymentApiUrl && truthy env.paymentApiKey && truthy (some env.paymentProvider)) = true

instance (env : Environment) : Decidable env.PaymentConfigured :=
  inferInstanceAs (Decidable (_ = true))

theorem ensurePaymentConfiguration_ok {env : Environment} (h : env.PaymentConfigured) :
    ensurePaymentConfiguration env = pure () := if_pos h

theorem ensurePaymentConfiguration_error {env : Environment} (h : ¬ env.PaymentConfigured) :
    ensurePaymentConfiguration env = throw (.badRequest "Payment service is not configured") := if_neg h

/-- One delivery of a job to `PaymentProcessor.process`. -/
structure JobDelivery where
  startedAt : Time
  endedAt : Time

/-- `PaymentProcessor.process`. -/
def World.process (env : Environment) (outboxId : Id) (w : World) (d : JobDelivery) : World :=
  ((processOutbox env outboxId d.startedAt d.endedAt).run (handle env) w).2

def World.processAll (env : Environment) (outboxId : Id) (w : World) (ds : List JobDelivery) : World :=
  ds.foldl (World.process env outboxId) w

variable {env : Environment} {w : World}

/-- The calls of a worker. -/
def Call.Works : Call → Prop
  | .findOutbox _ | .findDetail _ | .saveOutbox _ | .post _ | .saveDetail _ => True
  | _ => False

/-- The outbox row of an attempt that begins. -/
def attemptedOutbox (outbox : PaymentOutbox) (startedAt : Time) : PaymentOutbox :=
  { outbox with
    status := .processing
    attempts := outbox.attempts + 1
    lastAttemptedAt := some startedAt }

/-- `processOutbox` after the gateway's reply. -/
def recordReply (detail : RidePaymentDetail) (outbox : PaymentOutbox) (endedAt : Time) :
    GatewayReply → Service PaymentJobResult
  | .ok responsePayload => do
    let savedDetail ← call (.saveDetail (repliedDetail detail outbox responsePayload))
    savePaymentOutbox { outbox with status := .completed, lastError := none, processedAt := some endedAt }
    return ⟨savedDetail.id, savedDetail.status, savedDetail.token, savedDetail.redirectUrl⟩
  | .error message => do
    savePaymentOutbox { outbox with status := .failed, lastError := some message }
    let _ ← call (.saveDetail { detail with status := .failed, responsePayload := none })
    throw (.error message)

/-- `processOutbox` from the rows that it has read. -/
def attemptPayment (outbox : PaymentOutbox) (detail : RidePaymentDetail) (startedAt endedAt : Time) :
    Service PaymentJobResult := do
  savePaymentOutbox (attemptedOutbox outbox startedAt)
  let reply ← call (.post outbox.requestPayload)
  recordReply detail (attemptedOutbox outbox startedAt) endedAt reply

theorem processOutbox_eq (outboxId : Id) (startedAt endedAt : Time) :
    processOutbox env outboxId startedAt endedAt = (do
      ensurePaymentConfiguration env
      let some outbox ← call (.findOutbox outboxId)
        | throw (.error s!"Payment outbox entry {outboxId} not found")
      let some detail ← call (.findDetail outbox.paymentDetailId)
        | throw (.error s!"Payment detail {outbox.paymentDetailId} not found for outbox {outboxId}")
      attemptPayment outbox detail startedAt endedAt) := by
  unfold processOutbox attemptPayment
  refine bind_congr fun _ => bind_congr fun o => ?_
  cases o with
  | none => rfl
  | some x =>
    refine bind_congr fun o => ?_
    cases o with
    | none => rfl
    | some d =>
      refine bind_congr fun _ => bind_congr fun reply => ?_
      cases reply <;> rfl

theorem works_recordReply (detail : RidePaymentDetail) (outbox : PaymentOutbox) (endedAt : Time)
    (reply : GatewayReply) : (recordReply detail outbox endedAt reply).Calls Call.Works := by
  cases reply with
  | ok response => exact (calls_call trivial).bind fun _ => (calls_call trivial).bind fun _ => trivial
  | error message => exact (calls_call trivial).bind fun _ => (calls_call trivial).bind fun _ => trivial

theorem works_attemptPayment {outbox : PaymentOutbox} {detail : RidePaymentDetail}
    {startedAt endedAt : Time} : (attemptPayment outbox detail startedAt endedAt).Calls Call.Works := by
  refine (calls_call trivial).bind fun _ => ?_
  exact (calls_call trivial).bind fun reply => works_recordReply _ _ _ reply

theorem works_processOutbox {outboxId : Id} {startedAt endedAt : Time} :
    (processOutbox env outboxId startedAt endedAt).Calls Call.Works := by
  rw [processOutbox_eq]
  have hconfigured : (ensurePaymentConfiguration env).Calls Call.Works := by
    unfold ensurePaymentConfiguration
    split <;> trivial
  refine hconfigured.bind fun _ => (calls_call trivial).bind fun o => ?_
  cases o with
  | none => trivial
  | some x =>
    refine (calls_call trivial).bind fun o => ?_
    cases o with
    | none => trivial
    | some d => exact works_attemptPayment

/-- A worker adds to what has been posted. -/
theorem Call.Works.posts {op : Call} (h : op.Works) (w : World) :
    w.posts.length ≤ (handle env op w).2.posts.length := by
  cases op with
  | post => simp [handle]
  | saveDetail d =>
    simp only [handle, World.persistDetail]
    split <;> exact le_rfl
  | findOutbox | findDetail | saveOutbox => exact le_rfl
  | _ => exact h.elim

theorem run_posts {α : Type} (env : Environment) {p : Service α} (hp : p.Calls Call.Works) (w : World) :
    w.posts.length ≤ (p.run (handle env) w).2.posts.length := by
  have hkeeps : Program.Keeps (handle env) (fun s t : World => s.posts.length ≤ t.posts.length) p :=
    hp.keeps (fun _ => le_rfl) (fun _ _ _ h => h.trans) fun _ h => h.posts
  exact hkeeps w

theorem process_posts (env : Environment) (outboxId : Id) (w : World) (d : JobDelivery) :
    w.posts.length ≤ (w.process env outboxId d).posts.length :=
  run_posts env works_processOutbox w

theorem processAll_posts (env : Environment) (outboxId : Id) (w : World) (ds : List JobDelivery) :
    w.posts.length ≤ (w.processAll env outboxId ds).posts.length := by
  induction ds generalizing w with
  | nil => exact le_rfl
  | cons d ds ih => exact (process_posts env outboxId w d).trans (ih _)

/-- Without a configuration a delivery throws at once. -/
theorem process_unconfigured (h : ¬ env.PaymentConfigured) (outboxId : Id) (w : World) (d : JobDelivery) :
    w.process env outboxId d = w := by
  unfold World.process
  rw [processOutbox_eq, ensurePaymentConfiguration_error h]
  rfl

theorem processAll_unconfigured (h : ¬ env.PaymentConfigured) (outboxId : Id) (w : World)
    (ds : List JobDelivery) : w.processAll env outboxId ds = w := by
  induction ds with
  | nil => rfl
  | cons d ds ih =>
    change (w.process env outboxId d).processAll env outboxId ds = w
    rw [process_unconfigured h, ih]

/-- A delivery that finds row and detail posts, whatever the status of the row. -/
theorem process_posts_lt (h : env.PaymentConfigured) {outboxId : Id} {x : PaymentOutbox}
    {detail : RidePaymentDetail} (hx : w.outbox.find outboxId = some x)
    (hdetail : w.details.find x.paymentDetailId = some detail) (d : JobDelivery) :
    w.posts.length < (w.process env outboxId d).posts.length := by
  have hfound := run_call env (.findOutbox outboxId) w
  have hread := run_call env (.findDetail x.paymentDetailId) w
  rw [handle, hx] at hfound
  rw [handle, hdetail] at hread
  unfold World.process
  rw [processOutbox_eq, ensurePaymentConfiguration_ok h, pure_bind]
  rw [Program.run_bind_ok _ hfound]
  simp only
  rw [Program.run_bind_ok _ hread]
  simp only
  unfold attemptPayment savePaymentOutbox
  rw [Program.run_bind_ok _ (run_call env (.saveOutbox _) w), Program.run_bind_ok _ (run_call env (.post _) _)]
  have hposted := run_posts env (works_recordReply detail (attemptedOutbox x d.startedAt) d.endedAt
    (env.gateway w.answered x.requestPayload))
  refine lt_of_lt_of_le ?_ (hposted _)
  simp [World.saveOutbox]

/-- Deliveries keep the posts, a completed row and its detail exactly when there are none
of them, or no gateway is configured. -/
theorem redelivery_idempotent_iff (env : Environment) (w : World) (x : PaymentOutbox)
    (hx : w.outbox.find x.id = some x) (detail : RidePaymentDetail)
    (hdetail : w.details.find x.paymentDetailId = some detail) (ds : List JobDelivery) :
    (x.status = .completed → (w.processAll env x.id ds).posts = w.posts ∧
      (w.processAll env x.id ds).outbox.find x.id = some x ∧
      (w.processAll env x.id ds).details.find x.paymentDetailId = some detail) ↔
    x.status ≠ .completed ∨ ds = [] ∨ ¬ env.PaymentConfigured := by
  constructor
  · intro hidle
    by_contra hno
    obtain ⟨hcompleted, hrest⟩ := not_or.mp hno
    obtain ⟨hne, hconf⟩ := not_or.mp hrest
    obtain ⟨hposts, -⟩ := hidle (not_not.mp hcompleted)
    obtain ⟨d, rest, rfl⟩ := List.exists_cons_of_ne_nil hne
    have hfirst := process_posts_lt (not_not.mp hconf) hx hdetail d
    have hlater := processAll_posts env x.id (w.process env x.id d) rest
    have heq : ((w.process env x.id d).processAll env x.id rest).posts = w.posts := hposts
    rw [heq] at hlater
    omega
  · rintro (hopen | rfl | hconf) hcompleted
    · exact absurd hcompleted hopen
    · exact ⟨rfl, hx, hdetail⟩
    · rw [processAll_unconfigured hconf]
      exact ⟨rfl, hx, hdetail⟩

/-- Order 0 has been settled. -/
def settledWorld : World := initiatedWorld.deliver (.around [7, 8]) (notification "settlement" 7)

theorem settledWorld_rows : ∃ x detail, settledWorld.outbox.find x.id = some x ∧
    settledWorld.details.find x.paymentDetailId = some detail ∧ x.status = .completed ∧
    detail.status = .settlement ∧ x.id = 1 := by
  have h : ∃ x ∈ settledWorld.outbox.rows, ∃ detail ∈ settledWorld.details.rows,
      settledWorld.outbox.find x.id = some x ∧
      settledWorld.details.find x.paymentDetailId = some detail ∧ x.status = .completed ∧
      detail.status = .settlement ∧ x.id = 1 := by decide +kernel
  obtain ⟨x, -, detail, -, h⟩ := h
  exact ⟨x, detail, h⟩

/-- A configuration without the key of the gateway. -/
def keyless : Environment := { Environment.around [7, 8] with paymentApiKey := none }

/-- Without a gateway the job of the settled order is refused. -/
theorem redelivery_unconfigured : ∃ x detail,
    settledWorld.outbox.find x.id = some x ∧ settledWorld.details.find x.paymentDetailId = some detail ∧
    (x.status = .completed →
      (settledWorld.processAll keyless x.id [⟨8, 9⟩]).posts = settledWorld.posts ∧
      (settledWorld.processAll keyless x.id [⟨8, 9⟩]).outbox.find x.id = some x ∧
      (settledWorld.processAll keyless x.id [⟨8, 9⟩]).details.find x.paymentDetailId = some detail) := by
  obtain ⟨x, detail, hx, hdetail, -⟩ := settledWorld_rows
  have hconf : ¬ keyless.PaymentConfigured := by decide
  exact ⟨x, detail, hx, hdetail, (redelivery_idempotent_iff keyless settledWorld x hx detail hdetail
    [⟨8, 9⟩]).mpr (.inr (.inr hconf))⟩

/-- The job of the settled order is delivered once more: the order is posted a second time,
and its detail is no longer settled. -/
theorem settled_order_posted_again : ∃ x detail,
    settledWorld.outbox.find x.id = some x ∧ settledWorld.details.find x.paymentDetailId = some detail ∧
    x.status = .completed ∧
    (settledWorld.processAll (.around [7, 8]) x.id [⟨8, 9⟩]).posts ≠ settledWorld.posts ∧
    (settledWorld.processAll (.around [7, 8]) x.id [⟨8, 9⟩]).details.find x.paymentDetailId ≠
      some detail := by
  have h : ∃ x ∈ settledWorld.outbox.rows, ∃ detail ∈ settledWorld.details.rows,
      settledWorld.outbox.find x.id = some x ∧
      settledWorld.details.find x.paymentDetailId = some detail ∧ x.status = .completed ∧
      (settledWorld.processAll (.around [7, 8]) x.id [⟨8, 9⟩]).posts ≠ settledWorld.posts ∧
      (settledWorld.processAll (.around [7, 8]) x.id [⟨8, 9⟩]).details.find x.paymentDetailId ≠
        some detail := by decide +kernel
  obtain ⟨x, -, detail, -, h⟩ := h
  exact ⟨x, detail, h⟩

end NebLite
