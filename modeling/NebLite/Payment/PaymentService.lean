import NebLite.Rides.Management

/-! `PaymentService`, its queue processor, and `RidesPaymentService`. -/

namespace NebLite

open Atomic

variable (env : Environment)

def ensurePaymentConfiguration : Service Unit :=
  if truthy env.paymentApiUrl && truthy env.paymentApiKey && truthy (some env.paymentProvider) then
    pure ()
  else
    throw (.badRequest "Payment service is not configured")

def parseCurrency (value : Option ℚ) : ℚ := value.getD 0

def roundCurrency (value : ℚ) : ℚ := mathRound (value * 100) / 100

def buildPaymentRequestPayload (ride : Ride) (orderId : OrderId) :
    Except ServiceError PaymentRequestPayload :=
  let grossAmount := roundCurrency (parseCurrency ride.fareFinal)
  if grossAmount ≤ 0 then .error (.badRequest "Ride does not have a payable amount")
  else .ok { orderId, grossAmount, riderId := ride.riderId }

/-- The detail row that `initiatePayment` starts from when the ride has none. -/
def newPaymentDetail (rideId : Id) : RidePaymentDetail :=
  ⟨0, rideId, env.paymentProvider, .pending, none, none, none, none, none, none, none⟩

/-- The detail as `initiatePayment` hands it to `saveDetailAndOutbox`. -/
def queuedDetail (detail : RidePaymentDetail) (orderId : OrderId) (payload : PaymentRequestPayload) :
    RidePaymentDetail :=
  { detail with
    status := .queued
    orderId := some orderId
    requestPayload := some payload
    responsePayload := none
    token := none
    redirectUrl := none }

/-- Whether a detail already carries a token and a redirect URL. -/
def RidePaymentDetail.isInitiated (detail : RidePaymentDetail) : Bool :=
  truthy detail.token && truthy detail.redirectUrl

def paymentJobId (rideId outboxId : Id) : String := s!"ride-{rideId}-payment-{outboxId}"

def savePaymentOutbox (outbox : PaymentOutbox) : Service Unit := call (.saveOutbox outbox)

/-- `initiatePayment` from the saved outbox row on: the job is queued and waited for. -/
def enqueuePayment (ride : Ride) (detail : RidePaymentDetail) (savedOutbox : PaymentOutbox) :
    Service RidePaymentDetail := do
  let jobId ← call (.addPaymentJob savedOutbox.id (paymentJobId ride.id savedOutbox.id))
  savePaymentOutbox { savedOutbox with jobId := some jobId }
  (call (.waitPaymentJob savedOutbox.id)).catching
    fun _ => throw (.badRequest "Failed to initiate payment")
  let some refreshedDetail ← call (.findDetail detail.id)
    | throw (.badRequest "Payment detail not found after processing")
  if ¬ truthy refreshedDetail.redirectUrl then
    throw (.badRequest "Payment gateway did not return a redirect URL")
  return refreshedDetail

def initiatePayment (ride : Ride) : Service RidePaymentDetail := do
  ensurePaymentConfiguration env
  let existing ← call (.findDetailByRide ride.id)
  let paymentDetail := existing.getD (newPaymentDetail env ride.id)
  if paymentDetail.isInitiated then
    return paymentDetail
  let orderId ← match paymentDetail.orderId with
    | some orderId => pure orderId
    | none => call .generateOrderId
  let requestPayload ← Program.ofExcept (buildPaymentRequestPayload ride orderId)
  let (persistedDetail, savedOutbox) ← call (.saveDetailAndOutbox
    (queuedDetail paymentDetail orderId requestPayload)
    { orderId, requestPayload, status := .pending })
  enqueuePayment ride persistedDetail savedOutbox

structure PaymentJobResult where
  paymentDetailId : Id
  status : ERidePaymentDetailStatus
  token : Option String
  redirectUrl : Option String

/-- The detail after a reply of the gateway. -/
def repliedDetail (detail : RidePaymentDetail) (outbox : PaymentOutbox)
    (responsePayload : Option JsonObject) : RidePaymentDetail :=
  { detail with
    status := .initiated
    responsePayload := responsePayload
    requestPayload := some outbox.requestPayload
    orderId := some outbox.orderId
    token := extractResponseString responsePayload "token"
    redirectUrl := extractResponseString responsePayload "redirect_url" }

/-- `processOutbox`. The clock is read when the attempt begins (`startedAt`)
and when the reply has been saved (`endedAt`). -/
def processOutbox (outboxId : Id) (startedAt endedAt : Time) : Service PaymentJobResult := do
  ensurePaymentConfiguration env
  let some outbox ← call (.findOutbox outboxId)
    | throw (.error s!"Payment outbox entry {outboxId} not found")
  let some paymentDetail ← call (.findDetail outbox.paymentDetailId)
    | throw (.error s!"Payment detail {outbox.paymentDetailId} not found for outbox {outboxId}")
  let outbox :=
    { outbox with
      status := PaymentOutboxStatus.processing
      attempts := outbox.attempts + 1
      lastAttemptedAt := some startedAt }
  savePaymentOutbox outbox
  let reply ← call (.post outbox.requestPayload)
  match reply with
  | .ok responsePayload =>
    let savedDetail ← call (.saveDetail (repliedDetail paymentDetail outbox responsePayload))
    savePaymentOutbox
      { outbox with status := .completed, lastError := none, processedAt := some endedAt }
    return ⟨savedDetail.id, savedDetail.status, savedDetail.token, savedDetail.redirectUrl⟩
  | .error message =>
    savePaymentOutbox { outbox with status := .failed, lastError := some message }
    let _ ← call (.saveDetail { paymentDetail with status := .failed, responsePayload := none })
    throw (.error message)

/-- One delivery of a payment job to `PaymentProcessor.process`. -/
def deliverPaymentJob (outboxId : Id) (startedAt endedAt : Time) : Service Unit := do
  let some outboxId ← call (.takePaymentJob outboxId)
    | return
  let succeeded ← (do
    let _ ← processOutbox env outboxId startedAt endedAt
    return true : Service Bool).catching fun _ => pure false
  call (.finishPaymentJob outboxId succeeded)

/-- The lower-case text of each status. -/
def ERidePaymentDetailStatus.text : ERidePaymentDetailStatus → String
  | .pending => "pending"
  | .queued => "queued"
  | .initiated => "initiated"
  | .failed => "failed"
  | .capture => "capture"
  | .settlement => "settlement"
  | .success => "success"
  | .completed => "completed"
  | .deny => "deny"
  | .cancel => "cancel"
  | .cancelled => "cancelled"
  | .expired => "expired"
  | .expire => "expire"
  | .failure => "failure"
  | .authorized => "authorized"
  | .authorize => "authorize"
  | .challenge => "challenge"
  | .unknown => "unknown"

def paymentDetailStatuses : List ERidePaymentDetailStatus :=
  [.pending, .queued, .initiated, .failed, .capture, .settlement, .success, .completed, .deny,
   .cancel, .cancelled, .expired, .expire, .failure, .authorized, .authorize, .challenge, .unknown]

def normalizePaymentStatus (status : Option String) : ERidePaymentDetailStatus :=
  match status with
  | none => .unknown
  | some s => (paymentDetailStatuses.find? fun t => t.text == s.toLower).getD .unknown

def isSuccessfulPaymentStatus (status : ERidePaymentDetailStatus) : Bool :=
  status ∈ [ERidePaymentDetailStatus.capture, .settlement, .success, .completed]

def isFinalFailureStatus (status : ERidePaymentDetailStatus) : Bool :=
  status ∈ [ERidePaymentDetailStatus.deny, .cancel, .cancelled, .expired, .expire, .failure, .failed]

def isPendingPaymentStatus (status : ERidePaymentDetailStatus) : Bool :=
  status ∈ [ERidePaymentDetailStatus.pending, .authorize, .authorized, .challenge]

structure OutboxStatusUpdate where
  status : PaymentOutboxStatus
  setProcessedAt : Bool
  lastError : Option String

def buildOutboxUpdateForStatus (status : ERidePaymentDetailStatus) (paid : Bool) :
    Option OutboxStatusUpdate :=
  if isSuccessfulPaymentStatus status then some ⟨.completed, true, none⟩
  else if isFinalFailureStatus status then
    some ⟨.failed, true, some s!"Payment failed with status {status.text}"⟩
  else if isPendingPaymentStatus status then some ⟨.processing, false, none⟩
  else if !paid then some ⟨.failed, true, some s!"Payment resulted in status {status.text}"⟩
  else none

def applyNotification (ride : Ride) (payload : PaymentNotification) (detail : RidePaymentDetail) :
    RidePaymentDetail × Bool × Option OutboxStatusUpdate :=
  let status := normalizePaymentStatus payload.transactionStatus
  let paid := isSuccessfulPaymentStatus status
  ({ detail with
      status
      orderId := some (payload.orderId.getD ride.id)
      providerTransactionId := payload.transactionId
      notificationPayload := some payload },
    paid, buildOutboxUpdateForStatus status paid)

structure FormattedPayment where
  id : Id
  provider : String
  status : ERidePaymentDetailStatus
  token : Option String
  redirectUrl : Option String
  orderId : Option OrderId
  providerTransactionId : Option String

def formatPaymentDetail (detail : Option RidePaymentDetail) : Option FormattedPayment :=
  detail.map fun d =>
    ⟨d.id, d.provider, d.status, d.token, d.redirectUrl, d.orderId, d.providerTransactionId⟩

/-- `RidePaymentRepository.updatePaymentState`. -/
def updatePaymentState (rideId : Id) (paymentStatus : Option ERidePaymentStatus)
    (paymentUrl : Option String) : Service Unit := do
  let rows ← call (.updatePaymentState rideId paymentStatus paymentUrl)
  if rows.length = 0 then
    throw (.error "Ride not found while updating payment state")

def proceedRidePayment (rideId riderId : Id) : Service (Ride × Option FormattedPayment) := do
  let some ride ← call (.findPaymentRide rideId)
    | throw (.notFound "Ride not found")
  if ride.riderId ≠ riderId then
    throw (.unauthorized "Ride not available for this rider")
  if ride.status ≠ .completed then
    throw (.badRequest "Ride must be completed before payment")
  if ride.paymentStatus = some .paid then
    let existingDetail ← call (.findDetailByRide ride.id)
    return (ride, formatPaymentDetail existingDetail)
  let paymentDetail ← initiatePayment env ride
  updatePaymentState ride.id (some .onProcess) paymentDetail.redirectUrl
  let refreshedRide ← call (.findPaymentRide ride.id)
  return (refreshedRide.getD ride, formatPaymentDetail (some paymentDetail))

/-- The white space and line terminators that `trim` removes. -/
def isTrimmed (c : Char) : Bool :=
  c.toNat ∈ [0x09, 0x0A, 0x0B, 0x0C, 0x0D, 0x20, 0xA0, 0x1680, 0x2028, 0x2029, 0x202F, 0x205F,
    0x3000, 0xFEFF] || (0x2000 ≤ c.toNat && c.toNat ≤ 0x200A)

def trim (s : String) : String :=
  .ofList ((s.toList.dropWhile isTrimmed).reverse.dropWhile isTrimmed).reverse

/-- Four groups of digits with dots between them. -/
def isDottedQuad (ip : String) : Bool :=
  let groups := ip.toList.splitOn '.'
  groups.length == 4 && groups.all fun g => !g.isEmpty && g.all Char.isDigit

def mappedPrefix : List Char := "::ffff:".toList

theorem toList_mapped (address : String) : ("::ffff:" ++ address).toList = mappedPrefix ++ address.toList :=
  String.toList_append

def normalizeIpAddresses (ip : String) : List String :=
  let trimmed := trim ip
  if trimmed.isEmpty then []
  else if mappedPrefix.isPrefixOf trimmed.toList then
    [trimmed, .ofList (trimmed.toList.drop mappedPrefix.length)]
  else if isDottedQuad trimmed then [trimmed, "::ffff:" ++ trimmed]
  else [trimmed]

def handlePaymentNotification (payload : PaymentNotification) (sourceIp : String) (now : Time) :
    Service (Ride × Option FormattedPayment) := do
  let allowed ← call (.isIpAllowed (normalizeIpAddresses sourceIp))
  if ¬ allowed then
    throw (.unauthorized "Source IP not allowed")
  let some orderId := payload.orderId
    | throw (.badRequest "order_id is required")
  let some paymentDetail ← call (.findDetailByOrder orderId)
    | throw (.notFound "Payment detail not found for this notification")
  let some ride ← findById paymentDetail.rideId
    | throw (.notFound "Ride not found")
  let (updatedDetail, paid, outboxUpdate) := applyNotification ride payload paymentDetail
  let savedDetail ← call (.saveDetailWithRideUpdate updatedDetail
    (if paid then some ⟨ride.id, some .paid, none⟩ else none)
    (outboxUpdate.map fun update =>
      { rideId := some ride.id
        paymentDetailId := some updatedDetail.id
        orderId := updatedDetail.orderId.getD orderId
        status := update.status
        lastError := update.lastError
        setProcessedAt := update.setProcessedAt })
    now)
  let refreshed ← findById ride.id
  let refreshedRide := refreshed.getD
    (if paid then { ride with paymentStatus := some .paid, paymentUrl := none } else ride)
  if paid then
    notifyRidePaid refreshedRide payload.transactionId
  return (refreshedRide, formatPaymentDetail (some savedDetail))

end NebLite
