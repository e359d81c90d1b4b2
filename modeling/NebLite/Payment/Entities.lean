import NebLite.Rides.Entities

/-! Payment details, the payment outbox and its queue, and webhook payloads. -/

namespace NebLite

open Atomic

/-- An order identifier. Generated ones are never generated again. -/
abbrev OrderId := ℕ

inductive ERidePaymentDetailStatus where
  | pending
  | queued
  | initiated
  | failed
  | capture
  | settlement
  | success
  | completed
  | deny
  | cancel
  | cancelled
  | expired
  | expire
  | failure
  | authorized
  | authorize
  | challenge
  | unknown
  deriving DecidableEq, Repr

inductive PaymentOutboxStatus where
  | pending
  | processing
  | completed
  | failed
  deriving DecidableEq, Repr

/-- A value of a JSON object, as far as the service looks into it. -/
inductive JsonValue where
  | str (s : String)
  | other
  deriving DecidableEq

abbrev JsonObject := List (String × JsonValue)

/-- The body posted to the payment gateway. -/
structure PaymentRequestPayload where
  orderId : OrderId
  grossAmount : ℚ
  riderId : Id
  deriving DecidableEq

/-- `PaymentNotificationDto`; the fields that no code reads are in `rest`. -/
structure PaymentNotification where
  orderId : Option OrderId
  transactionStatus : Option String
  transactionId : Option String
  rest : List (String × String)
  deriving DecidableEq

structure RidePaymentDetail where
  id : Id
  rideId : Id
  provider : String
  status : ERidePaymentDetailStatus
  token : Option String
  redirectUrl : Option String
  orderId : Option OrderId
  providerTransactionId : Option String
  requestPayload : Option PaymentRequestPayload
  responsePayload : Option JsonObject
  notificationPayload : Option PaymentNotification
  deriving DecidableEq

instance : Keyed RidePaymentDetail := ⟨RidePaymentDetail.id⟩

@[simp] theorem RidePaymentDetail.key_eq (d : RidePaymentDetail) : Keyed.key d = d.id := rfl

structure PaymentOutbox where
  id : Id
  rideId : Id
  paymentDetailId : Id
  orderId : OrderId
  status : PaymentOutboxStatus
  attempts : ℕ
  jobId : Option String
  requestPayload : PaymentRequestPayload
  lastError : Option String
  lastAttemptedAt : Option Time
  processedAt : Option Time
  deriving DecidableEq

instance : Keyed PaymentOutbox := ⟨PaymentOutbox.id⟩

@[simp] theorem PaymentOutbox.key_eq (o : PaymentOutbox) : Keyed.key o = o.id := rfl

inductive JobState where
  | waiting
  | active
  | completed
  | failed
  deriving DecidableEq, Repr

/-- A job of the payment queue. There is one job for each outbox row, and its
key is the row's. -/
structure PaymentJob where
  outboxId : Id
  jobId : String
  state : JobState
  attemptsMade : ℕ
  deriving DecidableEq

instance : Keyed PaymentJob := ⟨PaymentJob.outboxId⟩

def PAYMENT_QUEUE_ATTEMPTS : ℕ := 5

/-- What the payment gateway answers to one request: a failure with its text,
or a response body. -/
abbrev GatewayReply := Except String (Option JsonObject)

/-- `extractResponseString`. -/
def extractResponseString (payload : Option JsonObject) (key : String) : Option String :=
  match payload with
  | none => none
  | some fields =>
    match fields.lookup key with
    | some (.str s) => some s
    | _ => none

end NebLite
