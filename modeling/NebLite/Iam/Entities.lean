import NebLite.Atomic.Program
import NebLite.Atomic.Table
import NebLite.Rides.Entities

/-! Client profiles, tokens and the cache of the identity service. The `role`
column of either profile table keeps its default, so the table gives the role. -/

namespace NebLite

open Atomic

inductive EClientStatus where
  | active
  | inactive
  deriving DecidableEq, Repr

/-- A row of `rider_profile` or `driver_profile`. -/
structure Profile where
  id : Id
  msisdn : String
  status : EClientStatus
  deriving DecidableEq

instance : Keyed Profile := ⟨Profile.id⟩

@[simp] theorem Profile.key_eq (p : Profile) : Keyed.key p = p.id := rfl

/-- What `findRiderbyId` and `findDriverbyId` select. -/
structure Client where
  id : Id
  msisdn : String
  role : EClientType
  deriving DecidableEq

abbrev Uuid := ℕ

/-- A bcrypt hash, which only the hashed code matches. -/
structure HashedOtp where
  code : String
  salt : ℕ
  deriving DecidableEq

def HashedOtp.compare (otpCode : String) (hashed : HashedOtp) : Bool := hashed.code == otpCode

inductive CacheKey where
  | otp (phone : String)
  | refreshToken (role : EClientType) (clientId : Id)
  | accessToken (role : EClientType) (clientId : Id)
  deriving DecidableEq

abbrev CacheKey.Value : CacheKey → Type
  | otp _ => HashedOtp
  | refreshToken _ _ => Uuid
  | accessToken _ _ => Uuid

/-- The payload of a JSON web token; an absent property is undefined. -/
structure Jwt where
  sub : Id
  role : EClientType
  accessTokenId : Option Uuid
  refreshTokenId : Option Uuid
  exp : Time
  deriving DecidableEq

structure Tokens where
  accessToken : Jwt
  refreshToken : Jwt
  deriving DecidableEq

/-- What the guard attaches to a request. -/
structure RequestClient where
  sub : Id
  role : EClientType
  msisdn : String
  deriving DecidableEq

structure IamEnvironment where
  otpTtlSec : ℕ
  accessTokenTtl : ℕ
  refreshTokenTtl : ℕ
  skipSmsNotif : Bool

structure IamWorld where
  profiles : EClientType → Table Profile
  cache : (k : CacheKey) → Option k.Value
  signed : List Jwt
  nextUuid : Uuid
  nextSalt : ℕ
  now : Time

def IamWorld.initial (profiles : EClientType → Table Profile) : IamWorld where
  profiles
  cache := fun _ => none
  signed := []
  nextUuid := 0
  nextSalt := 0
  now := 0

inductive IamCall where
  | findClient (clientType : EClientType) (clientId : Id)
  | cacheGet (key : CacheKey)
  | cacheSet (key : CacheKey) (value : key.Value) (ttl : ℕ)
  | cacheDel (key : CacheKey)
  | randomUUID
  | hash (otpCode : String)
  | signToken (sub : Id) (role : EClientType) (accessTokenId refreshTokenId : Option Uuid) (expiresIn : ℕ)
  | verifyToken (token : Jwt)
  | emitOtp (msisdn : String) (clientType : EClientType) (otpCode : String)
  | addOtpJob (jobId msisdn otpCode : String)

abbrev IamCall.Answer : IamCall → Type
  | findClient _ _ => Option Client
  | cacheGet key => Option key.Value
  | cacheSet _ _ _ => Unit
  | cacheDel _ => Unit
  | randomUUID => Uuid
  | hash _ => HashedOtp
  | signToken .. => Jwt
  | verifyToken _ => Jwt
  | emitOtp _ _ _ => Unit
  | addOtpJob _ _ _ => Unit

abbrev IamService (α : Type) := Program IamCall IamCall.Answer ServiceError α

def iamCall (c : IamCall) : IamService c.Answer := .perform c

namespace IamWorld

variable (w : IamWorld)

/-- The active profile with an id, by the table of the client type. -/
def findClient (clientType : EClientType) (clientId : Id) : Option Client :=
  ((w.profiles clientType).find clientId).bind fun p =>
    if p.status = .active then some ⟨p.id, p.msisdn, clientType⟩ else none

/-- Exactly the unexpired tokens that were signed with the shared secret verify. -/
def verifyToken (token : Jwt) : Except ServiceError Jwt :=
  if token ∈ w.signed then
    if w.now < token.exp then .ok token else .error (.error "jwt expired")
  else .error (.error "invalid signature")

end IamWorld

def iamHandle : Handler IamCall IamCall.Answer ServiceError IamWorld
  | .findClient clientType clientId, w => (.ok (w.findClient clientType clientId), w)
  | .cacheGet key, w => (.ok (w.cache key), w)
  | .cacheSet key value _, w => (.ok (), { w with cache := Function.update w.cache key (some value) })
  | .cacheDel key, w => (.ok (), { w with cache := Function.update w.cache key none })
  | .randomUUID, w => (.ok w.nextUuid, { w with nextUuid := w.nextUuid + 1 })
  | .hash otpCode, w => (.ok ⟨otpCode, w.nextSalt⟩, { w with nextSalt := w.nextSalt + 1 })
  | .signToken sub role accessTokenId refreshTokenId expiresIn, w =>
    (.ok ⟨sub, role, accessTokenId, refreshTokenId, w.now + expiresIn⟩,
      { w with signed := ⟨sub, role, accessTokenId, refreshTokenId, w.now + expiresIn⟩ :: w.signed })
  | .verifyToken token, w => (w.verifyToken token, w)
  | .emitOtp _ _ _, w => (.ok (), w)
  | .addOtpJob _ _ _, w => (.ok (), w)

end NebLite
