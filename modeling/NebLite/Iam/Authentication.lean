import NebLite.Iam.Entities

/-! `AuthenticationService` and `AccessTokenGuard`. The code that `generateOtp`
draws is an argument of `getOtp`. -/

namespace NebLite

open Atomic

variable (env : IamEnvironment)

def getClientData (clientId : Id) (clientType : EClientType) : IamService Client := do
  let some client ← iamCall (.findClient clientType clientId)
    | throw (.badRequest "client data not found")
  return client

def getOtp (clientId : Id) (clientType : EClientType) (otpCode : String) : IamService String := do
  let client ← getClientData clientId clientType
  let clientTypeName := if clientType = .rider then "RIDER" else "DRIVER"
  let jobId := s!"send-otp-{client.msisdn}-{clientTypeName}"
  let hashedCode ← iamCall (.hash otpCode)
  iamCall (.cacheSet (.otp client.msisdn) hashedCode env.otpTtlSec)
  iamCall (.emitOtp client.msisdn clientType otpCode)
  if env.skipSmsNotif then
    return "otp code sent"
  iamCall (.addOtpJob jobId client.msisdn otpCode)
  return "otp code sent"

def generateTokens (client : Client) : IamService Tokens := do
  let accessTokenId ← iamCall .randomUUID
  let refreshTokenId ← iamCall .randomUUID
  let accessToken ← iamCall
    (.signToken client.id client.role (some accessTokenId) none env.accessTokenTtl)
  let refreshToken ← iamCall
    (.signToken client.id client.role none (some refreshTokenId) env.refreshTokenTtl)
  iamCall (.cacheSet (.refreshToken client.role client.id) refreshTokenId env.refreshTokenTtl)
  iamCall (.cacheSet (.accessToken client.role client.id) accessTokenId (env.accessTokenTtl * 1000))
  return { accessToken, refreshToken }

structure VerifyOtpDto where
  clientId : Id
  otpCode : String
  clientType : EClientType

def verifyOtp (verifyOtpDto : VerifyOtpDto) : IamService Tokens := do
  let client ← getClientData verifyOtpDto.clientId verifyOtpDto.clientType
  let some cachedHashedOtpCode ← iamCall (.cacheGet (.otp client.msisdn))
    | throw (.unauthorized s!"Otp code not found : {verifyOtpDto.otpCode}")
  if ¬ cachedHashedOtpCode.compare verifyOtpDto.otpCode then
    throw (.unauthorized "invalid otp-code")
  iamCall (.cacheDel (.otp client.msisdn))
  generateTokens env client

def getClientAndTokenIdInfo (refreshToken : Jwt) : IamService (Client × Option Uuid) := do
  let payload ← iamCall (.verifyToken refreshToken)
  let client ← getClientData payload.sub payload.role
  return (client, payload.refreshTokenId)

/-- Both sides of the comparison may be undefined. -/
def validateRefreshToken (client : Client) (refreshTokenId : Option Uuid) : IamService Bool := do
  let refreshTokenIdFromCache ← iamCall (.cacheGet (.refreshToken client.role client.id))
  if refreshTokenIdFromCache = refreshTokenId then
    iamCall (.cacheDel (.refreshToken client.role client.id))
    return true
  else
    return false

/-- The tokens are returned without being awaited, outside the `catch`. -/
def getRefreshToken (refreshToken : Jwt) : IamService Tokens := do
  let client ← (do
      let (client, refreshTokenId) ← getClientAndTokenIdInfo refreshToken
      let isValidRefreshToken ← validateRefreshToken client refreshTokenId
      if ¬ isValidRefreshToken then
        throw (.badRequest "error validating refresh token")
      return client : IamService Client).catching
    fun _ => throw (.unauthorized "Unauthoried refreshtoken")
  generateTokens env client

def logout (refreshToken : Jwt) : IamService String := do
  let (client, refreshTokenId) ← getClientAndTokenIdInfo refreshToken
  let isValidRefreshToken ← validateRefreshToken client refreshTokenId
  if isValidRefreshToken then
    iamCall (.cacheDel (.accessToken client.role client.id))
    return "successfully logout"
  else
    throw (.badRequest "error validating refresh token")

def canActivate (token : Option Jwt) : IamService RequestClient := do
  let some token := token
    | throw (.unauthorized "Authorization token not found")
  (do
      let payload ← iamCall (.verifyToken token)
      let client ← getClientData payload.sub payload.role
      let cachedAccessTokenId ← iamCall (.cacheGet (.accessToken payload.role payload.sub))
      if cachedAccessTokenId ≠ payload.accessTokenId then
        throw (.unauthorized "Unauthorized, already logged-out")
      return ⟨payload.sub, payload.role, client.msisdn⟩ : IamService RequestClient).catching
    fun _ => throw (.unauthorized "Authorization failed")

end NebLite
