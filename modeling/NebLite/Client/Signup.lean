import NebLite.Atomic.AdvisoryLocks
import NebLite.Atomic.Attempt
import NebLite.Iam.Entities
import Mathlib.Logic.Function.Basic

/-! `ClientService` and the signup of the two profile repositories, one SQL
statement at a time. A statement may be refused by the server, its answer may be
lost on the way back, and the connection may be lost before it is executed. -/

namespace NebLite

open Atomic

abbrev SessionId := ℕ

/-- A row of `rider_profile` or `driver_profile`, by its role. -/
structure ClientProfile where
  id : Id
  role : EClientType
  msisdn : String
  status : EClientStatus
  name : Option String
  driverLicenseNo : Option String
  vehicleLicensePlate : Option String
  deriving DecidableEq

/-- The columns of a signup's INSERT. -/
structure ProfileColumns where
  msisdn : String
  name : Option String
  driverLicenseNo : Option String
  vehicleLicensePlate : Option String

inductive Transaction where
  | none
  | running (inserted : List ClientProfile)
  | failed

namespace Transaction

/-- The rows that the transaction has inserted. -/
def inserted : Transaction → List ClientProfile
  | running rows => rows
  | _ => []

/-- A statement of the transaction has failed. -/
def fail : Transaction → Transaction
  | none => none
  | _ => failed

end Transaction

/-- The connection of a session: usable, lost by the client, or ended by the server. -/
inductive Link where
  | up
  | lost
  | ended
  deriving DecidableEq

structure DatabaseSession where
  link : Link
  inUse : Bool
  transaction : Transaction

/-- What the client sees of a statement. -/
inductive Fault where
  | none
  | refused
  | answerLost
  | linkLost

/-- `hashtext`, the cipher, and what happens to connections and statements; the
number is the count of earlier answers. -/
structure SignupEnvironment where
  hashtext : String → ℤ
  cipher : ℕ → String → Option String
  connection : ℕ → SessionId
  fault : ℕ → Fault
  noticed : ℕ → Bool

/-- The committed rows, the two sequences, the advisory locks and the sessions. -/
structure SignupDatabase where
  profiles : List ClientProfile
  nextId : EClientType → Id
  locks : LockTable SessionId ℤ
  sessions : SessionId → DatabaseSession
  answered : ℕ

inductive Statement where
  | tryAdvisoryLock (lockKey : String)
  | startTransaction
  | findByPhone (role : EClientType) (msisdn : String)
  | insertProfile (role : EClientType) (columns : ProfileColumns)
  | commit
  | rollback
  | advisoryUnlock (lockKey : String)

abbrev Statement.Answer : Statement → Type
  | tryAdvisoryLock _ => Bool
  | startTransaction => Unit
  | findByPhone _ _ => List Client
  | insertProfile _ _ => List Client
  | commit => Unit
  | rollback => Unit
  | advisoryUnlock _ => Bool

inductive SignupCall where
  | encrypt (value : String)
  | connect
  | query (session : SessionId) (statement : Statement)
  | isReleased (session : SessionId)
  | release (session : SessionId)
  | endSession (session : SessionId)

abbrev SignupCall.Answer : SignupCall → Type
  | encrypt _ => String
  | connect => SessionId
  | query _ statement => statement.Answer
  | isReleased _ => Bool
  | release _ => Unit
  | endSession _ => Unit

abbrev SignupService (α : Type) := Program SignupCall SignupCall.Answer ServiceError α

def signupCall (c : SignupCall) : SignupService c.Answer := .perform c

def ClientProfile.client (p : ClientProfile) : Client := ⟨p.id, p.msisdn, p.role⟩

namespace SignupDatabase

variable (db : SignupDatabase)

def setSession (s : SessionId) (session : DatabaseSession) : SignupDatabase :=
  { db with sessions := Function.update db.sessions s session }

def setTransaction (s : SessionId) (transaction : Transaction) : SignupDatabase :=
  db.setSession s { db.sessions s with transaction }

/-- `INSERT ... RETURNING id, msisdn, role`; without a transaction it is one of its own. -/
def insertProfile (s : SessionId) (role : EClientType) (columns : ProfileColumns) :
    List Client × SignupDatabase :=
  let row : ClientProfile :=
    { id := db.nextId role, role, msisdn := columns.msisdn, status := .active, name := columns.name
      driverLicenseNo := columns.driverLicenseNo, vehicleLicensePlate := columns.vehicleLicensePlate }
  let numbered := { db with nextId := Function.update db.nextId role (db.nextId role + 1) }
  match (db.sessions s).transaction with
  | .running rows => ([row.client], numbered.setTransaction s (.running (rows ++ [row])))
  | _ => ([row.client], { numbered with profiles := db.profiles ++ [row] })

/-- The committed rows and those of the session's own transaction. -/
def findByPhone (s : SessionId) (role : EClientType) (msisdn : String) : List Client :=
  ((db.profiles ++ (db.sessions s).transaction.inserted).filter fun p =>
    p.role = role ∧ p.msisdn = msisdn ∧ p.status = .active).map (·.client)

/-- A statement outside of an aborted transaction. -/
def perform (hashtext : String → ℤ) (s : SessionId) : (st : Statement) → st.Answer × SignupDatabase
  | .tryAdvisoryLock lockKey =>
    let (acquired, locks) := db.locks.tryLock s (hashtext lockKey)
    (acquired, { db with locks })
  | .startTransaction =>
    match (db.sessions s).transaction with
    | .none => ((), db.setTransaction s (.running []))
    | _ => ((), db)
  | .findByPhone role msisdn => (db.findByPhone s role msisdn, db)
  | .insertProfile role columns => db.insertProfile s role columns
  | .commit =>
    ((), { db with profiles := db.profiles ++ (db.sessions s).transaction.inserted }.setTransaction s .none)
  | .rollback => ((), db.setTransaction s .none)
  | .advisoryUnlock lockKey =>
    let (released, locks) := db.locks.unlock s (hashtext lockKey)
    (released, { db with locks })

/-- An aborted transaction only lets itself be ended. -/
def execute (hashtext : String → ℤ) (s : SessionId) (st : Statement) :
    Except ServiceError st.Answer × SignupDatabase :=
  match (db.sessions s).transaction, st with
  | .failed, .commit => (.ok (), db.setTransaction s .none)
  | .failed, .rollback => (.ok (), db.setTransaction s .none)
  | .failed, _ =>
    (.error (.error "current transaction is aborted, commands ignored until end of transaction block"), db)
  | _, st => ((db.perform hashtext s st).map .ok id)

/-- A statement that fails aborts its transaction; the end of one ends it all the same. -/
def refuse (s : SessionId) : Statement → SignupDatabase
  | .commit => db.setTransaction s .none
  | .rollback => db.setTransaction s .none
  | _ => db.setTransaction s (db.sessions s).transaction.fail

def query (env : SignupEnvironment) (s : SessionId) (st : Statement) :
    Except ServiceError st.Answer × SignupDatabase :=
  let counted := { db with answered := db.answered + 1 }
  match (db.sessions s).link with
  | .up =>
    match env.fault db.answered with
    | .none => counted.execute env.hashtext s st
    | .refused => (.error (.error "statement failed"), counted.refuse s st)
    | .answerLost => (.error (.error "query read timeout"), (counted.execute env.hashtext s st).2)
    | .linkLost =>
      (.error (.error "connection terminated"), counted.setSession s { db.sessions s with link := .lost })
  | _ => (.error (.error "connection terminated"), counted)

/-- The pool hands out a connection that nobody else uses. -/
def connect (env : SignupEnvironment) : Except ServiceError SessionId × SignupDatabase :=
  let counted := { db with answered := db.answered + 1 }
  let s := env.connection db.answered
  if (db.sessions s).link = .up ∧ (db.sessions s).inUse = false then
    (.ok s, counted.setSession s { db.sessions s with inUse := true })
  else (.error (.error "cannot connect"), counted)

/-- With its session the server drops the locks and the open transaction. -/
def endSession (s : SessionId) : SignupDatabase :=
  { db with locks := db.locks.release s }.setSession s
    { db.sessions s with link := .ended, transaction := .none }

end SignupDatabase

def signupHandle (env : SignupEnvironment) :
    Handler SignupCall SignupCall.Answer ServiceError SignupDatabase
  | .encrypt value, db =>
    match env.cipher db.answered value with
    | some text => (.ok text, { db with answered := db.answered + 1 })
    | none => (.error (.internal "Failed to encrypt value"), { db with answered := db.answered + 1 })
  | .connect, db => db.connect env
  | .query s st, db => db.query env s st
  | .isReleased s, db =>
    (.ok ((db.sessions s).link ≠ .up ∧ env.noticed db.answered = true), { db with answered := db.answered + 1 })
  | .release s, db => (.ok (), db.setSession s { db.sessions s with inUse := false })
  | .endSession s, db => (.ok (), db.endSession s)

def query (s : SessionId) (st : Statement) : SignupService st.Answer := signupCall (.query s st)

def getSignupLockKeys (msisdn : String) : List String :=
  [s!"client_signup_lock:driver_profile:{msisdn}", s!"client_signup_lock:rider_profile:{msisdn}"]

/-- The loop over the lock keys: those acquired, and the exception that ended it. -/
def takeSignupLocks (s : SessionId) (acquiredLocks : List String) :
    List String → SignupService (List String × Option ServiceError)
  | [] => pure (acquiredLocks, none)
  | lockKey :: lockKeys => do
    match ← (query s (.tryAdvisoryLock lockKey)).attempt with
    | .error e => pure (acquiredLocks, some e)
    | .ok false =>
      pure (acquiredLocks,
        some (.conflict "Registration is currently being processed, please try again."))
    | .ok true => takeSignupLocks s (acquiredLocks ++ [lockKey]) lockKeys

/-- `work` in a transaction: its outcome, and whether the transaction is still active. -/
def workInTransaction {α : Type} (s : SessionId) (work : SignupService α) :
    SignupService (Except ServiceError α × Bool) := do
  match ← (query s .startTransaction).attempt with
  | .error e => pure (.error e, true)
  | .ok () =>
    match ← work.attempt with
    | .error e => pure (.error e, true)
    | .ok result =>
      match ← (query s .commit).attempt with
      | .error e => pure (.error e, true)
      | .ok () => pure (.ok result, false)

/-- What the catch block throws. -/
def signupError (fallbackErrorMessage : String) : ServiceError → ServiceError
  | .conflict message => .conflict message
  | .internal message => .internal message
  | _ => .internal fallbackErrorMessage

def rollbackActive (s : SessionId) (active : Bool) : SignupService Unit := do
  if active then
    query s .rollback

def unlockAll (s : SessionId) : List String → SignupService Unit
  | [] => pure ()
  | lockKey :: lockKeys => do
    let _ ← query s (.advisoryUnlock lockKey)
    unlockAll s lockKeys

/-- `if (!queryRunner.isReleased)`. -/
def unlessReleased (s : SessionId) (cleanup : SignupService Unit) : SignupService Unit := do
  let released ← signupCall (.isReleased s)
  unless released do
    cleanup

/-- The `finally` block; its exception replaces the outcome. -/
def finishSignup {α : Type} (s : SessionId) (acquiredLocks : List String)
    (outcome : Except ServiceError α) : SignupService α := do
  let unlocked ← (unlessReleased s (unlockAll s acquiredLocks.reverse)).attempt
  unlessReleased s (signupCall (.release s))
  Program.ofExcept (unlocked.bind fun _ => outcome)

/-- What follows the work: the rollback of a transaction that has failed, and the
`finally` block. -/
def concludeSignup {α : Type} (s : SessionId) (fallbackErrorMessage : String)
    (acquiredLocks : List String) (result : Except ServiceError α) (active : Bool) : SignupService α :=
  match result with
  | .ok a => finishSignup s acquiredLocks (.ok a)
  | .error e => do
    match ← (rollbackActive s active).attempt with
    | .error e' => finishSignup s acquiredLocks (.error e')
    | .ok () => finishSignup s acquiredLocks (.error (signupError fallbackErrorMessage e))

/-- The private method that both repositories have. -/
def executeWithSignupLock {α : Type} (msisdn fallbackErrorMessage : String)
    (work : SessionId → SignupService α) : SignupService α := do
  match ← (signupCall .connect).attempt with
  | .error e => throw (signupError fallbackErrorMessage e)
  | .ok s =>
    let (acquiredLocks, refusal) ← takeSignupLocks s [] (getSignupLockKeys msisdn)
    let (result, active) ← match refusal with
      | some e => pure (.error e, false)
      | none => workInTransaction s (work s)
    concludeSignup s fallbackErrorMessage acquiredLocks result active

/-- The INSERT of a repository and the check of what it returns. -/
def insertReturning (s : SessionId) (role : EClientType) (columns : ProfileColumns)
    (failure : String) : SignupService Client := do
  let rows ← query s (.insertProfile role columns)
  let some client := rows.head?
    | throw (.internal failure)
  return client

def createDriverProfileWithLock (msisdn : String)
    (driverLicenseNo vehicleLicensePlate name : Option String)
    (beforeInsert : SessionId → SignupService Unit) : SignupService Client :=
  executeWithSignupLock msisdn "Failed to create driver profile" fun s => do
    beforeInsert s
    insertReturning s .driver ⟨msisdn, name, driverLicenseNo, vehicleLicensePlate⟩
      "Failed to create driver profile"

def createRiderProfileWithLock (msisdn : String) (name : Option String)
    (beforeInsert : SessionId → SignupService Unit) : SignupService Client :=
  executeWithSignupLock msisdn "Failed to create rider profile" fun s => do
    beforeInsert s
    insertReturning s .rider ⟨msisdn, name, none, none⟩ "Failed to create rider profile"

def findRiderByPhone (msisdn : String) (s : SessionId) : SignupService (List Client) :=
  query s (.findByPhone .rider msisdn)

def findDriverByPhone (msisdn : String) (s : SessionId) : SignupService (List Client) :=
  query s (.findByPhone .driver msisdn)

/-- What `ensureMsisdnExclusivity` throws for the rows that it has found. -/
def exclusivityError (clientType : EClientType) (riderExists driverExists : Bool) :
    Option ServiceError :=
  if riderExists ∧ driverExists then
    some (.conflict "msisdn is already registered as both rider and driver")
  else
    match clientType with
    | .rider =>
      if riderExists then some (.conflict "msisdn is already registered as rider")
      else if driverExists then some (.conflict "msisdn is already registered as driver")
      else none
    | .driver =>
      if driverExists then some (.conflict "msisdn is already registered as driver")
      else if riderExists then some (.conflict "msisdn is already registered as rider")
      else none

/-- Both queries are sent at once, and the session executes them one after the other. -/
def ensureMsisdnExclusivity (s : SessionId) (msisdn : String) (clientType : EClientType) :
    SignupService Unit := do
  let riders ← (findRiderByPhone msisdn s).attempt
  let drivers ← (findDriverByPhone msisdn s).attempt
  let riderProfiles ← Program.ofExcept riders
  let driverProfiles ← Program.ofExcept drivers
  match exclusivityError clientType (!riderProfiles.isEmpty) (!driverProfiles.isEmpty) with
  | some e => throw e
  | none => pure ()

/-- `DataEncryptionService.encrypt`. -/
def encrypt (value : Option String) : SignupService (Option String) := do
  match value with
  | none => return none
  | some text =>
    if text.isEmpty then
      return some text
    let encrypted ← signupCall (.encrypt text)
    return some encrypted

structure SignupRiderDto where
  msisdn : String
  name : String

structure SignupDriverDto where
  msisdn : String
  name : String
  driverLicenseNumber : String
  vehicleLicensePlate : String

def signupRider (signupRiderDto : SignupRiderDto) : SignupService Client := do
  let encryptedName ← encrypt (some signupRiderDto.name)
  createRiderProfileWithLock signupRiderDto.msisdn encryptedName fun s =>
    ensureMsisdnExclusivity s signupRiderDto.msisdn .rider

def signupDriver (signupDriverDto : SignupDriverDto) : SignupService Client := do
  let encryptedDriverLicense ← encrypt (some signupDriverDto.driverLicenseNumber)
  let encryptedVehicleLicense ← encrypt (some signupDriverDto.vehicleLicensePlate)
  let encryptedName ← encrypt (some signupDriverDto.name)
  createDriverProfileWithLock signupDriverDto.msisdn encryptedDriverLicense encryptedVehicleLicense
    encryptedName fun s => ensureMsisdnExclusivity s signupDriverDto.msisdn .driver

/-- A signup, or the end of a session. -/
inductive SignupOp where
  | signupRider (signupRiderDto : SignupRiderDto)
  | signupDriver (signupDriverDto : SignupDriverDto)
  | endSession (session : SessionId)

def SignupOp.program : SignupOp → SignupService Unit
  | signupRider dto => do let _ ← NebLite.signupRider dto
  | signupDriver dto => do let _ ← NebLite.signupDriver dto
  | endSession session => signupCall (.endSession session)

end NebLite
