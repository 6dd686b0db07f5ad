import Kayan.Auth.Sql

/-!
# The OTP flows

`ConsoleOtpSender`, the attempts of `AuthStateStore`, the OTP methods of `AuthService`
and `OtpCleanupTask`, statement by statement. `ResendOtpSender` checks codes the same way.
-/
namespace Kayan.Auth
open Interleave

def bcryptRounds : Nat := 12
def otpRangeMin : Nat := 100000
def otpRangeMax : Nat := 1000000
def otpMaxAttempts : Nat := 5
def otpAttemptsTtlSeconds : Nat := 600
def refreshTtlFallbackSeconds : Nat := 2592000

/-- Code of the service: statements, a result or an exception. -/
abbrev Code (α : Type) := Interleave.Code Stmt Reply PgError Failure α

/-- Awaits one statement; its error is thrown. -/
def query (q : Stmt) : Code (Reply q) := await Failure.database q

def badRequest {α : Type} (message : String) : Code α := throw (.badRequest message)

def conflict {α : Type} (message : String) : Code α := throw (.conflict message)

/-- `try { BEGIN; callback; COMMIT } catch { ROLLBACK; throw }`. -/
def withTransaction {α : Type} (callback : Code α) : Code α :=
  transaction Failure.database .begin .commit .rollback callback

structure RequestRegistrationOtpDto where
  name : String
  email : String
  phone : String
  password : String
  address : Option String := none

structure ResetPasswordDto where
  email : String
  otp : String
  newPassword : String
  confirmPassword : String

section OtpSender
variable (env : Env)

def hashOtp (otp salt : String) : String :=
  env.createHmac env.config.otpSigningSecret s!"{otp}:{salt}"

def drawOtp : Code String :=
  if env.config.otpDevMode then pure "000000"
  else do
    let n : Nat ← query (.randomInt otpRangeMin otpRangeMax)
    pure (toString n)

def startVerification (email : String) (purpose : OtpPurpose) (userId : Option Nat) :
    Code (Option String) := do
  let otp ← drawOtp env
  let salt : String ← query .randomBytes
  query (.insertOtp userId email (hashOtp env otp salt) salt purpose env.config.otpTtlMinutes)
  pure (if env.config.otpDevMode then some otp else none)

def clearOtpAttempts (email : String) (purpose : OtpPurpose) : Code Unit :=
  query (.deleteOtpAttempts email purpose)

structure IncrementOtpResult where
  attempts : Nat
  locked : Bool

def incrementOtpAttempts (email : String) (purpose : OtpPurpose) (maxAttempts ttlSeconds : Nat) :
    Code IncrementOtpResult := do
  let attempts : Nat ← query (.upsertOtpAttempts email purpose ttlSeconds)
  if maxAttempts ≤ attempts then
    clearOtpAttempts email purpose
    pure ⟨attempts, true⟩
  else pure ⟨attempts, false⟩

/-- `checkVerification` once it has found a row; it returns the row's id. -/
def checkOtp (email code : String) (purpose : OtpPurpose) (otpRow : AuthOtp) : Code Nat :=
  if otpRow.usedAt.isSome then badRequest "OTP already used"
  else do
    let now : Nat ← query .dateNow
    if otpRow.expiresAt < now then badRequest "OTP expired"
    else if hashOtp env code otpRow.salt ≠ otpRow.codeHash then do
      let result ← incrementOtpAttempts email purpose otpMaxAttempts otpAttemptsTtlSeconds
      if result.locked then badRequest "Too many attempts — OTP invalidated"
      else badRequest "Invalid OTP"
    else
      clearOtpAttempts email purpose
      pure otpRow.id

def checkVerification (email code : String) (purpose : OtpPurpose) : Code Nat := do
  let otpRow : Option AuthOtp ← query (.selectOtp email purpose)
  match otpRow with
  | none => badRequest "OTP not found"
  | some otpRow => checkOtp env email code purpose otpRow

end OtpSender

section Tokens
variable (env : Env)

/-- `parseTtlSeconds`: a number with a unit, or the fallback. -/
def parseTtlSeconds (ttl : String) : Nat :=
  match ttl.toList.reverse with
  | unit :: digits =>
    let val := (String.ofList digits.reverse).toNat?.getD 0
    if digits = [] ∨ ¬ digits.all Char.isDigit then refreshTtlFallbackSeconds
    else if unit = 's' then val
    else if unit = 'm' then val * 60
    else if unit = 'h' then val * 3600
    else if unit = 'd' then val * 86400
    else refreshTtlFallbackSeconds
  | [] => refreshTtlFallbackSeconds

structure Tokens where
  accessToken : String
  refreshToken : String

/-- `generateTokens` with the client of a transaction. -/
def generateTokens (userId : Nat) (email : Option String) (isAdmin : Bool) (tokenVersion : Nat) :
    Code Tokens := do
  let jti : String ← query .randomBytes
  let basePayload : TokenPayload := { sub := userId, email, isAdmin, tokenVersion }
  let issued : Nat ← query .dateNow
  let accessToken := env.signAsync basePayload env.config.jwtAccessSecret env.config.jwtAccessTtl issued
  let reissued : Nat ← query .dateNow
  let refreshToken := env.signAsync { basePayload with jti := some jti } env.config.jwtRefreshSecret
    env.config.jwtRefreshTtl reissued
  query (.insertRefreshToken jti userId (parseTtlSeconds env.config.jwtRefreshTtl))
  pure ⟨accessToken, refreshToken⟩

/-- `mapToAppUser` of a user row; absent text becomes empty. -/
def mapToAppUser (user : User) : Payload :=
  .obj
    [("id", .num user.id), ("name", .str user.name), ("phone", .str (user.phone.getD "")),
     ("email", .str (user.email.getD "")), ("profileState", .str user.status.text)]

def Tokens.fields (tokens : Tokens) : Fields :=
  [("accessToken", .str tokens.accessToken), ("refreshToken", .str tokens.refreshToken)]

end Tokens

section Methods
variable (env : Env)

def buildOtpSentResponse (otp : Option String) : Payload :=
  .obj ([("message", .str "OTP sent")] ++ (otp.map fun otp => ("otp", Payload.str otp)).toList)

def requestRegistrationOtp (dto : RequestRegistrationOtpDto) : Code Payload := do
  let existingUser : Bool ← query (.selectUser dto.email dto.phone)
  if existingUser then conflict "Email or phone already exists"
  else
    let existingPending : Option PendingRegistration ← query (.selectPending dto.email dto.phone)
    if existingPending.any fun row => env.toLowerCase row.email ≠ env.toLowerCase dto.email then
      conflict "Email or phone already exists"
    else
      let passwordHash : String ← query (.hash dto.password bcryptRounds)
      tryCatch
        (query (.upsertPending dto.email dto.phone dto.name dto.address passwordHash env.config.otpTtlMinutes))
        fun _ => conflict "Email or phone already exists"
      let otp ← startVerification env dto.email .registration none
      pure (buildOtpSentResponse otp)

def resendRegistrationOtp (email : String) : Code Payload := do
  let pending : Bool ← query (.selectPendingLive email)
  if !pending then badRequest "No pending registration found for this email"
  else
    let otp ← startVerification env email .registration none
    pure (buildOtpSentResponse otp)

def registrationResponse (user : User) (tokens : Tokens) : Payload :=
  .obj (("user", mapToAppUser user) :: tokens.fields)

/-- The transaction of `verifyRegistrationOtp`. -/
def registerPending (email : String) : Code Payload := do
  let pendingRow : Option PendingRegistration ← query (.selectPendingForUpdate email)
  match pendingRow with
  | none => badRequest "Registration session expired or not found"
  | some pending =>
    let createdUser : User ← tryCatch
      (query (.insertUser pending.name pending.phone pending.email pending.address pending.passwordHash))
      fun _ => conflict "Email or phone already exists"
    query (.deletePending email)
    let tokens ← generateTokens env createdUser.id createdUser.email false 0
    pure (registrationResponse createdUser tokens)

def verifyRegistrationOtp (email otp : String) : Code Payload := do
  let _ ← checkVerification env email otp .registration
  withTransaction (registerPending env email)

def requestPasswordResetOtp (email : String) : Code Payload := do
  let userId : Option Nat ← query (.selectUserId email)
  match userId with
  | none => pure (.obj [("message", .str "If this email is registered, an OTP has been sent")])
  | some userId =>
    let otp ← startVerification env email .passwordReset (some userId)
    pure (buildOtpSentResponse otp)

/-- The transaction of `resetPassword`. -/
def changePassword (email newPassword : String) : Code Payload := do
  let account : Option Account ← query (.selectAccount email)
  match account with
  | none => badRequest "User not found"
  | some user =>
    if user.status ≠ .active then throw (.unauthorized "Invalid credentials")
    else
      let passwordHash : String ← query (.hash newPassword bcryptRounds)
      let updatedUser : Option (Nat × Option String) ← query (.updatePassword passwordHash user.id)
      match updatedUser with
      | none => badRequest "User not found"
      | some (userId, userEmail) =>
        let tokens ← generateTokens env userId userEmail user.isAdmin user.tokenVersion
        pure (.obj (("message", .str "Password reset successfully") :: tokens.fields))

def resetPassword (dto : ResetPasswordDto) : Code Payload :=
  if dto.newPassword ≠ dto.confirmPassword then badRequest "Passwords do not match"
  else do
    let _ ← checkVerification env dto.email dto.otp .passwordReset
    withTransaction (changePassword env dto.email dto.newPassword)

def deleteExpiredRows : List Nat → Code Unit
  | [] => pure ()
  | i :: ids => do
    query (.deleteExpiredPending i)
    deleteExpiredRows ids

/-- `DELETE FROM pending_registrations WHERE expires_at < NOW() - INTERVAL '1 day'`: a
transaction of its own, since it waits for the rows one by one. -/
def purgePending : Code Unit :=
  withTransaction do
    let ids : List Nat ← query .snapshotExpiredPending
    deleteExpiredRows ids

def purgeExpiredOtps : Code Unit := do
  query .purgeOtps
  purgePending

end Methods

/-- The calls that clients and the scheduler make. -/
inductive Request where
  | startVerification (email : String) (purpose : OtpPurpose) (userId : Option Nat)
  | checkVerification (email code : String) (purpose : OtpPurpose)
  | requestRegistrationOtp (dto : RequestRegistrationOtpDto)
  | resendRegistrationOtp (email : String)
  | verifyRegistrationOtp (email otp : String)
  | requestPasswordResetOtp (email : String)
  | resetPassword (dto : ResetPasswordDto)
  | purgeExpiredOtps

/-- The program of a call. -/
def Request.code (env : Env) : Request → Code Payload
  | .startVerification email purpose userId => do
    let otp ← Auth.startVerification env email purpose userId
    pure (buildOtpSentResponse otp)
  | .checkVerification email code purpose => do
    let localOtpId ← Auth.checkVerification env email code purpose
    pure (.obj [("localOtpId", .num localOtpId)])
  | .requestRegistrationOtp dto => Auth.requestRegistrationOtp env dto
  | .resendRegistrationOtp email => Auth.resendRegistrationOtp env email
  | .verifyRegistrationOtp email otp => Auth.verifyRegistrationOtp env email otp
  | .requestPasswordResetOtp email => Auth.requestPasswordResetOtp env email
  | .resetPassword dto => Auth.resetPassword env dto
  | .purgeExpiredOtps => do
    Auth.purgeExpiredOtps
    pure .null

/-- The code that a call presents, with the email and purpose it is checked for. -/
def Request.presented : Request → Option (String × String × OtpPurpose)
  | .checkVerification email code purpose => some (email, code, purpose)
  | .verifyRegistrationOtp email otp => some (email, otp, .registration)
  | .resetPassword dto => some (dto.email, dto.otp, .passwordReset)
  | _ => none

/-- The calls while they run: the store, and what is left of each client's call. -/
abbrev State := Config Client Stmt Answer (Except Failure Payload) Db

/-- Every client has its request still to run. -/
def initial (env : Env) (req : Client → Request) (d : Db) : State :=
  ⟨d, fun c => ((req c).code env).run⟩

/-- One statement of one client, taken with its move and its reply. -/
abbrev Taken := Event Client Move Stmt Answer

end Kayan.Auth
