import Kayan.Lib.Protocol
import Kayan.Sessions.Sql

/-!
# Sessions

The refresh tokens of `AuthStateStore`, the session methods of `AuthService`, `JwtStrategy`,
and the methods of `AdminService` and `UsersService` that change an account.
-/
namespace Kayan.Sessions
open Interleave Auth

/-- Code of the services: statements, a result or an exception. -/
abbrev Code (α : Type) := Interleave.Code Stmt Reply PgError Failure α

/-- Awaits one statement; its error is thrown. -/
def query (q : Stmt) : Code (Reply q) := await Failure.database q

def unauthorized {α : Type} (message : String) : Code α := throw (.unauthorized message)

/-- What `validate` makes of a payload: the user of an HTTP request. -/
structure AuthUser where
  sub : Nat
  email : Option String
  isAdmin : Option Payload
  tokenVersion : Nat

/-- What a call returns: a response, or the user of an authenticated request. -/
inductive Result where
  | response (body : Payload)
  | user (u : AuthUser)

/-- The token that a response has under a key. -/
def Result.token (key : String) : Result → Option String
  | .response body =>
    match body.field key with
    | some (.str token) => some token
    | _ => none
  | .user _ => none

/-- The response hands the token to the client. -/
def Result.bears (token : String) (r : Result) : Prop :=
  r.token "accessToken" = some token ∨ r.token "refreshToken" = some token

section Store
variable (env : Env)

/-- `tryRedisSet`: a failure is only logged. -/
def tryRedisSet (op : Stmt) : Prog Stmt Answer Unit :=
  if env.redisEnabled then .call op fun _ => .ret () else .ret ()

def refreshKey (jti : String) : String := s!"refresh_jti:{jti}"

/-- `saveRefreshTokenJti`, with the `INSERT` of the pool or of a transaction's client. -/
def saveRefreshTokenJti (jti : String) (userId ttlSeconds : Nat) (insert : Stmt) : Prog Stmt Answer (Answer insert) := do
  tryRedisSet env (.redisSet (refreshKey jti) (toString userId) ttlSeconds)
  .call insert .ret

/-- A statement of the OTP flows; the tokens that they issue go to Redis first. -/
def otpStatement : (q : Auth.Stmt) → Prog Stmt Answer (Auth.Answer q)
  | .insertRefreshToken jti userId ttlSeconds =>
    saveRefreshTokenJti env jti userId ttlSeconds (.auth (.insertRefreshToken jti userId ttlSeconds))
  | q => .call (.auth q) .ret

/-- Code of the OTP flows. -/
def ofOtp {α : Type} (code : Auth.Code α) : Code α := ExceptT.mk (code.run.translate (otpStatement env))

/-- The statement of `generateTokens` that saves the token, without a transaction. -/
def poolStatement : (q : Auth.Stmt) → Prog Stmt Answer (Auth.Answer q)
  | .insertRefreshToken jti userId ttlSeconds =>
    saveRefreshTokenJti env jti userId ttlSeconds (.insertRefreshToken jti userId ttlSeconds)
  | q => .call (.auth q) .ret

def generateTokens (account : Account) : Code Tokens :=
  ExceptT.mk ((Auth.generateTokens env.toEnv account.id account.email account.isAdmin
    account.tokenVersion).run.translate (poolStatement env))

def consumeRefreshTokenJti (jti : String) : Code (Option Nat) := do
  ExceptT.lift (tryRedisSet env (.redisDel (refreshKey jti)))
  query (.consumeRefreshToken jti)

def revokeRefreshTokenJti (jti : String) : Code Unit := do
  ExceptT.lift (tryRedisSet env (.redisDel (refreshKey jti)))
  query (.revokeRefreshToken jti)

end Store

section Sessions
variable (env : Env)

/-- `verifyAsync`, which throws for a token that is not valid. -/
def verifyToken (token secret message : String) : Code JwtPayload := do
  let payload : Option JwtPayload ← tryCatch (query (.verifyAsync token secret)) fun _ => unauthorized message
  match payload with
  | some payload => pure payload
  | none => unauthorized message

/-- `payload.jti`, where it is truthy. Only text is signed there. -/
def jtiOf (payload : JwtPayload) : Option String :=
  match Fields.get "jti" payload with
  | some (.str jti) => if jti = "" then none else some jti
  | _ => none

/-- `payload.sub === id`, for an id that arrives as text. -/
def hasSub (id : Nat) (payload : JwtPayload) : Bool :=
  match Fields.get "sub" payload with
  | some (.str s) => s = toString id
  | _ => false

/-- `payload.tokenVersion === version`. -/
def hasVersion (version : Nat) (payload : JwtPayload) : Bool :=
  match Fields.get "tokenVersion" payload with
  | some (.num v) => v = version
  | _ => false

def login (email password : String) : Code Payload := do
  let user : Option User ← query (.selectLogin email)
  match user with
  | none => unauthorized "Invalid credentials"
  | some user =>
    if user.status ≠ .active then unauthorized "Invalid credentials"
    else if !env.compare password user.passwordHash then unauthorized "Invalid credentials"
    else
      let tokens ← generateTokens env (accountOf user)
      pure (registrationResponse user tokens)

def refresh (refreshToken : String) : Code Payload := do
  let payload ← verifyToken refreshToken env.config.jwtRefreshSecret "Invalid refresh token"
  match jtiOf payload with
  | none => unauthorized "Invalid refresh token"
  | some jti =>
    let storedUserId ← consumeRefreshTokenJti env jti
    match storedUserId with
    | none => unauthorized "Invalid refresh token"
    | some storedUserId =>
      if !hasSub storedUserId payload then unauthorized "Invalid refresh token"
      else
        let user : Option Account ← query (.selectAccount storedUserId)
        match user with
        | none => unauthorized "Invalid refresh token"
        | some user =>
          if user.status ≠ .active ∨ !hasVersion user.tokenVersion payload then
            unauthorized "Invalid refresh token"
          else
            let tokens ← generateTokens env user
            pure (.obj tokens.fields)

def logout (refreshToken : String) : Code Payload := do
  tryCatch
    (do
      let payload ← verifyToken refreshToken env.config.jwtRefreshSecret "Invalid refresh token"
      match jtiOf payload with
      | some jti => revokeRefreshTokenJti env jti
      | none => pure ())
    fun _ => pure ()
  pure (.obj [])

def toPositiveInt : Option Payload → Option Nat
  | some (.num n) => positiveInteger n
  | some (.str s) => if trimmed s = [] then none else (stringToNumber s).bind positiveInteger
  | _ => none

def validate (payload : JwtPayload) : Code AuthUser :=
  match Fields.get "tokenVersion" payload with
  | some (.num _) =>
    match toPositiveInt (Fields.get "sub" payload) with
    | none => unauthorized "Invalid token"
    | some normalizedSub => do
      let user : Option TokenRow ← query (.selectTokenVersion normalizedSub)
      match user with
      | none => unauthorized "Token is stale"
      | some row =>
        if !hasVersion row.tokenVersion payload then unauthorized "Token is stale"
        else pure ⟨normalizedSub, row.email, Fields.get "isAdmin" payload, row.tokenVersion⟩
  | _ => unauthorized "Invalid token"

/-- An HTTP request with a bearer token: the strategy checks its signature and expiry. -/
def authenticate (accessToken : String) : Code AuthUser := do
  let payload ← verifyToken accessToken env.config.jwtAccessSecret "Unauthorized"
  validate payload

end Sessions

section Accounts
variable (env : Env)

/-- `logAdminAction`: a failure is only logged. -/
def logAdminAction (adminId : Nat) (action : String) (userId : Nat) : Code Unit :=
  tryCatch (query (.logAdminAction adminId action userId)) fun _ => pure ()

/-- The row of an account as an admin sees it: the statements do not return its email. -/
def adminUserFields (user : User) : Fields :=
  match mapToAppUser { user with email := none } with
  | .obj fields => fields ++ [("is_admin", .bool user.isAdmin)]
  | _ => []

/-- The rest of `promoteAdmin` and `demoteAdmin`, once the account may be changed. -/
def setAdmin (adminId userId : Nat) (isAdmin : Bool) (action : String) : Code Payload := do
  let updated : Option User ← query (.updateIsAdmin isAdmin userId)
  logAdminAction adminId action userId
  match updated with
  | none => throw .typeError
  | some user => pure (.obj [("user", .obj (adminUserFields user ++ [("token_version", .num user.tokenVersion)]))])

def promoteAdmin (adminId userId : Nat) : Code Payload := do
  let before : Option Bool ← query (.selectIsAdmin userId)
  match before with
  | none => throw (.notFound "User not found")
  | some isAdmin =>
    if isAdmin then throw (.conflict "User is already an admin")
    else setAdmin adminId userId true "promote_admin"

def demoteAdmin (adminId userId : Nat) : Code Payload :=
  if adminId = userId then throw (.badRequest "Admins cannot demote themselves")
  else do
    let before : Option Bool ← query (.selectIsAdmin userId)
    match before with
    | none => throw (.notFound "User not found")
    | some isAdmin =>
      if !isAdmin then throw (.conflict "User is not an admin")
      else setAdmin adminId userId false "demote_admin"

/-- `redisService.del`, which does nothing without a Redis. -/
def dropStatus (userId : Nat) : Code Unit :=
  if env.redisEnabled then query (.redisDel s!"user:status:{userId}") else pure ()

def updateUserStatus (adminId userId : Nat) (status : UserStatus) : Code Payload := do
  let updated : Option User ← query (.updateStatus status userId)
  match updated with
  | none => throw (.notFound "User not found")
  | some user =>
    logAdminAction adminId "update_user_status" userId
    dropStatus env userId
    pure (.obj [("user", .obj (adminUserFields user))])

def deleteUser (adminId userId : Nat) : Code Payload := do
  let deleted : Bool ← query (.deleteUser userId)
  if !deleted then throw (.notFound "User not found")
  else
    logAdminAction adminId "delete_user" userId
    dropStatus env userId
    pure (.obj [("message", .str "User deleted")])

def deleteMe (userId : Nat) : Code Payload := do
  let deleted : Bool ← query (.deleteUser userId)
  if !deleted then throw (.notFound "User not found")
  else pure (.obj [("message", .str "Account deleted")])

end Accounts

/-- The calls. `authenticate` is what any HTTP request with a bearer token begins with. -/
inductive Request where
  | otp (req : Auth.Request)
  | login (email password : String)
  | refresh (refreshToken : String)
  | logout (refreshToken : String)
  | authenticate (accessToken : String)
  | promoteAdmin (adminId userId : Nat)
  | demoteAdmin (adminId userId : Nat)
  | updateUserStatus (adminId userId : Nat) (status : UserStatus)
  | deleteUser (adminId userId : Nat)
  | deleteMe (userId : Nat)

/-- The program of a call. -/
def Request.code (env : Env) : Request → Code Result
  | .otp req => Result.response <$> ofOtp env (req.code env.toEnv)
  | .login email password => Result.response <$> Sessions.login env email password
  | .refresh refreshToken => Result.response <$> Sessions.refresh env refreshToken
  | .logout refreshToken => Result.response <$> Sessions.logout env refreshToken
  | .authenticate accessToken => Result.user <$> Sessions.authenticate env accessToken
  | .promoteAdmin adminId userId => Result.response <$> Sessions.promoteAdmin adminId userId
  | .demoteAdmin adminId userId => Result.response <$> Sessions.demoteAdmin adminId userId
  | .updateUserStatus adminId userId status =>
    Result.response <$> Sessions.updateUserStatus env adminId userId status
  | .deleteUser adminId userId => Result.response <$> Sessions.deleteUser env adminId userId
  | .deleteMe userId => Result.response <$> Sessions.deleteMe userId

/-- The calls while they run: the store, and what is left of each client's call. -/
abbrev State := Config Client Stmt Answer (Except Failure Result) Db

/-- Every client has its request still to run. -/
def initial (env : Env) (req : Client → Request) (d : Db) : State :=
  ⟨d, fun c => ((req c).code env).run⟩

/-- One statement of one client, taken with its move and its reply. -/
abbrev Taken := Event Client Move Stmt Answer

end Kayan.Sessions
