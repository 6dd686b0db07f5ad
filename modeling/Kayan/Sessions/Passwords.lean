import Kayan.Sessions.Authority

/-!
# The routes that write passwords

`changePassword` beside the other routes: it looks at the hash and writes a new one in two statements, and
`resetPassword` writes in a transaction. What the replies tell a call permits the statement that writes.
-/
namespace Kayan.Sessions.Passwords
open Interleave RowStore Auth

section Service

/-- The statements of the other routes, and those of `changePassword`. -/
inductive Stmt where
  | sessions (q : Sessions.Stmt)
  | selectPasswordHash (userId : Nat)
  | updatePasswordHash (passwordHash : String) (userId : Nat)

def Reply : Stmt → Type
  | .sessions q => Sessions.Reply q
  | .selectPasswordHash _ => Option String
  | .updatePasswordHash _ _ => Unit

/-- The reply of a statement: its rows, or the error it raised. -/
abbrev Answer (q : Stmt) : Type := Except PgError (Reply q)

/-- Code of the services: statements, a result or an exception. -/
abbrev Code (α : Type) := Interleave.Code Stmt Reply PgError Failure α

/-- Awaits one statement; its error is thrown. -/
def query (q : Stmt) : Code (Reply q) := await Failure.database q

/-- Code of the other routes. -/
def ofSessions {α : Type} (code : Sessions.Code α) : Code α := ExceptT.mk (code.run.embed Stmt.sessions)

variable (env : Env)

def changePassword (userId : Nat) (oldPassword newPassword : String) : Code Payload := do
  let passwordHash : Option String ← query (.selectPasswordHash userId)
  match passwordHash with
  | none => throw (.notFound "User not found")
  | some passwordHash =>
    if !env.compare oldPassword passwordHash then throw (.badRequest "Invalid old password")
    else
      let newPasswordHash : String ← query (.sessions (.auth (.hash newPassword bcryptRounds)))
      query (.updatePasswordHash newPasswordHash userId)
      pure (.obj [("message", .str "Password changed successfully")])

/-- The routes. -/
inductive Route where
  | other (route : Authority.Route)
  | changePassword (accessToken oldPassword newPassword : String)

def Route.code : Route → Code Result
  | .other route => ofSessions (route.code env)
  | .changePassword accessToken oldPassword newPassword => do
    let user ← ofSessions (authenticate env accessToken)
    let body ← Passwords.changePassword env user.sub oldPassword newPassword
    pure (.response body)

/-- What the store does for a statement of `changePassword`. -/
def exec : (q : Stmt) → Db → Option (Answer q × Db)
  | .sessions _, _ => none
  | .selectPasswordHash userId, d => some (.ok ((liveUser userId d.auth.users).map (·.passwordHash)), d)
  | .updatePasswordHash passwordHash userId, d =>
    (updateUser userId (fun r => { r with passwordHash }) d.auth.users).map fun x => (.ok (), d.withUsers x.2)

/-- The statements of the other routes do what they do there; a statement that fails changes nothing. -/
def act (m : Move) (c : Client) : (q : Stmt) → Db → Option (Answer q × Db)
  | .sessions q, d => Sessions.act env m c q d
  | q, d =>
    match m with
    | .run wait _ => exec q { d with auth := tick wait d.auth }
    | .fail e => some (.error e, d)

/-- The calls while they run: the store, and what is left of each client's call. -/
abbrev State := Config Client Stmt Answer (Except Failure Result) Db

/-- Every client has its request still to run. -/
def service (routes : Client → Route) (d : Db) : State := ⟨d, fun c => ((routes c).code env).run⟩

/-- One statement of one client, taken with its move and its reply. -/
abbrev Taken := Event Client Move Stmt Answer

end Service

section Mild

/-- The statements of the OTP flows, apart from the `UPDATE` of a password. -/
def Quiet : Auth.Stmt → Prop
  | .updatePassword _ _ => False
  | _ => True

/-- The statements that change no password of a user who is there. -/
def Mild : Stmt → Prop
  | .sessions (.auth q) => Quiet q
  | .updatePasswordHash _ _ => False
  | _ => True

variable {env : Env} {α : Type} {email code : String} {purpose : OtpPurpose}

theorem startVerification_quiet {userId : Option Nat} :
    Confined Quiet (startVerification env.toEnv email purpose userId) := by
  refine Confined.bind ?_ fun otp => Confined.bind (Confined.await trivial) fun salt =>
    Confined.bind (Confined.await trivial) fun _ => Confined.pure
  unfold drawOtp
  split
  · exact Confined.pure
  · exact Confined.bind (Confined.await trivial) fun _ => Confined.pure

theorem checkVerification_quiet : Confined Quiet (checkVerification env.toEnv email code purpose) := by
  refine Confined.bind (Confined.await trivial) fun row => ?_
  rcases row with - | row
  · exact Confined.throw
  · dsimp only [checkOtp]
    split
    · exact Confined.throw
    · refine Confined.bind (Confined.await trivial) fun now => ?_
      split
      · exact Confined.throw
      · split
        · refine Confined.bind (Confined.bind (Confined.await trivial) fun attempts => ?_) fun result => ?_
          · split
            · exact Confined.bind (Confined.await trivial) fun _ => Confined.pure
            · exact Confined.pure
          · split <;> exact Confined.throw
        · exact Confined.bind (Confined.await trivial) fun _ => Confined.pure

theorem withTransaction_quiet {callback : Auth.Code α} (h : Confined Quiet callback) :
    Confined Quiet (Auth.withTransaction callback) := Confined.transaction trivial trivial trivial h

theorem generateTokens_quiet {userId tokenVersion : Nat} {email : Option String} {isAdmin : Bool} :
    Confined Quiet (Auth.generateTokens env.toEnv userId email isAdmin tokenVersion) :=
  Confined.bind (Confined.await trivial) fun _ => Confined.bind (Confined.await trivial) fun _ =>
    Confined.bind (Confined.await trivial) fun _ => Confined.bind (Confined.await trivial) fun _ => Confined.pure

theorem sendOtp_quiet {userId : Option Nat} : Confined Quiet (do
    let otp ← startVerification env.toEnv email purpose userId
    pure (buildOtpSentResponse otp)) := Confined.bind startVerification_quiet fun _ => Confined.pure

theorem requestRegistrationOtp_quiet {dto : RequestRegistrationOtpDto} :
    Confined Quiet (requestRegistrationOtp env.toEnv dto) := by
  refine Confined.bind (Confined.await trivial) fun existing => ?_
  cases existing with
  | true => exact Confined.throw
  | false =>
    refine Confined.bind (Confined.await trivial) fun pending => ?_
    refine iteInduction (fun _ => Confined.throw) fun _ => ?_
    refine Confined.bind (Confined.await trivial) fun passwordHash => ?_
    refine Confined.bind (Confined.catch (Confined.await trivial) fun _ => Confined.throw) fun _ => ?_
    exact sendOtp_quiet

theorem registerPending_quiet : Confined Quiet (registerPending env.toEnv email) := by
  refine Confined.bind (Confined.await trivial) fun row => ?_
  rcases row with - | pending
  · exact Confined.throw
  · refine Confined.bind (Confined.catch (Confined.await trivial) fun _ => Confined.throw) fun user => ?_
    refine Confined.bind (Confined.await trivial) fun _ => ?_
    exact Confined.bind generateTokens_quiet fun _ => Confined.pure

theorem purgeExpiredOtps_quiet : Confined Quiet purgeExpiredOtps := by
  have hrows : ∀ ids, Confined Quiet (deleteExpiredRows ids) := by
    intro ids
    induction ids with
    | nil => exact Confined.pure
    | cons i ids ih => exact Confined.bind (Confined.await trivial) fun _ => ih
  refine Confined.bind (Confined.await trivial) fun _ => withTransaction_quiet ?_
  exact Confined.bind (Confined.await trivial) fun ids => hrows ids

/-- Only a reset changes the password of a user. -/
theorem otp_quiet {req : Auth.Request} (h : ∀ dto, req ≠ .resetPassword dto) : Confined Quiet (req.code env.toEnv) := by
  cases req with
  | startVerification => exact sendOtp_quiet
  | checkVerification => exact Confined.bind checkVerification_quiet fun _ => Confined.pure
  | requestRegistrationOtp => exact requestRegistrationOtp_quiet
  | resendRegistrationOtp =>
    refine Confined.bind (Confined.await trivial) fun pending => ?_
    cases pending with
    | false => exact Confined.throw
    | true => exact sendOtp_quiet
  | verifyRegistrationOtp =>
    exact Confined.bind checkVerification_quiet fun _ => withTransaction_quiet registerPending_quiet
  | requestPasswordResetOtp =>
    refine Confined.bind (Confined.await trivial) fun userId => ?_
    rcases userId with - | userId
    · exact Confined.pure
    · exact sendOtp_quiet
  | resetPassword dto => exact absurd rfl (h dto)
  | purgeExpiredOtps => exact Confined.bind purgeExpiredOtps_quiet fun _ => Confined.pure

theorem ofOtp_mild {code : Auth.Code α} (h : Confined Quiet code) :
    Confined (fun q => Mild (.sessions q)) (ofOtp env code) := by
  refine Issues.translate h fun q hq => ?_
  cases q with
  | insertRefreshToken => exact Authority.saveRefreshTokenJti_issues trivial trivial
  | _ => exact ⟨hq, fun _ => trivial⟩

theorem mild_of_issuing {q : Sessions.Stmt} (h : Authority.Issuing q) : Mild (.sessions q) := by
  cases q with
  | auth q =>
    cases q with
    | updatePassword => exact h
    | _ => trivial
  | _ => trivial

theorem authenticate_mild {token : String} : Confined (fun q => Mild (.sessions q)) (authenticate env token) := by
  refine Confined.bind (Authority.verifyToken_issuing.mono fun _ => mild_of_issuing) fun payload => ?_
  unfold validate
  split
  · split
    · exact Confined.throw
    · refine Confined.bind (Confined.await trivial) fun row => ?_
      rcases row with - | row
      · exact Confined.throw
      · dsimp only
        split
        · exact Confined.throw
        · exact Confined.pure
  · exact Confined.throw

theorem logAdminAction_mild {adminId userId : Nat} {name : String} :
    Confined (fun q => Mild (.sessions q)) (logAdminAction adminId name userId) :=
  Confined.catch (Confined.await trivial) fun _ => Confined.pure

theorem dropStatus_mild {userId : Nat} : Confined (fun q => Mild (.sessions q)) (dropStatus env userId) := by
  unfold dropStatus
  cases env.redisEnabled with
  | false => exact Confined.pure
  | true => exact Confined.await trivial

theorem setAdmin_mild {adminId userId : Nat} {isAdmin : Bool} {name : String} :
    Confined (fun q => Mild (.sessions q)) (setAdmin adminId userId isAdmin name) := by
  refine Confined.bind (Confined.await trivial) fun updated => Confined.bind logAdminAction_mild fun _ => ?_
  rcases updated with - | user
  · exact Confined.throw
  · exact Confined.pure

theorem perform_mild {user : AuthUser} {action : Action} :
    Confined (fun q => Mild (.sessions q)) (action.perform env user) := by
  have hguard : Confined (fun q => Mild (.sessions q)) (canActivate user) := by
    refine Confined.bind (Confined.await trivial) fun isAdmin => ?_
    split
    · exact Confined.pure
    · exact Confined.throw
  cases action with
  | promoteAdmin userId =>
    refine Confined.bind hguard fun _ => Confined.bind (Confined.await trivial) fun before => ?_
    rcases before with - | isAdmin
    · exact Confined.throw
    · refine iteInduction (fun _ => Confined.throw) fun _ => ?_
      exact setAdmin_mild
  | demoteAdmin userId =>
    refine Confined.bind hguard fun _ => ?_
    unfold demoteAdmin
    split
    · exact Confined.throw
    · refine Confined.bind (Confined.await trivial) fun before => ?_
      rcases before with - | isAdmin
      · exact Confined.throw
      · refine iteInduction (fun _ => Confined.throw) fun _ => ?_
        exact setAdmin_mild
  | updateUserStatus userId status =>
    refine Confined.bind hguard fun _ => Confined.bind (Confined.await trivial) fun updated => ?_
    rcases updated with - | user
    · exact Confined.throw
    · refine Confined.bind logAdminAction_mild fun _ => ?_
      exact Confined.bind dropStatus_mild fun _ => Confined.pure
  | deleteUser userId =>
    refine Confined.bind hguard fun _ => Confined.bind (Confined.await trivial) fun deleted => ?_
    cases deleted with
    | false => exact Confined.throw
    | true =>
      refine Confined.bind logAdminAction_mild fun _ => ?_
      exact Confined.bind dropStatus_mild fun _ => Confined.pure
  | deleteMe =>
    refine Confined.bind (Confined.await trivial) fun deleted => ?_
    cases deleted with
    | false => exact Confined.throw
    | true => exact Confined.pure

/-- Of the other routes, only the reset changes the password of a user. -/
theorem route_mild {route : Authority.Route} (h : ∀ dto, route ≠ .otp (.resetPassword dto)) :
    Confined Mild (ofSessions (route.code env)) := by
  refine Issues.embed ?_
  cases route with
  | otp req =>
    refine Confined.bind (ofOtp_mild (otp_quiet fun dto he => ?_)) fun _ => Confined.pure
    exact h dto (congrArg Authority.Route.otp he)
  | login => exact Confined.bind (Authority.login_issuing.mono fun _ => mild_of_issuing) fun _ => Confined.pure
  | refresh => exact Confined.bind (Authority.refresh_issuing.mono fun _ => mild_of_issuing) fun _ => Confined.pure
  | logout => exact Confined.bind (Authority.logout_issuing.mono fun _ => mild_of_issuing) fun _ => Confined.pure
  | bearer token action =>
    refine Confined.bind authenticate_mild fun user => ?_
    exact Confined.bind perform_mild fun _ => Confined.pure

end Mild

section Notes

/-- What a request has been told. -/
structure Notes where
  route : Route
  payload : Option JwtPayload := none
  row : Option (Nat × TokenRow) := none
  otp : Option (String × OtpPurpose × AuthOtp) := none
  now : Option Nat := none
  account : Option (String × Account) := none
  hashed : Option (String × String) := none
  known : Option (Nat × String) := none

/-- The OTP that is found for an email. -/
def foundOtp : (q : Stmt) → Answer q → Option (String × OtpPurpose × AuthOtp)
  | .sessions (.auth (.selectOtp email purpose)), .ok row => (row : Option AuthOtp).map fun otp => (email, purpose, otp)
  | _, _ => none

def clockRead : (q : Stmt) → Answer q → Option Nat
  | .sessions (.auth .dateNow), .ok now => some now
  | _, _ => none

/-- The account that a reset finds for an email. -/
def foundAccount : (q : Stmt) → Answer q → Option (String × Account)
  | .sessions (.auth (.selectAccount email)), .ok row => (row : Option Account).map fun a => (email, a)
  | _, _ => none

/-- A password and its hash. -/
def hashOf : (q : Stmt) → Answer q → Option (String × String)
  | .sessions (.auth (.hash password rounds)), .ok hash => if rounds = bcryptRounds then some (password, hash) else none
  | _, _ => none

/-- The hash that a user has. -/
def knownHash : (q : Stmt) → Answer q → Option (Nat × String)
  | .selectPasswordHash userId, .ok row => (row : Option String).map fun hash => (userId, hash)
  | _, _ => none

def verified : (q : Stmt) → Answer q → Option JwtPayload
  | .sessions q, r => (q.verified r).map Prod.snd
  | _, _ => none

def shown : (q : Stmt) → Answer q → Option (Nat × TokenRow)
  | .sessions q, r => q.shown r
  | _, _ => none

namespace Notes

def after (x : Notes) (q : Stmt) (r : Answer q) : Notes where
  route := x.route
  payload := (verified q r).or x.payload
  row := (shown q r).or x.row
  otp := (foundOtp q r).or x.otp
  now := (clockRead q r).or x.now
  account := (foundAccount q r).or x.account
  hashed := (hashOf q r).or x.hashed
  known := (knownHash q r).or x.known

variable (env : Env)

/-- The code of the body is that of an OTP which is neither used nor expired. -/
def unlocked (dto : ResetPasswordDto) (x : Notes) : Prop :=
  ∃ otp now, x.otp = some (dto.email, .passwordReset, otp) ∧ otp.usedAt = none ∧ x.now = some now ∧
    now ≤ otp.expiresAt ∧ hashOtp env.toEnv dto.otp otp.salt = otp.codeHash

/-- Which statements a request may issue. -/
def may (x : Notes) : Stmt → Prop
  | .sessions (.verifyAsync token secret) => ∀ token' oldPassword newPassword,
    x.route = .changePassword token' oldPassword newPassword → token = token' ∧ secret = env.config.jwtAccessSecret
  | .sessions (.auth (.updatePassword hash userId)) => ∃ dto account,
    x.route = .other (.otp (.resetPassword dto)) ∧ x.unlocked env dto ∧ x.account = some (dto.email, account) ∧
      account.id = userId ∧ account.status = .active ∧ x.hashed = some (dto.newPassword, hash)
  | .updatePasswordHash hash userId => ∃ token oldPassword newPassword old payload row,
    x.route = .changePassword token oldPassword newPassword ∧ x.payload = some payload ∧
      toPositiveInt (Fields.get "sub" payload) = some userId ∧ x.row = some (userId, row) ∧
      hasVersion row.tokenVersion payload = true ∧ x.known = some (userId, old) ∧
      env.compare oldPassword old = true ∧ x.hashed = some (newPassword, hash)
  | _ => True

end Notes

/-- The protocol of the requests. -/
abbrev protocol (env : Env) : Protocol Stmt Answer Notes := monitored (Notes.may env) Notes.after

end Notes

section Code
variable {env : Env} {x : Notes} {α : Type} {E : Notes → Prop} {token oldPassword newPassword : String} {userId : Nat}
  {dto : ResetPasswordDto}

theorem keeps_query {q : Stmt} {Q : Reply q → Notes → Prop} (hm : x.may env q) (h : ∀ r, outcome Q E r (x.after q r)) :
    Keeps (protocol env) x (query q) Q E :=
  Keeps.await fun r => ⟨x.after q r, ⟨hm, rfl⟩, h r⟩

/-- A request that may not change a password does not. -/
theorem mild_follows {code : Code α} (h : Confined Mild code)
    (hx : ∀ token oldPassword newPassword, x.route ≠ .changePassword token oldPassword newPassword) :
    Follows (protocol env) (fun _ _ => True) code.run x := by
  refine Follows.mono (Issues.within (I := fun y => ∀ token oldPassword newPassword,
    y.route ≠ .changePassword token oldPassword newPassword) h ?_ hx) fun _ _ _ => trivial
  intro y q r hy hq
  refine ⟨y.after q r, ⟨?_, rfl⟩, hy⟩
  cases q with
  | sessions q =>
    cases q with
    | auth q =>
      cases q with
      | updatePassword => exact hq.elim
      | _ => trivial
    | verifyAsync token secret => exact fun token' old new he => absurd he (hy token' old new)
    | _ => trivial
  | selectPasswordHash => trivial
  | updatePasswordHash => exact hq.elim

theorem changePassword_keeps {payload : JwtPayload} {row : TokenRow}
    (hr : x.route = .changePassword token oldPassword newPassword) (hp : x.payload = some payload)
    (hsub : toPositiveInt (Fields.get "sub" payload) = some userId) (hrow : x.row = some (userId, row))
    (hversion : hasVersion row.tokenVersion payload = true) :
    Keeps (protocol env) x (changePassword env userId oldPassword newPassword) (fun _ _ => True) fun _ => True := by
  refine Keeps.bind (Q := fun (hash : Option String) y => ∀ old, hash = some old → y = { x with known := some (userId, old) })
    (keeps_query trivial fun r => ?_) fun hash y hy => ?_
  · rcases r with e | _ | old
    · trivial
    · intro old hold
      cases hold
    · intro old hold
      cases hold
      rfl
  · rcases hash with - | old
    · exact Keeps.throw trivial
    · obtain rfl := hy old rfl
      dsimp only
      split
      · exact Keeps.throw trivial
      rename_i hcompare
      refine Keeps.bind (Q := fun (hash : String) y =>
        y = { x with known := some (userId, old), hashed := some (newPassword, hash) })
        (keeps_query trivial fun r => ?_) fun hash y hy => ?_
      · cases r with
        | ok hash => rfl
        | error e => trivial
      subst hy
      refine Keeps.bind (Q := fun _ _ => True) (keeps_query ?_ fun r => ?_) fun _ _ _ => Keeps.pure trivial
      · exact ⟨token, oldPassword, newPassword, old, payload, row, hr, hp, hsub, hrow, hversion, rfl,
          by simpa using hcompare, rfl⟩
      · cases r <;> trivial

/-- The check of a code passes only for the code of an OTP that may be used. -/
theorem checkVerification_keeps (hr : x.route = .other (.otp (.resetPassword dto))) :
    Keeps (fun x q => protocol env x (.sessions (.auth q))) x
      (checkVerification env.toEnv dto.email dto.otp .passwordReset)
      (fun _ y => y.route = .other (.otp (.resetPassword dto)) ∧ y.unlocked env dto) fun _ => True := by
  refine Keeps.bind (Q := fun (otp : Option AuthOtp) y => ∀ o, otp = some o →
    y = { x with otp := some (dto.email, .passwordReset, o) })
    (Keeps.await fun r => ⟨_, ⟨trivial, rfl⟩, ?_⟩) fun otp y hy => ?_
  · rcases r with e | _ | otp
    · trivial
    · intro o ho
      cases ho
    · intro o ho
      cases ho
      rfl
  · rcases otp with - | otp
    · exact Keeps.throw trivial
    · obtain rfl := hy otp rfl
      dsimp only [checkOtp]
      split
      · exact Keeps.throw trivial
      rename_i hused
      refine Keeps.bind (Q := fun (now : Nat) y =>
        y = { x with otp := some (dto.email, .passwordReset, otp), now := some now })
        (Keeps.await fun r => ⟨_, ⟨trivial, rfl⟩, ?_⟩) fun now y hy => ?_
      · cases r with
        | ok now => rfl
        | error e => trivial
      subst hy
      split
      · exact Keeps.throw trivial
      rename_i hexpired
      split
      · -- a wrong code is counted, and the check throws
        refine Keeps.bind (Q := fun _ _ => True) ?_ fun result _ _ => ?_
        · refine Keeps.bind (Q := fun _ _ => True) (Keeps.await fun r => ⟨_, ⟨trivial, rfl⟩, ?_⟩) fun attempts y _ => ?_
          · cases r <;> trivial
          · split
            · refine Keeps.bind (Q := fun _ _ => True) (Keeps.await fun r => ⟨_, ⟨trivial, rfl⟩, ?_⟩) fun _ _ _ =>
                Keeps.pure trivial
              cases r <;> trivial
            · exact Keeps.pure trivial
        · split <;> exact Keeps.throw trivial
      rename_i hcode
      refine Keeps.bind (Q := fun _ y => y = { x with otp := some (dto.email, .passwordReset, otp), now := some now })
        (Keeps.await fun r => ⟨_, ⟨trivial, rfl⟩, ?_⟩) fun _ y hy => ?_
      · cases r with
        | ok v => rfl
        | error e => trivial
      subst hy
      have hfree : otp.usedAt = none := by simpa using hused
      exact Keeps.pure ⟨hr, otp, now, rfl, hfree, rfl, Nat.le_of_not_lt hexpired, not_not.mp hcode⟩

/-- The transaction of a reset. -/
theorem reset_keeps (hr : x.route = .other (.otp (.resetPassword dto))) (hu : x.unlocked env dto) :
    Keeps (fun x q => protocol env x (.sessions (.auth q))) x (Auth.changePassword env.toEnv dto.email dto.newPassword)
      (fun _ _ => True) fun _ => True := by
  refine Keeps.bind (Q := fun (account : Option Account) y => ∀ a, account = some a →
    y = { x with account := some (dto.email, a) }) (Keeps.await fun r => ⟨_, ⟨trivial, rfl⟩, ?_⟩) fun account y hy => ?_
  · rcases r with e | _ | a
    · trivial
    · intro o ho
      cases ho
    · intro o ho
      cases ho
      rfl
  rcases account with - | user
  · exact Keeps.throw trivial
  obtain rfl := hy user rfl
  dsimp only
  split
  · exact Keeps.throw trivial
  rename_i hactive
  refine Keeps.bind (Q := fun (hash : String) y =>
    y = { x with account := some (dto.email, user), hashed := some (dto.newPassword, hash) })
    (Keeps.await fun r => ⟨_, ⟨trivial, rfl⟩, ?_⟩) fun hash y hy => ?_
  · cases r with
    | ok hash => rfl
    | error e => trivial
  subst hy
  refine Keeps.bind (Q := fun _ _ => True) (Keeps.await fun r => ⟨_, ⟨?_, rfl⟩, ?_⟩) fun updated y _ => ?_
  · exact ⟨dto, user, hr, hu, rfl, rfl, not_not.mp hactive, rfl⟩
  · cases r <;> trivial
  · rcases updated with - | name
    · exact Keeps.throw trivial
    · have htokens : Keeps (fun x q => protocol env x (.sessions (.auth q))) y
          (Auth.generateTokens env.toEnv name.1 name.2 user.isAdmin user.tokenVersion) (fun _ _ => True) fun _ => True := by
        have hissue : Confined Quiet (Auth.generateTokens env.toEnv name.1 name.2 user.isAdmin user.tokenVersion) :=
          generateTokens_quiet
        refine Follows.mono (Issues.within (I := fun _ => True) hissue ?_ trivial) fun r _ _ => by cases r <;> trivial
        intro z q r _ hq
        refine ⟨_, ⟨?_, rfl⟩, trivial⟩
        cases q with
        | updatePassword => exact hq.elim
        | _ => trivial
      exact Keeps.bind htokens fun _ _ _ => Keeps.pure trivial

/-- A refresh token goes to Redis as well, which the notes do not heed. -/
theorem statement_follows {q : Auth.Stmt} {C : Auth.Answer q → Notes → Prop}
    (h : ∀ r, ∃ y, protocol env x (.sessions (.auth q)) r y ∧ C r y) :
    Follows (fun x q => protocol env x (.sessions q)) C (otpStatement env q) x := by
  have hset : ∀ jti userId ttlSeconds, Follows (fun x q => protocol env x (.sessions q)) (fun _ y => y = x)
      (tryRedisSet env (.redisSet jti userId ttlSeconds)) x := by
    intro jti userId ttlSeconds
    unfold tryRedisSet
    cases env.redisEnabled with
    | false => rfl
    | true => exact fun r => ⟨x, ⟨trivial, rfl⟩, rfl⟩
  cases q with
  | insertRefreshToken =>
    refine Follows.bind (hset _ _ _) fun _ y hy => ?_
    subst hy
    exact h
  | _ => exact h

theorem resetPassword_keeps (hr : x.route = .other (.otp (.resetPassword dto))) :
    Keeps (fun x q => protocol env x (.sessions (.auth q))) x (resetPassword env.toEnv dto) (fun _ _ => True)
      fun _ => True := by
  unfold resetPassword
  split
  · exact Keeps.throw trivial
  · refine Keeps.bind (checkVerification_keeps hr) fun _ y hy => ?_
    refine Keeps.transaction (E := fun _ => True) (fun r => ⟨y, ⟨trivial, rfl⟩, ?_⟩) (reset_keeps hy.1 hy.2)
      (fun a z _ r => ⟨z, ⟨trivial, rfl⟩, ?_⟩) fun z _ r => ⟨z, ⟨trivial, rfl⟩, trivial⟩
    · cases r with
      | ok v => rfl
      | error e => trivial
    · cases r <;> trivial

variable (env) in
theorem route_follows (route : Route) : Follows (protocol env) (fun _ _ => True) (route.code env).run { route } := by
  cases route with
  | other route =>
    by_cases hreset : ∃ dto, route = .otp (.resetPassword dto)
    · obtain ⟨dto, rfl⟩ := hreset
      refine Follows.embed ?_
      have hflow : Keeps (fun x q => protocol env x (.sessions q)) { route := .other (.otp (.resetPassword dto)) }
          (ofOtp env (resetPassword env.toEnv dto)) (fun _ _ => True) fun _ => True :=
        Follows.translate (resetPassword_keeps rfl) fun q x C h => statement_follows h
      have hcode : Keeps (fun x q => protocol env x (.sessions q)) { route := .other (.otp (.resetPassword dto)) }
          ((Authority.Route.otp (.resetPassword dto)).code env) (fun _ _ => True) fun _ => True :=
        Keeps.bind hflow fun _ _ _ => Keeps.pure trivial
      exact Follows.mono hcode fun _ _ _ => trivial
    · refine mild_follows (route_mild fun dto he => hreset ⟨dto, he⟩) fun _ _ _ => by simp
  | changePassword token oldPassword newPassword =>
    have haccess : Keeps (protocol env) { route := .changePassword token oldPassword newPassword }
        (ofSessions (authenticate env token)) (fun user y => ∃ payload row,
          y.route = .changePassword token oldPassword newPassword ∧ y.payload = some payload ∧
            toPositiveInt (Fields.get "sub" payload) = some user.sub ∧ y.row = some (user.sub, row) ∧
            hasVersion row.tokenVersion payload = true) fun _ => True := by
      refine Follows.embed (Authority.authenticate_rule
        (V := fun payload y => y.route = .changePassword token oldPassword newPassword ∧ y.payload = some payload)
        (fun r => ⟨_, ⟨?_, rfl⟩, ?_⟩) fun payload y n hy hn r => ⟨_, ⟨trivial, rfl⟩, ?_⟩)
      · intro token' old new he
        cases he
        exact ⟨rfl, rfl⟩
      · rintro payload rfl
        exact ⟨rfl, rfl⟩
      · rintro row rfl hversion
        exact ⟨payload, row, hy.1, hy.2, hn, rfl, hversion⟩
    have hcode : Keeps (protocol env) { route := .changePassword token oldPassword newPassword }
        ((Route.changePassword token oldPassword newPassword).code env) (fun _ _ => True) fun _ => True := by
      refine Keeps.bind haccess fun user y hy => ?_
      obtain ⟨payload, row, hr, hp, hsub, hrow, hversion⟩ := hy
      exact Keeps.bind (changePassword_keeps hr hp hsub hrow hversion) fun _ _ _ => Keeps.pure trivial
    exact Follows.mono hcode fun _ _ _ => trivial

end Code

end Kayan.Sessions.Passwords
