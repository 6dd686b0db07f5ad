import Kayan.Auth.Service
import Kayan.Number

/-!
# The statements behind sessions

The OTP flows' store with Redis beside it, and what the statements of logins, refreshes,
logouts, authenticated requests and account administration do to it, at READ COMMITTED.
-/
namespace Kayan.Sessions
open RowStore Auth

/-- The payload of a JSON Web Token, less `iat` and `exp`. -/
abbrev JwtPayload := Fields

/-- The payload that `generateTokens` signs. An id is a `BIGINT`, which arrives as text. -/
def claims (p : TokenPayload) : JwtPayload :=
  [("sub", .str (toString p.sub)), ("email", .ofText p.email), ("isAdmin", .bool p.isAdmin),
   ("tokenVersion", .num p.tokenVersion)] ++ (p.jti.map fun jti => ("jti", Payload.str jti)).toList

/-- The configuration and the library functions: those of the OTP flows, whether a Redis is
configured, bcrypt's `compare`, and `jwtService.verifyAsync` at a time. -/
structure Env extends Auth.Env where
  redisEnabled : Bool
  compare : String → String → Bool
  verifyAsync : String → String → Nat → Option JwtPayload

/-- The store. `saved` is a history variable: the `jti`s that were ever saved. -/
structure Db where
  auth : Auth.Db
  redis : String → Option String
  saved : List String

/-- The columns of `users` that authentication reads. -/
structure TokenRow where
  id : Nat
  email : Option String
  tokenVersion : Nat

inductive Stmt where
  | auth (q : Auth.Stmt)
  | verifyAsync (token secret : String)
  | redisSet (key value : String) (ttlSeconds : Nat)
  | redisDel (key : String)
  | selectLogin (email : String)
  | insertRefreshToken (jti : String) (userId ttlSeconds : Nat)
  | consumeRefreshToken (jti : String)
  | revokeRefreshToken (jti : String)
  | selectAccount (userId : Nat)
  | selectTokenVersion (userId : Nat)
  | selectIsAdmin (userId : Nat)
  /-- The query of `AdminGuard`, which takes deleted users as well. -/
  | selectAdminCheck (userId : Nat)
  | updateIsAdmin (isAdmin : Bool) (userId : Nat)
  | updateStatus (status : UserStatus) (userId : Nat)
  | deleteUser (userId : Nat)
  | logAdminAction (adminId : Nat) (action : String) (userId : Nat)

/-- The rows that a statement returns, or its row count as far as it is read. -/
def Reply : Stmt → Type
  | .auth q => Auth.Reply q
  | .verifyAsync _ _ => Option JwtPayload
  | .selectLogin _ => Option User
  | .consumeRefreshToken _ => Option Nat
  | .selectAccount _ => Option Account
  | .selectTokenVersion _ => Option TokenRow
  | .selectIsAdmin _ => Option Bool
  | .selectAdminCheck _ => Option Bool
  | .updateIsAdmin _ _ => Option User
  | .updateStatus _ _ => Option User
  | .deleteUser _ => Bool
  | _ => Unit

/-- The reply of a statement: its rows, or the error it raised. -/
abbrev Answer (q : Stmt) : Type := Except PgError (Reply q)

/-- The account that tokens are issued for. -/
def accountOf (user : User) : Account := ⟨user.id, user.email, user.status, user.isAdmin, user.tokenVersion⟩

/-- `UPDATE users SET ... WHERE id = $1 AND deleted_at IS NULL RETURNING ...`, on its own. It
waits while a transaction holds the row. -/
def updateUser (userId : Nat) (f : User → User) (t : Table Client User) :
    Option (Option User × Table Client User) :=
  match t.committed userId with
  | none => some (none, t)
  | some row =>
    if row.deleted then some (none, t)
    else
      match (t.cell userId).held with
      | none => some (some (f row), t.store userId (some (f row)))
      | some _ => none

/-- A row of `users` that is not deleted. -/
def liveUser (userId : Nat) (t : Table Client User) : Option User :=
  (t.committed userId).filter fun r => !r.deleted

/-- `INSERT INTO auth_refresh_tokens ... ON CONFLICT (jti) DO UPDATE`, on its own. -/
def saveToken (c : Client) (token : RefreshToken) (t : Table Client RefreshToken) :
    Option (Table Client RefreshToken) :=
  if (heldKey c (fun r => r.jti = token.jti) t).isSome then none
  else
    match committedKey (fun r => r.jti = token.jti) t with
    | some i => if (t.cell i).held.isSome then none else some (t.store i (some token))
    | none => some (t.append token)

/-- `DELETE FROM auth_refresh_tokens WHERE ... RETURNING user_id`, on its own. -/
def consumeToken (now : Nat) (jti : String) (t : Table Client RefreshToken) :
    Option (Option Nat × Table Client RefreshToken) :=
  match committedKey (fun r => r.jti = jti && r.revokedAt.isNone && now < r.expiresAt) t with
  | none => some (none, t)
  | some i => if (t.cell i).held.isSome then none else some ((t.committed i).map (·.userId), t.store i none)

/-- `UPDATE auth_refresh_tokens SET revoked_at = NOW() WHERE jti = $1`, on its own. -/
def revokeToken (now : Nat) (jti : String) (t : Table Client RefreshToken) :
    Option (Table Client RefreshToken) :=
  match committedKey (fun r => r.jti = jti) t with
  | none => some t
  | some i =>
    if (t.cell i).held.isSome then none
    else some (t.store i ((t.committed i).map fun r => { r with revokedAt := some now }))

def Db.withUsers (d : Db) (users : Table Client User) : Db := { d with auth := { d.auth with users } }

def Db.withTokens (d : Db) (tokens : Table Client RefreshToken) : Db := { d with auth := { d.auth with tokens } }

/-- The `jti` that a statement saves. -/
def Stmt.saves : Stmt → Option String
  | .auth (.insertRefreshToken jti _ _) => some jti
  | .insertRefreshToken jti _ _ => some jti
  | _ => none

/-- What the store does for a statement of client `c` that is not one of the OTP flows. -/
def exec (env : Env) (draw : Nat) (c : Client) : (q : Stmt) → Db → Option (Answer q × Db)
  | .auth _, _ => none
  | .verifyAsync token secret, d => some (.ok (env.verifyAsync token secret d.auth.clock), d)
  | .redisSet key value _, d => some (.ok (), { d with redis := Function.update d.redis key (some value) })
  | .redisDel key, d => some (.ok (), { d with redis := Function.update d.redis key none })
  | .selectLogin email, d =>
    some (.ok (pick draw (d.auth.users.committedRows.filter fun r =>
      (r.email.any fun e => env.lower e = env.lower email) && !r.deleted)), d)
  | .insertRefreshToken jti userId ttlSeconds, d =>
    (saveToken c { jti, userId, expiresAt := d.auth.clock + ttlSeconds * 1000 } d.auth.tokens).map fun t =>
      (.ok (), d.withTokens t)
  | .consumeRefreshToken jti, d =>
    (consumeToken d.auth.clock jti d.auth.tokens).map fun x => (.ok x.1, d.withTokens x.2)
  | .revokeRefreshToken jti, d =>
    (revokeToken d.auth.clock jti d.auth.tokens).map fun t => (.ok (), d.withTokens t)
  | .selectAccount userId, d => some (.ok ((liveUser userId d.auth.users).map accountOf), d)
  | .selectTokenVersion userId, d =>
    some (.ok ((liveUser userId d.auth.users).map fun r => ⟨r.id, r.email, r.tokenVersion⟩), d)
  | .selectIsAdmin userId, d => some (.ok ((liveUser userId d.auth.users).map (·.isAdmin)), d)
  | .selectAdminCheck userId, d => some (.ok ((d.auth.users.committed userId).map (·.isAdmin)), d)
  | .updateIsAdmin isAdmin userId, d =>
    (updateUser userId (fun r => { r with isAdmin, tokenVersion := r.tokenVersion + 1 }) d.auth.users).map
      fun x => (.ok x.1, d.withUsers x.2)
  | .updateStatus status userId, d =>
    (updateUser userId (fun r => { r with status }) d.auth.users).map fun x => (.ok x.1, d.withUsers x.2)
  | .deleteUser userId, d =>
    (updateUser userId (fun r => { r with deleted := true, tokenVersion := r.tokenVersion + 1 })
      d.auth.users).map fun x => (.ok x.1.isSome, d.withUsers x.2)
  | .logAdminAction _ _ _, d => some (.ok (), d)

/-- The statements of the OTP flows do what they do there; a statement that fails changes
nothing. -/
def run (env : Env) (m : Move) (c : Client) : (q : Stmt) → Db → Option (Answer q × Db)
  | .auth q, d => (Auth.act env.toEnv m c q d.auth).map fun x => (x.1, { d with auth := x.2 })
  | q, d =>
    match m with
    | .run wait draw => exec env draw c q { d with auth := tick wait d.auth }
    | .fail e => some (.error e, d)

/-- What the store does for a statement, with the history of what was saved. -/
def act (env : Env) (m : Move) (c : Client) (q : Stmt) (d : Db) : Option (Answer q × Db) :=
  (run env m c q d).map fun x =>
    (x.1, { x.2 with saved := (if x.1.isOk then q.saves.toList else []) ++ x.2.saved })

end Kayan.Sessions
