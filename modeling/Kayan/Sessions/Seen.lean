import Kayan.Lib.Monitor
import Kayan.Sessions.Service

/-!
# What a call has seen

The notes beside a call: what its statements have told it about a token and an account. Which
tokens a response may hold, and which user a request may get, is read off the text of the
calls here (`request_keeps`).
-/
namespace Kayan.Sessions
open Interleave Auth

namespace Stmt

/-- The payload of a token that was found valid. -/
def verified : (q : Stmt) → Answer q → Option (String × JwtPayload)
  | .verifyAsync token _, .ok (some payload) => some (token, payload)
  | _, _ => none

/-- A token was found invalid. -/
def refused : (q : Stmt) → Answer q → Bool
  | .verifyAsync _ _, .ok none => true
  | _, _ => false

/-- The `jti` of a token that was used up. -/
def consumed : (q : Stmt) → Answer q → Option String
  | .consumeRefreshToken jti, .ok (some _) => some jti
  | _, _ => none

/-- The `jti` of a token that was revoked. -/
def revoked : (q : Stmt) → Answer q → Option String
  | .revokeRefreshToken jti, .ok _ => some jti
  | _, _ => none

/-- The account that a statement returns. -/
def account : (q : Stmt) → Answer q → Option Account
  | .auth (.selectAccount _), .ok row => (row : Option Account)
  | .auth (.insertUser _ _ _ _ _), .ok user => some ⟨(user : User).id, (user : User).email, .active, false, 0⟩
  | .selectLogin _, .ok row => (row : Option User).map accountOf
  | .selectAccount _, .ok row => (row : Option Account)
  | _, _ => none

/-- The account that a refresh finds, and the id that it was asked for by. -/
def found : (q : Stmt) → Answer q → Option (Nat × Account)
  | .selectAccount userId, .ok row => (row : Option Account).map fun a => (userId, a)
  | _, _ => none

/-- The id and the email that the `UPDATE` of a password returns. -/
def renamed : (q : Stmt) → Answer q → Option (Nat × Option String)
  | .auth (.updatePassword _ _), .ok row => (row : Option (Nat × Option String))
  | _, _ => none

/-- The row that a request is compared with, and the id that it was asked for by. -/
def shown : (q : Stmt) → Answer q → Option (Nat × TokenRow)
  | .selectTokenVersion userId, .ok row => (row : Option TokenRow).map fun r => (userId, r)
  | _, _ => none

/-- The `jti` that is saved now. -/
def stored (q : Stmt) (r : Answer q) : Option String := q.saves.filter fun _ => r.isOk

/-- Whether the open transaction holds a refresh token, where the statement decides that. -/
def pending : (q : Stmt) → Answer q → Option Bool
  | .auth (.insertRefreshToken _ _ _), .ok _ => some true
  | .auth .commit, .ok _ => some false
  | .auth .rollback, .ok _ => some false
  | _, _ => none

/-- The check or the revocation of a token has failed. -/
def broken : (q : Stmt) → Answer q → Bool
  | .verifyAsync _ _, .error _ => true
  | .revokeRefreshToken _, .error _ => true
  | _, _ => false

end Stmt

/-- The account, with the id and the email that an `UPDATE` has returned. -/
def relabel (name : Nat × Option String) (a : Account) : Account := { a with id := name.1, email := name.2 }

/-- What a call has seen. -/
structure Seen where
  req : Request
  verified : Option (String × JwtPayload) := none
  refused : Bool := false
  consumed : Option String := none
  revoked : Option String := none
  account : Option Account := none
  found : Option (Nat × Account) := none
  stored : Option String := none
  pending : Bool := false
  shown : Option (Nat × TokenRow) := none
  broken : Bool := false

namespace Seen

/-- What the reply of a statement adds. -/
def after (x : Seen) (q : Stmt) (r : Answer q) : Seen where
  req := x.req
  verified := (q.verified r).or x.verified
  refused := q.refused r || x.refused
  consumed := (q.consumed r).or x.consumed
  revoked := (q.revoked r).or x.revoked
  account := (q.renamed r).elim ((q.account r).or x.account) fun name => x.account.map (relabel name)
  found := (q.found r).or x.found
  stored := (q.stored r).or x.stored
  pending := (q.pending r).getD x.pending
  shown := (q.shown r).or x.shown
  broken := q.broken r || x.broken

/-- The call was asked to check this token with this secret. -/
def presents (env : Env) (token secret : String) (x : Seen) : Prop :=
  ((x.req = .refresh token ∨ x.req = .logout token) ∧ secret = env.config.jwtRefreshSecret) ∨
    (x.req = .authenticate token ∧ secret = env.config.jwtAccessSecret)

/-- Which statements a call may issue. Nothing follows the row that a request is compared with. -/
def may (env : Env) (x : Seen) (q : Stmt) : Prop :=
  x.shown = none ∧
    match q with
    | .verifyAsync token secret => x.presents env token secret
    | .revokeRefreshToken jti => ∃ v, x.verified = some v ∧ jtiOf v.2 = some jti
    | .auth (.insertRefreshToken _ _ _) => x.stored = none
    | .insertRefreshToken _ _ _ => x.stored = none
    | .auth (.updatePassword _ userId) => ∃ a, x.account = some a ∧ a.id = userId
    | _ => True

end Seen

/-- The protocol of the calls. -/
abbrev calls (env : Env) : Protocol Stmt Answer Seen := monitored (Seen.may env) Seen.after

/-- What is signed for an account. -/
def payloadOf (account : Account) (jti : Option String) : TokenPayload :=
  ⟨account.id, account.email, account.isAdmin, account.tokenVersion, jti⟩

/-- The tokens of a response are signed for the active account that the call has read, and what
it has saved is committed. -/
def Seen.issues (env : Env) (x : Seen) (r : Result) : Prop :=
  ∀ token, r.bears token → ∃ a jti secret ttl issued, x.account = some a ∧ a.status = .active ∧
    x.pending = false ∧ (jti = none ∨ jti = x.stored) ∧
    token = env.signAsync (payloadOf a jti) secret ttl issued

/-- The user of a request agrees with its token and with the row it was compared with. -/
def Seen.admits (x : Seen) : Result → Prop
  | .response _ => True
  | .user u => ∃ token payload row, x.req = .authenticate token ∧ x.verified = some (token, payload) ∧
      toPositiveInt (Fields.get "sub" payload) = some u.sub ∧ x.shown = some (u.sub, row) ∧
      hasVersion row.tokenVersion payload = true ∧ u.isAdmin = Fields.get "isAdmin" payload

/-- A refresh has used its token up, and has found its user with the version of the token; a logout has revoked its token, or the token was
not one that could be used, or a statement has failed. -/
def Seen.settles (x : Seen) : Prop :=
  match x.req with
  | .refresh token => ∃ payload jti userId a, x.verified = some (token, payload) ∧ jtiOf payload = some jti ∧
      x.consumed = some jti ∧ x.found = some (userId, a) ∧ hasSub userId payload = true ∧
      hasVersion a.tokenVersion payload = true
  | .logout token => x.refused = true ∨ x.broken = true ∨ ∃ payload, x.verified = some (token, payload) ∧
      ∀ jti, jtiOf payload = some jti → x.revoked = some jti
  | _ => True

/-- What a call may end with. -/
def ends (env : Env) (r : Except Failure Result) (x : Seen) : Prop :=
  ∀ a, r = .ok a → x.issues env a ∧ x.admits a ∧ x.settles

end Kayan.Sessions
