import Kayan.Auth.Schema

/-!
# The statements of the OTP flows

What Postgres does for each statement at READ COMMITTED; reading the clock and drawing
random values are statements as well. A statement that finds a row locked by another
client waits: it is not enabled. Inside a transaction `NOW()` is the time of its `BEGIN`.
-/
namespace Kayan.Auth
open RowStore

structure AppConfig where
  jwtAccessSecret : String
  jwtRefreshSecret : String
  jwtAccessTtl : String
  jwtRefreshTtl : String
  otpSigningSecret : String
  otpTtlMinutes : Nat
  otpDevMode : Bool

/-- What `generateTokens` signs; only refresh tokens have a `jti`. -/
structure TokenPayload where
  sub : Nat
  email : Option String
  isAdmin : Bool
  tokenVersion : Nat
  jti : Option String := none

/-- The configuration and the library functions that the code calls: the hex digest of
HMAC-SHA-256, bcrypt with its salt, `jwtService.signAsync` at a time, JavaScript's
`toLowerCase` and the `LOWER` of the database. -/
structure Env where
  config : AppConfig
  createHmac : String → String → String
  bcrypt : String → Nat → String → String
  signAsync : TokenPayload → String → String → Nat → String
  toLowerCase : String → String
  lower : String → String
  lower_lower : ∀ s, lower (lower s) = lower s

/-- The account that a password reset is for. -/
structure Account where
  id : Nat
  email : Option String
  status : UserStatus
  isAdmin : Bool
  tokenVersion : Nat

inductive Stmt where
  | begin
  | commit
  | rollback
  | dateNow
  | randomInt (min max : Nat)
  | randomBytes
  | hash (password : String) (rounds : Nat)
  | insertOtp (userId : Option Nat) (email codeHash salt : String) (purpose : OtpPurpose) (ttlMinutes : Nat)
  | selectOtp (email : String) (purpose : OtpPurpose)
  | upsertOtpAttempts (email : String) (purpose : OtpPurpose) (ttlSeconds : Nat)
  | deleteOtpAttempts (email : String) (purpose : OtpPurpose)
  | selectUser (email phone : String)
  | selectPending (email phone : String)
  | upsertPending (email phone name : String) (address : Option String) (passwordHash : String)
      (ttlMinutes : Nat)
  | selectPendingLive (email : String)
  | selectPendingForUpdate (email : String)
  | insertUser (name : String) (phone : Option String) (email : String) (address : Option String)
      (passwordHash : String)
  | deletePending (email : String)
  | insertRefreshToken (jti : String) (userId ttlSeconds : Nat)
  | selectUserId (email : String)
  | selectAccount (email : String)
  | updatePassword (passwordHash : String) (userId : Nat)
  | purgeOtps
  | snapshotExpiredPending
  | deleteExpiredPending (i : Nat)

/-- The rows that a statement returns, or its row count as far as it is read. -/
def Reply : Stmt → Type
  | .dateNow => Nat
  | .randomInt _ _ => Nat
  | .randomBytes => String
  | .hash _ _ => String
  | .selectOtp _ _ => Option AuthOtp
  | .upsertOtpAttempts _ _ _ => Nat
  | .selectUser _ _ => Bool
  | .selectPending _ _ => Option PendingRegistration
  | .selectPendingLive _ => Bool
  | .selectPendingForUpdate _ => Option PendingRegistration
  | .insertUser _ _ _ _ _ => User
  | .selectUserId _ => Option Nat
  | .selectAccount _ => Option Account
  | .updatePassword _ _ => Option (Nat × Option String)
  | .snapshotExpiredPending => List Nat
  | _ => Unit

/-- The reply of a statement: its rows, or the error it raised. -/
abbrev Answer (q : Stmt) : Type := Except PgError (Reply q)

def minute : Nat := 60000

def day : Nat := 86400000

/-- One of the rows: `LIMIT 1` without an order that decides. -/
def pick {α : Type} (draw : Nat) (rows : List α) : Option α := rows[draw % rows.length]?

/-- `randomBytes(16).toString('hex')`. -/
def hexOf (draw : Nat) : String :=
  String.ofList ((Nat.toDigits 16 (draw % 16 ^ 32)).leftpad 32 '0')

/-- `ORDER BY created_at DESC LIMIT 1` over the OTPs of an email and purpose. -/
def latestOtp (draw : Nat) (email : String) (purpose : OtpPurpose) (otps : List AuthOtp) : Option AuthOtp :=
  let rows := otps.filter fun r => r.email = email ∧ r.purpose = purpose
  pick draw (rows.filter fun r => rows.all fun r' => r'.createdAt ≤ r.createdAt)

/-- The attempts of an email and purpose that are counted at present. -/
def Db.liveAttempts (email : String) (purpose : OtpPurpose) (d : Db) : Nat :=
  match d.attempts email purpose with
  | some row => if row.expiresAt ≤ d.clock then 0 else row.attempts
  | none => 0

/-- The new row of `INSERT INTO auth_otp_attempts ... ON CONFLICT DO UPDATE`. -/
def nextAttempts (now ttlSeconds : Nat) : Option OtpAttempts → OtpAttempts
  | some row =>
    if row.expiresAt ≤ now then ⟨1, now + ttlSeconds * 1000⟩ else ⟨row.attempts + 1, row.expiresAt⟩
  | none => ⟨1, now + ttlSeconds * 1000⟩

/-- The key of a row that client `c` sees and that satisfies `p`. -/
def findKey {V : Type} (c : Client) (p : V → Bool) (t : Table Client V) : Option Nat :=
  (List.range t.next).find? fun i => (t.view c i).any p

/-- The key of a committed row that satisfies `p`. -/
def committedKey {V : Type} (p : V → Bool) (t : Table Client V) : Option Nat :=
  (List.range t.next).find? fun i => (t.committed i).any p

/-- The key of a row with an uncommitted version of another client that satisfies `p`. -/
def heldKey {V : Type} (c : Client) (p : V → Bool) (t : Table Client V) : Option Nat :=
  (List.range t.next).find? fun i => (t.cell i).held.any fun x => x.1 ≠ c && x.2.any p

/-- Two users that the unique indexes on `LOWER(email)` and `phone` keep apart. -/
def User.clashes (env : Env) (a b : User) : Bool :=
  (!b.deleted && (a.email.any fun e => b.email.any fun e' => env.lower e = env.lower e')) ||
    (a.phone.any fun p => b.phone = some p)

/-- `INSERT INTO pending_registrations ... ON CONFLICT (email) DO UPDATE`, on its own. It
waits while a transaction holds the row of the email, or a row with the same phone. -/
def upsertPending (c : Client) (row : PendingRegistration) (d : Db) : Option (Except PgError Unit × Db) :=
  let byEmail := committedKey (fun r => r.email = row.email) d.pending
  let byPhone := committedKey (fun r => r.email ≠ row.email && row.phone.any fun p => r.phone = some p)
    d.pending
  let written := { d with writes := ⟨c, row⟩ :: d.writes }
  if byEmail.any fun i => (d.pending.cell i).held.isSome then none
  else if byPhone.any fun i => (d.pending.cell i).held.isSome then none
  else if byPhone.isSome then some (.error .uniqueViolation, d)
  else
    match byEmail with
    | some i => some (.ok (), { written with pending := d.pending.store i (some row) })
    | none => some (.ok (), { written with pending := d.pending.append row })

/-- `INSERT INTO users`. It waits while another transaction has a clashing row uncommitted. -/
def insertUser (env : Env) (c : Client) (user : User) (d : Db) : Option (Except PgError User × Db) :=
  if (committedKey (user.clashes env) d.users).isSome then some (.error .uniqueViolation, d)
  else if (heldKey c (user.clashes env) d.users).isSome then none
  else some (.ok user, { d with users := d.users.insert c user })

/-- `INSERT INTO auth_refresh_tokens ... ON CONFLICT (jti) DO UPDATE`, in a transaction. -/
def insertRefreshToken (c : Client) (token : RefreshToken) (d : Db) : Option (Except PgError Unit × Db) :=
  if (heldKey c (fun r => r.jti = token.jti) d.tokens).isSome then none
  else
    match findKey c (fun r => r.jti = token.jti) d.tokens with
    | some i => some (.ok (), { d with tokens := d.tokens.write c i (some token) })
    | none => some (.ok (), { d with tokens := d.tokens.insert c token })

/-- Deletes the row that was found, if any, once its lock is free. -/
def deletePendingRow (c : Client) (key : Option Nat) (d : Db) : Option (Except PgError Unit × Db) :=
  match key with
  | some i =>
    if d.pending.free c i then some (.ok (), { d with pending := d.pending.write c i none }) else none
  | none => some (.ok (), d)

/-- What the store does for a statement of client `c`: the reply and the store after it,
or `none` while the statement waits for a lock. `draw` settles what is random or left open. -/
def exec (env : Env) (draw : Nat) (c : Client) : (q : Stmt) → Db → Option (Answer q × Db)
  | .begin, d => some (.ok (), { d with began := Function.update d.began c d.clock })
  | .commit, d => some (.ok (), d.commit c)
  | .rollback, d => some (.ok (), d.rollback c)
  | .dateNow, d => some (.ok d.clock, d)
  | .randomInt min max, d => some (.ok (min + draw % (max - min)), d)
  | .randomBytes, d => some (.ok (hexOf draw), d)
  | .hash password rounds, d => some (.ok (env.bcrypt password rounds (hexOf draw)), d)
  | .insertOtp userId email codeHash salt purpose ttlMinutes, d =>
    some (.ok (),
      { d with
        otps := { id := d.nextOtp, userId, email, codeHash, salt, purpose,
                  expiresAt := d.clock + ttlMinutes * minute, createdAt := d.clock } :: d.otps
        nextOtp := d.nextOtp + 1 })
  | .selectOtp email purpose, d => some (.ok (latestOtp draw email purpose d.otps), d)
  | .upsertOtpAttempts email purpose ttlSeconds, d =>
    let row := nextAttempts d.clock ttlSeconds (d.attempts email purpose)
    some (.ok row.attempts,
      { d with attempts := Function.update d.attempts email
                (Function.update (d.attempts email) purpose (some row)) })
  | .deleteOtpAttempts email purpose, d =>
    some (.ok (),
      { d with attempts := Function.update d.attempts email
                (Function.update (d.attempts email) purpose none) })
  | .selectUser email phone, d =>
    some (.ok (d.users.committedRows.any fun r =>
      (r.email.any fun e => env.lower e = env.lower email) || r.phone = some phone), d)
  | .selectPending email phone, d =>
    some (.ok (pick draw (d.pending.committedRows.filter fun r =>
      env.lower r.email = env.lower email || r.phone = some phone)), d)
  | .upsertPending email phone name address passwordHash ttlMinutes, d =>
    upsertPending c
      { email := env.lower email, phone := some phone, name, address, passwordHash,
        expiresAt := d.clock + ttlMinutes * minute, createdAt := d.clock } d
  | .selectPendingLive email, d =>
    some (.ok (d.pending.committedRows.any fun r =>
      env.lower r.email = env.lower email && d.clock < r.expiresAt), d)
  | .selectPendingForUpdate email, d =>
    match findKey c (fun r => env.lower r.email = env.lower email && d.began c < r.expiresAt) d.pending with
    | some i =>
      if d.pending.free c i then
        some (.ok (d.pending.view c i), { d with pending := d.pending.lock c i })
      else none
    | none => some (.ok none, d)
  | .insertUser name phone email address passwordHash, d =>
    insertUser env c
      { id := d.users.next, name, phone, email := some (env.lower email), address, passwordHash } d
  | .deletePending email, d =>
    deletePendingRow c (findKey c (fun r => env.lower r.email = env.lower email) d.pending) d
  | .insertRefreshToken jti userId ttlSeconds, d =>
    insertRefreshToken c { jti, userId, expiresAt := d.began c + ttlSeconds * 1000 } d
  | .selectUserId email, d =>
    some (.ok ((pick draw (d.users.committedRows.filter fun r =>
      (r.email.any fun e => env.lower e = env.lower email) && !r.deleted)).map (·.id)), d)
  | .selectAccount email, d =>
    some (.ok ((pick draw ((d.users.rows c).filter fun r =>
      (r.email.any fun e => env.lower e = env.lower email) && !r.deleted)).map fun r =>
        ⟨r.id, r.email, r.status, r.isAdmin, r.tokenVersion⟩), d)
  | .updatePassword passwordHash userId, d =>
    match d.users.view c userId with
    | none => some (.ok none, d)
    | some r =>
      if d.users.free c userId then
        some (.ok (some (r.id, r.email)),
          { d with users := d.users.write c userId (some { r with passwordHash }) })
      else none
  | .purgeOtps, d =>
    some (.ok (), { d with otps := d.otps.filter fun r => r.usedAt = none ∧ ¬ r.expiresAt + day < d.clock })
  | .snapshotExpiredPending, d =>
    some (.ok ((List.range d.pending.next).filter fun i =>
      (d.pending.view c i).any fun r => r.expiresAt + day < d.began c), d)
  | .deleteExpiredPending i, d =>
    deletePendingRow c
      (if (d.pending.view c i).any fun r => r.expiresAt + day < d.began c then some i else none) d

/-- How a statement is resolved: it runs after some time with some draw, or it raises an error. -/
inductive Move where
  | run (wait draw : Nat)
  | fail (e : PgError)

/-- The event that a statement of a check adds to the history, by the reply it got in `d`. -/
def otpEvent (c : Client) (q : Stmt) (r : Answer q) (d : Db) : Option OtpEvent :=
  match q, r with
  | .selectOtp _ _, .ok row => (row : Option AuthOtp).map fun otp => ⟨c, otp, .lookedUp d.clock⟩
  | .upsertOtpAttempts email purpose _, .ok _ =>
    (d.lastEvent c).map fun e => ⟨c, e.otp, .counted (d.liveAttempts email purpose)⟩
  | .deleteOtpAttempts _ _, .ok _ =>
    (d.lastEvent c).map fun e =>
      match e.act with
      | .counted _ => ⟨c, e.otp, .lockedOut d.nextOtp⟩
      | _ => ⟨c, e.otp, .accepted⟩
  | _, _ => none

/-- The time of a move has come. -/
def tick (wait : Nat) (d : Db) : Db := { d with clock := d.clock + wait }

/-- A failed statement changes nothing. `ROLLBACK` cannot fail: a lost connection rolls
the transaction back as well. -/
def act (env : Env) (m : Move) (c : Client) (q : Stmt) (d : Db) : Option (Answer q × Db) :=
  match m with
  | .run wait draw =>
    (exec env draw c q (tick wait d)).map fun x =>
      (x.1, { x.2 with history := (otpEvent c q x.1 (tick wait d)).toList ++ x.2.history })
  | .fail e =>
    match q with
    | .rollback => none
    | _ => some (.error e, d)

end Kayan.Auth
