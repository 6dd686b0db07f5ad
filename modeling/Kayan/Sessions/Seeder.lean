import Kayan.Auth.Frame
import Kayan.Lib.RowVersions
import Kayan.Lib.Sequential
import Kayan.Lib.SoleClient
import Kayan.Lib.TwoRuns
import Kayan.Sessions.Signing

/-!
# Seeding an admin

`parseAdminSeedInput`, `seedAdminUser` in the transaction of `seed-admin.ts`, and the login of the account that it
leaves.
-/
namespace Kayan.Sessions
open RowStore Interleave Auth

section Input

/-- `/^\+?[1-9]\d{7,15}$/`. -/
def adminPhoneRegex (s : String) : Bool :=
  let digits := if s.toList.head? = some '+' then s.toList.tail else s.toList
  digits.head? ≠ some '0' && digits.all Char.isDigit && 8 ≤ digits.length && digits.length ≤ 16

/-- `/^(?=.*[A-Za-z])(?=.*\d).+$/`: a dot takes no line terminator. -/
def adminPasswordRegex (s : String) : Bool :=
  s.toList.any Char.isAlpha && s.toList.any Char.isDigit && s.toList.all (· ∉ ['\n', '\r', '\u2028', '\u2029'])

/-- `/^[^\s@]+@[^\s@]+\.[^\s@]+$/`. -/
def adminEmailRegex (s : String) : Bool :=
  let name := s.toList.takeWhile (· ≠ '@')
  let domain := s.toList.drop (name.length + 1)
  name ≠ [] && (name ++ domain).all (fun c => c ≠ '@' && !isSpace c) && '.' ∈ domain.tail.dropLast

/-- `length` of a string, in units of UTF-16. -/
def utf16Length (s : String) : Nat := (s.toList.map fun c => if c.val < 0x10000 then 1 else 2).sum

/-- What the script takes from its environment. -/
structure AdminSeedInput where
  email : String
  phone : Option String
  password : String
  valid_email : adminEmailRegex email = true
  valid_phone : ∀ p, phone = some p → adminPhoneRegex p = true
  valid_password : 8 ≤ utf16Length password ∧ utf16Length password ≤ 64 ∧ adminPasswordRegex password = true

/-- The variables that are set. -/
structure SeedVars where
  adminEmail : Option String
  adminPhone : Option String
  adminPassword : Option String

def parseAdminSeedInput (env : Auth.Env) (vars : SeedVars) : Except String AdminSeedInput :=
  let phone := String.ofList (trimmed (vars.adminPhone.getD ""))
  let email := env.toLowerCase (String.ofList (trimmed (vars.adminEmail.getD "")))
  let password := vars.adminPassword.getD ""
  if email = "" then .error "ADMIN_EMAIL is required"
  else if hemail : adminEmailRegex email = false then .error "ADMIN_EMAIL must be a valid email address"
  else if hphone : phone ≠ "" ∧ adminPhoneRegex phone = false then
    .error "ADMIN_PHONE must be a valid E.164-like phone number"
  else if password = "" then .error "ADMIN_PASSWORD is required"
  else if hlength : utf16Length password < 8 ∨ 64 < utf16Length password then
    .error "ADMIN_PASSWORD must be between 8 and 64 characters"
  else if hletters : adminPasswordRegex password = false then .error "ADMIN_PASSWORD must contain letters and numbers"
  else
    .ok
      { email
        phone := if phone = "" then none else some phone
        password
        valid_email := by simpa using hemail
        valid_phone := by
          intro p hp
          split at hp
          · cases hp
          · cases hp
            simp_all
        valid_password := by
          obtain ⟨hmin, hmax⟩ := not_or.mp hlength
          exact ⟨by omega, by omega, by simpa using hletters⟩ }

/-- The phone of an input fits the column `VARCHAR(32)`. -/
theorem AdminSeedInput.phone_fits (input : AdminSeedInput) {p : String} (h : input.phone = some p) :
    p.toList.length ≤ 32 := by
  have hp := input.valid_phone p h
  simp only [adminPhoneRegex, Bool.and_eq_true, decide_eq_true_eq] at hp
  split at hp
  · have hlength := hp.2
    rw [List.length_tail] at hlength
    omega
  · omega

end Input

/-- The statements of the script. The hash and those of the transaction are among the OTP flows'. -/
inductive SeedStmt where
  | auth (q : Auth.Stmt)
  | selectExisting (email : String) (phone : Option String)
  | selectPhoneOwner (phone email : String)
  | insertAdmin (name : String) (phone : Option String) (email passwordHash : String)
  | updateAdmin (passwordHash email : String) (phone : Option String) (userId : Nat)

/-- The rows that a statement returns, or its row count as far as it is read. -/
def SeedReply : SeedStmt → Type
  | .auth q => Auth.Reply q
  | .selectExisting _ _ => List Nat
  | .selectPhoneOwner _ _ => Bool
  | .insertAdmin _ _ _ _ => Option Nat
  | .updateAdmin _ _ _ _ => Option User

abbrev SeedAnswer (q : SeedStmt) : Type := Except PgError (SeedReply q)

section Statements
variable (env : Auth.Env)

/-- `LOWER(email) = LOWER($1) OR ($2::text IS NOT NULL AND phone = $2)`. -/
def owns (email : String) (phone : Option String) (r : User) : Bool :=
  (r.email.any fun e => env.lower e = env.lower email) || phone.any fun p => r.phone = some p

/-- A row that is written against another that the unique indexes keep apart from it. -/
def collides (a b : User) : Bool := (!a.deleted && a.clashes env b) || a.phone.any fun p => b.phone = some p

/-- `UPDATE users SET ... WHERE id = $4 RETURNING ...`, in a transaction. It waits while another transaction holds
the row, or has a colliding one uncommitted. -/
def rewriteUser (c : Client) (userId : Nat) (f : User → User) (d : Auth.Db) :
    Option (Except PgError (Option User) × Auth.Db) :=
  match d.users.view c userId with
  | none => some (.ok none, d)
  | some row =>
    if !d.users.free c userId then none
    else if (findKey c (fun r => r.id ≠ row.id && collides env (f row) r) d.users).isSome then
      some (.error .uniqueViolation, d)
    else if (heldKey c (fun r => r.id ≠ row.id && collides env (f row) r) d.users).isSome then none
    else some (.ok (some (f row)), { d with users := d.users.write c userId (some (f row)) })

/-- The row that the script inserts. -/
def primaryAdmin (id : Nat) (name : String) (phone : Option String) (email passwordHash : String) : User :=
  { id, name, phone, email := some (env.lower email), address := none, passwordHash, isAdmin := true }

/-- The row that it makes of one. -/
def promoted (passwordHash email : String) (phone : Option String) (r : User) : User :=
  { r with passwordHash, status := .active, isAdmin := true, email := some (env.lower email), phone := phone.or r.phone }

/-- What the store does for a statement of client `c`. -/
def seedExec (c : Client) : (q : SeedStmt) → Auth.Db → Option (SeedAnswer q × Auth.Db)
  | .auth _, _ => none
  | .selectExisting email phone, d =>
    -- the rows come in the order of their keys, which are the ids
    some (.ok ((((d.users.rows c).filter (owns env email phone)).take 2).map (·.id)), d)
  | .selectPhoneOwner phone email, d =>
    some (.ok ((d.users.rows c).any fun r => r.phone = some phone &&
      r.email.all fun e => env.lower e ≠ env.lower email), d)
  | .insertAdmin name phone email passwordHash, d =>
    (insertUser env c (primaryAdmin env d.users.next name phone email passwordHash) d).map fun x =>
      (x.1.map fun user => some user.id, x.2)
  | .updateAdmin passwordHash email phone userId, d =>
    rewriteUser env c userId (promoted env passwordHash email phone) d

def seedAct (m : Move) (c : Client) : (q : SeedStmt) → Auth.Db → Option (SeedAnswer q × Auth.Db)
  | .auth q, d => Auth.act env m c q d
  | q, d =>
    match m with
    | .run wait _ => seedExec env c q (tick wait d)
    | .fail e => some (.error e, d)

end Statements

section Script

abbrev SeedCode (α : Type) := Interleave.Code SeedStmt SeedReply PgError Failure α

def seedQuery (q : SeedStmt) : SeedCode (SeedReply q) := await Failure.database q

structure SeededAdmin where
  id : Nat
  email : Option String
  phone : Option String
  created : Bool

/-- Text is truthy unless it is empty. -/
def assertPhoneFree (email : String) (phone : Option String) : SeedCode Unit :=
  match phone with
  | none => pure ()
  | some phone =>
    if phone = "" then pure ()
    else do
      let phoneOwner : Bool ← seedQuery (.selectPhoneOwner phone email)
      if phoneOwner then throw (.error "Seed conflict: ADMIN_PHONE belongs to another user") else pure ()

def createAdmin (email : String) (phone : Option String) (passwordHash : String) : SeedCode Nat := do
  let inserted : Option Nat ← seedQuery (.insertAdmin "Primary Admin" phone email passwordHash)
  match inserted with
  | none => throw (.error "Failed to create admin user")
  | some id => pure id

/-- The `UPDATE` and what is returned. -/
def promote (email : String) (phone : Option String) (passwordHash : String) (targetId : Nat) (created : Bool) :
    SeedCode SeededAdmin := do
  let updated : Option User ← seedQuery (.updateAdmin passwordHash email phone targetId)
  match updated with
  | none => throw (.error "Failed to seed admin user")
  | some row => pure ⟨row.id, row.email, row.phone, created⟩

def seedAdminUser (email : String) (phone : Option String) (passwordHash : String) : SeedCode SeededAdmin := do
  let existing : List Nat ← seedQuery (.selectExisting email phone)
  match existing with
  | [] => do
    assertPhoneFree email phone
    let targetId ← createAdmin email phone passwordHash
    promote email phone passwordHash targetId true
  | [targetId] => promote email phone passwordHash targetId false
  | _ => throw (.error "Seed conflict: multiple users matched ADMIN_EMAIL/ADMIN_PHONE")

/-- `main`, once it has parsed its input. -/
def seedAdmin (input : AdminSeedInput) : SeedCode SeededAdmin := do
  let passwordHash : String ← seedQuery (.auth (.hash input.password bcryptRounds))
  transaction Failure.database (.auth .begin) (.auth .commit) (.auth .rollback)
    (seedAdminUser input.email input.phone passwordHash)

end Script

section Definitions
variable (env : Env) (email password : String)

/-- bcrypt accepts a password for its own hash. -/
def Verifies : Prop := ∀ password rounds salt, env.compare password (env.bcrypt password rounds salt) = true

/-- The statements of client `c`, none of which fails. -/
def served (c : Client) : Acts Stmt Answer Db := fun q d r d' => ∃ wait draw, act env (.run wait draw) c q d = some (r, d')

/-- While the database serves it, a login with the email and the password answers for the user. -/
structure LogsIn (user : User) (d : Db) : Prop where
  ends : ∀ c, ∃ r d', Runs (served env c) (login env email password).run d r d'
  answers : ∀ c r d', Runs (served env c) (login env email password).run d r d' →
    ∃ tokens, r = .ok (registrationResponse user tokens)

/-- An active admin has the email, and logs in with the password. -/
def AdminReady (d : Db) : Prop :=
  ∃ i user, d.auth.users.committed i = some user ∧ (user.email.any fun e => env.lower e = env.lower email) = true ∧
    user.status = .active ∧ user.isAdmin = true ∧ LogsIn env email password user d

/-- The script leaves an admin who logs in; or it throws, and the rows are as they were. -/
structure Seeds (input : AdminSeedInput) (d : Db) : Prop where
  ready : ∀ c a d', Runs (anyMove (seedAct env.toEnv) c) (seedAdmin input).run d.auth (.ok a) d' →
    AdminReady env input.email input.password { d with auth := d' }
  unchanged : ∀ c e d', Runs (anyMove (seedAct env.toEnv) c) (seedAdmin input).run d.auth (.error e) d' →
    ∀ i, d'.users.committed i = d.auth.users.committed i

/-- No transaction is open. The rows of the users have their ids for keys, and phones of their own. -/
structure Idle (d : Auth.Db) : Prop where
  users : d.users.Unlocked
  tokens : d.tokens.Unlocked
  keyed : ∀ i r, d.users.committed i = some r → r.id = i
  phones : ∀ i j r r', d.users.committed i = some r → d.users.committed j = some r' → r.phone.isSome = true →
    r.phone = r'.phone → i = j

/-- Whoever has the email or the phone alone has not deleted the account. -/
def Undeleted (input : AdminSeedInput) (d : Auth.Db) : Prop :=
  ∀ r, d.users.committedRows.filter (owns env.toEnv input.email input.phone) = [r] → r.deleted = false

end Definitions

variable {env : Env} {c : Client} {email password passwordHash : String} {phone : Option String} {user : User}
  {d d' : Db}

section Login

theorem tryRedisSet_served {key value : String} {ttlSeconds : Nat} {u : Unit}
    (h : Runs (served env c) (tryRedisSet env (.redisSet key value ttlSeconds)) d u d') :
    d'.auth.tokens = d.auth.tokens := by
  unfold tryRedisSet at h
  split at h
  · cases h with
    | call hq hk =>
      obtain ⟨wait, draw, hact⟩ := hq
      cases hact
      cases hk
      rfl
  · cases h
    rfl

theorem saveRefreshTokenJti_served {jti : String} {userId ttlSeconds : Nat}
    {r : Answer (.insertRefreshToken jti userId ttlSeconds)}
    (h : Runs (served env c) (saveRefreshTokenJti env jti userId ttlSeconds (.insertRefreshToken jti userId ttlSeconds)) d r d') :
    r = .ok () := by
  obtain ⟨u, d₁, -, hrest⟩ := Runs.of_bind h
  cases hrest with
  | call hq hk =>
    obtain ⟨wait, draw, hact⟩ := hq
    obtain ⟨⟨v, e⟩, hrun, heq⟩ := Option.map_eq_some_iff.mp hact
    obtain ⟨t, -, ht⟩ := Option.map_eq_some_iff.mp hrun
    cases ht
    cases heq
    cases hk
    rfl

theorem generateTokens_served {account : Account} {r : Except Failure Tokens}
    (h : Runs (served env c) (generateTokens env account).run d r d') : ∃ tokens, r = .ok tokens := by
  cases h with
  | call hq hk =>
    obtain ⟨w, n, hact⟩ := hq
    cases hact
    cases hk with
    | call hq hk =>
      obtain ⟨w, n, hact⟩ := hq
      cases hact
      cases hk with
      | call hq hk =>
        obtain ⟨w, n, hact⟩ := hq
        cases hact
        obtain ⟨v, d₁, htime, hk⟩ := Runs.of_bind hk
        cases htime
        obtain ⟨v, d₁, hsave, hret⟩ := Runs.of_bind hk
        cases saveRefreshTokenJti_served hsave
        cases hret
        exact ⟨_, rfl⟩

/-- Nothing keeps a token from being saved. -/
theorem saveRefreshTokenJti_ends (ht : d.auth.tokens.Unlocked) (jti : String) (userId ttlSeconds : Nat) :
    ∃ d', Runs (served env c)
      (saveRefreshTokenJti env jti userId ttlSeconds (.insertRefreshToken jti userId ttlSeconds)) d (.ok ()) d' := by
  obtain ⟨d₁, htry⟩ : ∃ d₁, Runs (served env c) (tryRedisSet env (.redisSet (refreshKey jti) (toString userId) ttlSeconds)) d () d₁ := by
    unfold tryRedisSet
    split
    · exact ⟨_, .call ⟨0, 0, rfl⟩ .ret⟩
    · exact ⟨d, .ret⟩
  have hunlocked : d₁.auth.tokens.Unlocked := by
    rw [tryRedisSet_served htry]
    exact ht
  obtain ⟨t, hsave⟩ : ∃ t, saveToken c ⟨jti, userId, d₁.auth.clock + ttlSeconds * 1000, none⟩ d₁.auth.tokens = some t := by
    have hfree : heldKey c (fun r => decide (r.jti = jti)) d₁.auth.tokens = none := by
      refine List.find?_eq_none.mpr fun i _ => ?_
      rw [hunlocked i]
      exact Bool.false_ne_true
    simp only [saveToken, hfree, Option.isSome_none, Bool.false_eq_true, if_false]
    split
    · rw [hunlocked]
      exact ⟨_, rfl⟩
    · exact ⟨_, rfl⟩
  have hrun : run env (.run 0 0) c (.insertRefreshToken jti userId ttlSeconds) d₁ =
      some (.ok (), d₁.withTokens t) := congrArg (Option.map _) hsave
  have hinsert : served env c (.insertRefreshToken jti userId ttlSeconds) d₁ (.ok ())
      { d₁.withTokens t with saved := jti :: d₁.saved } := ⟨0, 0, congrArg (Option.map _) hrun⟩
  exact ⟨_, Runs.bind htry (.call hinsert .ret)⟩

theorem generateTokens_ends (account : Account) (ht : d.auth.tokens.Unlocked) :
    ∃ r d', Runs (served env c) (generateTokens env account).run d r d' := by
  obtain ⟨d', hsave⟩ := @saveRefreshTokenJti_ends env c d ht (hexOf 0) account.id (parseTtlSeconds env.config.jwtRefreshTtl)
  have hbytes : served env c (.auth .randomBytes) d (.ok (hexOf 0)) d := ⟨0, 0, rfl⟩
  have htime : served env c (.auth .dateNow) d (.ok d.auth.clock) d := ⟨0, 0, rfl⟩
  exact ⟨_, d', .call hbytes (.call htime (.call htime (Runs.bind .ret (Runs.bind hsave .ret))))⟩

/-- A login that finds one user, who may log in. -/
theorem logsIn (ht : d.auth.tokens.Unlocked) {i : Nat} (hrow : d.auth.users.committed i = some user)
    (hemail : (user.email.any fun e => env.lower e = env.lower email) = true) (hlive : user.deleted = false)
    (hactive : user.status = .active) (hpassword : env.compare password user.passwordHash = true)
    (hsole : ∀ j r, d.auth.users.committed j = some r → (r.email.any fun e => env.lower e = env.lower email) = true →
      r.deleted = false → r = user) : LogsIn env email password user d := by
  have hmem : ∀ r, r ∈ (d.auth.users.committedRows.filter fun r =>
      (r.email.any fun e => env.lower e = env.lower email) && !r.deleted) ↔ r = user := by
    intro r
    rw [List.mem_filter, Table.mem_committedRows, Bool.and_eq_true, Bool.not_eq_true']
    constructor
    · rintro ⟨⟨j, hj⟩, hsame, hundeleted⟩
      exact hsole j r hj hsame hundeleted
    · rintro rfl
      exact ⟨⟨i, hrow⟩, hemail, hlive⟩
  have hpick : ∀ draw, pick draw (d.auth.users.committedRows.filter fun r =>
      (r.email.any fun e => env.lower e = env.lower email) && !r.deleted) = some user := by
    intro draw
    obtain ⟨r, hr⟩ := Option.isSome_iff_exists.mp
      (pick_isSome.mpr (List.ne_nil_of_mem ((hmem user).mpr rfl)) : (pick draw _).isSome = true)
    rw [hr, (hmem r).mp (pick_mem hr)]
  have hchecks : (if user.status ≠ .active then unauthorized "Invalid credentials"
      else if !env.compare password user.passwordHash then unauthorized "Invalid credentials"
      else generateTokens env (accountOf user) >>= fun tokens => pure (registrationResponse user tokens) : Code Payload) =
      generateTokens env (accountOf user) >>= fun tokens => pure (registrationResponse user tokens) := by
    rw [hactive, hpassword]
    rfl
  have hlogin : login env email password = query (.selectLogin email) >>= fun found : Option User =>
      match found with
      | none => unauthorized "Invalid credentials"
      | some user =>
        if user.status ≠ .active then unauthorized "Invalid credentials"
        else if !env.compare password user.passwordHash then unauthorized "Invalid credentials"
        else generateTokens env (accountOf user) >>= fun tokens => pure (registrationResponse user tokens) := rfl
  have hselect : ∀ c wait draw, act env (.run wait draw) c (.selectLogin email) d =
      some ((.ok (some user) : Answer (.selectLogin email)), { d with auth := tick wait d.auth }) := fun c wait draw =>
    congrArg (fun found : Option User =>
      some ((.ok found : Answer (.selectLogin email)), (⟨tick wait d.auth, d.redis, d.saved⟩ : Db))) (hpick draw)
  constructor
  · intro c
    obtain ⟨r, d', htokens⟩ := @generateTokens_ends env c d (accountOf user) ht
    obtain ⟨tokens, rfl⟩ := generateTokens_served htokens
    have hfound : served env c (.selectLogin email) d (.ok (some user)) d := ⟨0, 0, hselect c 0 0⟩
    refine ⟨.ok (registrationResponse user tokens), d', ?_⟩
    rw [hlogin]
    refine Runs.then (Runs.await hfound) ?_
    change Runs _ (ExceptT.run (if _ then _ else _)) _ _ _
    rw [hchecks]
    exact Runs.then htokens .ret
  · intro c r d' hrun
    rw [hlogin] at hrun
    obtain ⟨found, d₁, hquery, hrest⟩ | ⟨e, hquery, -⟩ := Runs.of_then hrun
    · obtain ⟨v, ⟨wait, draw, hact⟩, hv⟩ := Runs.of_await hquery
      rw [hselect] at hact
      cases hact
      cases hv
      change Runs _ (ExceptT.run (if _ then _ else _)) _ _ _ at hrest
      rw [hchecks] at hrest
      obtain ⟨tokens, d₂, -, hret⟩ | ⟨e, htokens, -⟩ := Runs.of_then hrest
      · cases hret
        exact ⟨tokens, rfl⟩
      · obtain ⟨tokens, hok⟩ := generateTokens_served htokens
        cases hok
    · obtain ⟨v, ⟨wait, draw, hact⟩, hv⟩ := Runs.of_await hquery
      rw [hselect] at hact
      cases hact
      cases hv

/-- Nobody who has not deleted the account has the email. -/
theorem login_refused {r : Except Failure Payload}
    (hnone : ∀ j r, d.auth.users.committed j = some r → (r.email.any fun e => env.lower e = env.lower email) = true →
      r.deleted = true) (h : Runs (served env c) (login env email password).run d r d') :
    r = .error (.unauthorized "Invalid credentials") := by
  have hrows : (d.auth.users.committedRows.filter fun r =>
      (r.email.any fun e => env.lower e = env.lower email) && !r.deleted) = [] := by
    refine List.filter_eq_nil_iff.mpr fun r hr hlive => ?_
    obtain ⟨j, hj⟩ := Table.mem_committedRows.mp hr
    rw [Bool.and_eq_true, Bool.not_eq_true'] at hlive
    rw [hnone j r hj hlive.1] at hlive
    cases hlive.2
  have hselect : ∀ wait draw, act env (.run wait draw) c (.selectLogin email) d =
      some ((.ok none : Answer (.selectLogin email)), { d with auth := tick wait d.auth }) := by
    intro wait draw
    have hpick : pick draw (d.auth.users.committedRows.filter fun r =>
        (r.email.any fun e => env.lower e = env.lower email) && !r.deleted) = none := by
      rw [hrows]
      rfl
    exact congrArg (fun found : Option User =>
      some ((.ok found : Answer (.selectLogin email)), (⟨tick wait d.auth, d.redis, d.saved⟩ : Db))) hpick
  obtain ⟨found, d₁, hquery, hrest⟩ | ⟨e, hquery, -⟩ := Runs.of_then h
  · obtain ⟨v, ⟨wait, draw, hact⟩, hv⟩ := Runs.of_await hquery
    rw [hselect] at hact
    cases hact
    cases hv
    cases hrest
    rfl
  · obtain ⟨v, ⟨wait, draw, hact⟩, hv⟩ := Runs.of_await hquery
    rw [hselect] at hact
    cases hact
    cases hv

end Login

section Seeding
variable {a : Auth.Db} {e e' : Auth.Db} {input : AdminSeedInput} {rows : Nat → Option User} {i : Nat} {row : User}

/-- What the script has read so far has changed nothing. -/
def Begun (a e : Auth.Db) : Prop := e.users = a.users ∧ e.tokens = a.tokens

/-- Inside the transaction of `c`, which sees `rows`. -/
structure Within (c : Client) (a : Auth.Db) (rows : Nat → Option User) (e : Auth.Db) : Prop where
  sole : e.users.Sole c
  seen : ∀ i, e.users.view c i = rows i
  kept : ∀ i, e.users.committed i = a.users.committed i
  tokens : e.tokens = a.tokens

/-- Nothing is committed. -/
def Kept (a e : Auth.Db) : Prop := ∀ i, e.users.committed i = a.users.committed i

theorem Begun.kept (h : Begun a e) : Kept a e := by
  intro i
  rw [h.1]

theorem Begun.within (ha : Idle a) (h : Begun a e) : Within c a a.users.committed e := by
  obtain ⟨husers, htokens⟩ := h
  refine ⟨?_, fun i => ?_, fun i => ?_, htokens⟩
  · rw [husers]
    exact ha.users.sole
  · rw [husers]
    exact ha.users.view
  · rw [husers]

/-- A statement that reads. -/
theorem seed_reads {q : SeedStmt} {Q : SeedReply q → Prop}
    (h : ∀ wait draw e, Begun a e → ∃ v e', seedAct env.toEnv (.run wait draw) c q e = some (.ok v, e') ∧ Q v ∧ Begun a e')
    (hfail : ∀ err e r e', seedAct env.toEnv (.fail err) c q e = some (r, e') → r = .error err ∧ e' = e) :
    Ensures (anyMove (seedAct env.toEnv) c) (Begun a) (seedQuery q) (fun v e => Q v ∧ Begun a e) (Kept a) := by
  refine Ensures.await fun e r e' he ⟨m, hact⟩ => ?_
  cases m with
  | run wait draw =>
    obtain ⟨v, e₁, hrun, hq, hbegun⟩ := h wait draw e he
    cases hrun.symm.trans hact
    exact ⟨hq, hbegun⟩
  | fail err =>
    obtain ⟨rfl, rfl⟩ := hfail err e r e' hact
    exact he.kept

theorem hash_seeds {password : String} {rounds : Nat} :
    Ensures (anyMove (seedAct env.toEnv) c) (Begun a) (seedQuery (.auth (.hash password rounds)))
      (fun v e => (∃ salt, v = env.bcrypt password rounds salt) ∧ Begun a e) (Kept a) := by
  refine seed_reads (q := .auth (.hash password rounds)) (Q := fun v => ∃ salt, v = env.bcrypt password rounds salt) (fun wait draw e he => ?_) fun err e r e' h => ?_
  · exact ⟨env.bcrypt password rounds (hexOf draw), _, rfl, ⟨_, rfl⟩, he⟩
  · cases h
    exact ⟨rfl, rfl⟩

theorem begin_seeds : Ensures (anyMove (seedAct env.toEnv) c) (Begun a) (seedQuery (.auth .begin))
    (fun _ => Begun a) (Kept a) := by
  refine Ensures.conseq (seed_reads (Q := fun _ => True) (fun wait draw e he => ?_) fun err e r e' h => ?_)
    (fun _ => id) (fun _ _ => And.right) fun _ => id
  · exact ⟨(), _, rfl, trivial, he⟩
  · cases h
    exact ⟨rfl, rfl⟩

theorem selectExisting_seeds (ha : Idle a) :
    Ensures (anyMove (seedAct env.toEnv) c) (Begun a) (seedQuery (.selectExisting email phone))
      (fun ids e => ids = ((a.users.committedRows.filter (owns env.toEnv email phone)).take 2).map (·.id) ∧ Begun a e)
      (Kept a) := by
  refine seed_reads (q := .selectExisting email phone) (Q := fun ids => ids = ((a.users.committedRows.filter (owns env.toEnv email phone)).take 2).map (·.id))
    (fun wait draw e he => ⟨_, _, rfl, ?_, he⟩) fun err e r e' h => ?_
  · have hrows : e.users.rows c = a.users.committedRows := by
      rw [he.1]
      exact ha.users.rows
    exact congrArg (fun rows => ((List.filter (owns env.toEnv email phone) rows).take 2).map (·.id)) hrows
  · cases h
    exact ⟨rfl, rfl⟩

theorem assertPhoneFree_seeds :
    Ensures (anyMove (seedAct env.toEnv) c) (Begun a) (assertPhoneFree email phone) (fun _ => Begun a) (Kept a) := by
  unfold assertPhoneFree
  split
  · exact Ensures.pure fun _ => id
  · split
    · exact Ensures.pure fun _ => id
    · refine Ensures.bind (Q := fun _ => Begun a) ?_ fun phoneOwner => ?_
      · refine Ensures.conseq (seed_reads (Q := fun _ => True) (fun wait draw e he => ?_) fun err e r e' h => ?_)
          (fun _ => id) (fun _ _ => And.right) fun _ => id
        · exact ⟨_, _, rfl, trivial, he⟩
        · cases h
          exact ⟨rfl, rfl⟩
      · cases phoneOwner with
        | true => exact Ensures.throw fun _ => Begun.kept
        | false => exact Ensures.pure fun _ => id

/-- The admin is inserted under the next key. -/
theorem createAdmin_seeds (ha : Idle a) :
    Ensures (anyMove (seedAct env.toEnv) c) (Begun a) (createAdmin email phone passwordHash)
      (fun targetId e => targetId = a.users.next ∧ Within c a (Function.update a.users.committed a.users.next
        (some (primaryAdmin env.toEnv a.users.next "Primary Admin" phone email passwordHash))) e) (Kept a) := by
  refine Ensures.bind (Q := fun inserted e => inserted = some a.users.next ∧ Within c a (Function.update a.users.committed
    a.users.next (some (primaryAdmin env.toEnv a.users.next "Primary Admin" phone email passwordHash))) e)
    (Ensures.await fun e r e' he hmove => ?_) fun inserted => ?_
  · obtain ⟨m, hact⟩ := hmove
    cases m with
    | fail err =>
      cases hact
      exact he.kept
    | run wait draw =>
      obtain ⟨⟨v, u⟩, hinsert, hmap⟩ := Option.map_eq_some_iff.mp hact
      unfold insertUser at hinsert
      split at hinsert
      · cases hinsert
        cases hmap
        exact he.kept
      · split at hinsert
        · cases hinsert
        · cases hinsert
          cases hmap
          have husers : (tick wait e).users = a.users := he.1
          have hunlocked : (tick wait e).users.Unlocked := by
            rw [husers]
            exact ha.users
          refine ⟨by rw [← husers]; rfl, hunlocked.sole.insert, fun i => ?_, fun i => ?_, he.2⟩
          · have hview := Table.view_insert (c := c) (j := i) (t := (tick wait e).users)
              (r := primaryAdmin env.toEnv (tick wait e).users.next "Primary Admin" phone email passwordHash)
            rw [hunlocked.view, husers] at hview
            rw [Function.update_apply]
            simpa only [husers] using hview
          · rw [Table.committed_insert, husers]
  · cases inserted with
    | none =>
      refine Ensures.throw fun _ h => ?_
      cases h.1
    | some id => exact Ensures.pure fun _ h => ⟨Option.some.inj h.1, h.2⟩

/-- The row of the target is rewritten. -/
theorem promote_seeds {created : Bool} (hrow : rows i = some row) :
    Ensures (anyMove (seedAct env.toEnv) c) (Within c a rows) (promote email phone passwordHash i created)
      (fun _ => Within c a (Function.update rows i (some (promoted env.toEnv passwordHash email phone row)))) (Kept a) := by
  refine Ensures.bind (Q := fun updated e => updated.isSome = true ∧
    Within c a (Function.update rows i (some (promoted env.toEnv passwordHash email phone row))) e)
    (Ensures.await fun e r e' he hmove => ?_) fun updated => ?_
  · obtain ⟨m, hact⟩ := hmove
    cases m with
    | fail err =>
      cases hact
      exact he.kept
    | run wait draw =>
      have hseen : (tick wait e).users.view c i = some row := (he.seen i).trans hrow
      change rewriteUser env.toEnv c i _ (tick wait e) = some (r, e') at hact
      unfold rewriteUser at hact
      rw [hseen] at hact
      simp only at hact
      split at hact
      · cases hact
      · split at hact
        · cases hact
          exact he.kept
        · split at hact
          · cases hact
          · cases hact
            refine ⟨rfl, he.sole.write, fun j => ?_, fun j => ?_, he.tokens⟩
            · rw [Function.update_apply, ← he.seen j]
              exact Table.view_write (Table.lt_of_view hseen)
            · exact Table.committed_write.trans (he.kept j)
  · cases updated with
    | none =>
      refine Ensures.throw fun _ h => ?_
      cases h.1
    | some _ => exact Ensures.pure fun _ h => h.2

/-- The row that the script leaves for its admin. -/
structure Promoted (env : Auth.Env) (email : String) (phone : Option String) (passwordHash : String) (a : Auth.Db) (i : Nat)
    (user : User) : Prop where
  named : user.email = some (env.lower email)
  active : user.status = .active
  admin : user.isAdmin = true
  hashed : user.passwordHash = passwordHash
  others : ∀ j r, j ≠ i → a.users.committed j = some r → owns env email phone r = false
  deleted : user.deleted = true ↔ ∃ r, a.users.committedRows.filter (owns env email phone) = [r] ∧ r.deleted = true

/-- The one account that has the email or the phone. -/
theorem existing_one (ha : Idle a) {targetId : Nat}
    (h : [targetId] = ((a.users.committedRows.filter (owns env.toEnv email phone)).take 2).map (·.id)) :
    ∃ row, a.users.committedRows.filter (owns env.toEnv email phone) = [row] ∧ a.users.committed targetId = some row := by
  cases hrows : a.users.committedRows.filter (owns env.toEnv email phone) with
  | nil =>
    rw [hrows] at h
    cases h
  | cons row rest =>
    cases rest with
    | cons row' rest =>
      rw [hrows] at h
      cases h
    | nil =>
      rw [hrows] at h
      refine ⟨row, rfl, ?_⟩
      have hmem : row ∈ a.users.committedRows.filter (owns env.toEnv email phone) := by
        rw [hrows]
        exact List.mem_cons_self
      obtain ⟨j, hj⟩ := Table.mem_committedRows.mp (List.mem_filter.mp hmem).1
      have hid : targetId = row.id := (List.cons.inj h).1
      rw [hid, ha.keyed j row hj]
      exact hj

theorem seedAdminUser_seeds (ha : Idle a) :
    Ensures (anyMove (seedAct env.toEnv) c) (Begun a) (seedAdminUser email phone passwordHash)
      (fun _ e => ∃ i user, Within c a (Function.update a.users.committed i (some user)) e ∧
        Promoted env.toEnv email phone passwordHash a i user) (Kept a) := by
  refine Ensures.bind (selectExisting_seeds ha) fun existing => ?_
  intro e r e' ⟨hexisting, he⟩ hrun
  match existing with
  | [] =>
    have hnobody : a.users.committedRows.filter (owns env.toEnv email phone) = [] := by
      cases hrows : a.users.committedRows.filter (owns env.toEnv email phone) with
      | nil => rfl
      | cons row rest =>
        rw [hrows] at hexisting
        cases hexisting
    have hothers : ∀ j r, a.users.committed j = some r → owns env.toEnv email phone r = false := by
      intro j r hr
      have hnot := List.filter_eq_nil_iff.mp hnobody r (Table.mem_committedRows.mpr ⟨j, hr⟩)
      simpa using hnot
    refine Ensures.bind assertPhoneFree_seeds (fun _ => Ensures.bind (createAdmin_seeds ha) fun targetId => ?_) e r e' he hrun
    intro e r e' ⟨htarget, hwithin⟩ hrun
    subst htarget
    refine Ensures.conseq (promote_seeds (Function.update_self _ _ _)) (fun _ => id) (fun _ e h => ?_) (fun _ => id) e r e' hwithin hrun
    rw [Function.update_idem] at h
    refine ⟨_, _, h, ⟨rfl, rfl, rfl, rfl, fun j r _ => hothers j r, ?_⟩⟩
    constructor
    · intro hdeleted
      cases hdeleted
    · rintro ⟨r, hone, -⟩
      cases hnobody.symm.trans hone
  | [targetId] =>
    obtain ⟨row, hrows, hrow⟩ := existing_one ha hexisting
    refine Ensures.conseq (promote_seeds hrow) (fun _ => id) (fun _ e h => ?_) (fun _ => id) e r e' (he.within ha) hrun
    refine ⟨targetId, _, h, ⟨rfl, rfl, rfl, rfl, fun j r hj hr => ?_, ⟨fun hdeleted => ⟨row, hrows, hdeleted⟩, ?_⟩⟩⟩
    case refine_2 =>
      rintro ⟨r, hone, hdeleted⟩
      cases hrows.symm.trans hone
      exact hdeleted
    -- another owner would be found as well
    by_contra howns
    have hmem : r ∈ a.users.committedRows.filter (owns env.toEnv email phone) :=
      List.mem_filter.mpr ⟨Table.mem_committedRows.mpr ⟨j, hr⟩, by simpa using howns⟩
    rw [hrows, List.mem_singleton] at hmem
    subst hmem
    exact hj ((ha.keyed j r hr).symm.trans (ha.keyed targetId r hrow))
  | _ :: _ :: _ => exact Ensures.throw (fun _ => Begun.kept) e r e' he hrun

/-- What is committed when the script returns. -/
structure Seeded (a : Auth.Db) (i : Nat) (user : User) (e : Auth.Db) : Prop where
  rows : ∀ j, e.users.committed j = Function.update a.users.committed i (some user) j
  tokens : e.tokens = a.tokens

theorem seedAdmin_seeds (ha : Idle a) : Ensures (anyMove (seedAct env.toEnv) c) (Begun a) (seedAdmin input)
    (fun _ e => ∃ i user salt, Seeded a i user e ∧
      Promoted env.toEnv input.email input.phone (env.bcrypt input.password bcryptRounds salt) a i user) (Kept a) := by
  refine Ensures.bind hash_seeds fun passwordHash => ?_
  intro e r e' ⟨⟨salt, hsalt⟩, he⟩ hrun
  subst hsalt
  refine Ensures.transaction (P := Begun a) (B := Begun a) (E := Kept a) begin_seeds (seedAdminUser_seeds ha)
    (fun _ => Ensures.await fun e r e' ⟨i, user, hwithin, hpromoted⟩ ⟨m, hact⟩ => ?_)
    (Ensures.await fun e r e' he ⟨m, hact⟩ => ?_) e r e' he hrun
  · cases m with
    | fail err =>
      cases hact
      exact hwithin.kept
    | run wait draw =>
      cases hact
      refine ⟨i, user, salt, ⟨fun j => ?_, ?_⟩, hpromoted⟩
      · exact Table.committed_commit_eq_view.trans (hwithin.seen j)
      · have hcommit : (e.tokens.commit c) = e.tokens := by
          rw [hwithin.tokens]
          exact ha.tokens.commit_eq
        exact hcommit.trans hwithin.tokens
  · have hrolled : Kept a e' ∧ r = .ok () := by
      cases m with
      | fail err => cases hact
      | run wait draw =>
        cases hact
        exact ⟨fun i => Table.committed_rollback.trans (he i), rfl⟩
    obtain ⟨hkept, rfl⟩ := hrolled
    exact hkept

/-- The email of the admin is the only one of its kind. -/
theorem Seeded.sole {user : User} (h : Seeded a i user e)
    (hp : Promoted env.toEnv email phone passwordHash a i user) {j : Nat} {r : User} (hr : e.users.committed j = some r)
    (hsame : (r.email.any fun e => env.lower e = env.lower email) = true) : r = user := by
  rw [h.rows, Function.update_apply] at hr
  split at hr
  · exact (Option.some.inj hr).symm
  · rename_i hj
    have hnot := hp.others j r hj hr
    rw [owns, hsame] at hnot
    cases hnot

/-- An admin whose account is not deleted logs in. -/
theorem Seeded.ready (hverifies : Verifies env) {d : Db} (ha : Idle d.auth) {user : User} {salt : String} (h : Seeded d.auth i user e)
    (hp : Promoted env.toEnv input.email input.phone (env.bcrypt input.password bcryptRounds salt) d.auth i user)
    (hlive : user.deleted = false) : AdminReady env input.email input.password { d with auth := e } := by
  have hemail : (user.email.any fun e => env.lower e = env.lower input.email) = true := by
    rw [hp.named, Option.any_some, decide_eq_true_eq]
    exact env.lower_lower input.email
  have hrow : e.users.committed i = some user := (h.rows i).trans (Function.update_self _ _ _)
  refine ⟨i, user, hrow, hemail, hp.active, hp.admin, ?_⟩
  refine logsIn ?_ hrow hemail hlive hp.active ?_ fun j r hr hsame _ => h.sole hp hr hsame
  · change e.tokens.Unlocked
    rw [h.tokens]
    exact ha.tokens
  · rw [hp.hashed]
    exact hverifies _ _ _

end Seeding

section Deleted
variable {input : AdminSeedInput} {row : User} {i : Nat}

/-- No other row is in the way of a deleted one. -/
theorem deleted_free {a : Auth.Db} (ha : Idle a) (hrow : a.users.committed i = some row) (hdeleted : row.deleted = true)
    (hrows : a.users.committedRows.filter (owns env.toEnv email phone) = [row]) {j : Nat} {r : User}
    (hr : a.users.committed j = some r) :
    (r.id ≠ row.id && collides env.toEnv (promoted env.toEnv passwordHash email phone row) r) = false := by
  by_contra hcollides
  rw [Bool.not_eq_false, Bool.and_eq_true, decide_eq_true_eq] at hcollides
  obtain ⟨hid, hclash⟩ := hcollides
  simp only [collides, promoted, hdeleted, Bool.not_true, Bool.false_and, Bool.false_or] at hclash
  cases phone with
  | some p =>
    have howns : owns env.toEnv email (some p) r = true := by
      have hphone : r.phone = some p := by simpa using hclash
      simp [owns, hphone]
    have hmem := List.mem_filter.mpr ⟨Table.mem_committedRows.mpr ⟨j, hr⟩, howns⟩
    rw [hrows, List.mem_singleton] at hmem
    exact hid (congrArg User.id hmem)
  | none =>
    obtain ⟨p, hp, hsame⟩ := Option.any_eq_true _ _ |>.mp hclash
    have hphone : row.phone = some p := hp
    have hrphone : r.phone = some p := of_decide_eq_true hsame
    have hij := ha.phones i j row r hrow hr (by rw [hphone]; rfl) (hphone.trans hrphone.symm)
    subst hij
    rw [hrow] at hr
    exact hid (congrArg User.id (Option.some.inj hr)).symm

/-- A deleted account is seeded like another. -/
theorem revived_runs (ha : Idle d.auth) (hdeleted : row.deleted = true)
    (hrows : d.auth.users.committedRows.filter (owns env.toEnv input.email input.phone) = [row]) :
    ∃ r e, Runs (anyMove (seedAct env.toEnv) c) (seedAdmin input).run d.auth (.ok r) e := by
  obtain ⟨i, hrow⟩ : ∃ i, d.auth.users.committed i = some row := by
    have hmem : row ∈ d.auth.users.committedRows.filter (owns env.toEnv input.email input.phone) := by
      rw [hrows]
      exact List.mem_cons_self
    exact Table.mem_committedRows.mp (List.mem_filter.mp hmem).1
  let passwordHash := env.bcrypt input.password bcryptRounds (hexOf 0)
  let begun : Auth.Db := { d.auth with began := Function.update d.auth.began c d.auth.clock }
  let updated : Auth.Db := { begun with users := begun.users.write c i (some (promoted env.toEnv passwordHash input.email input.phone row)) }
  have hhash : anyMove (seedAct env.toEnv) c (.auth (.hash input.password bcryptRounds)) d.auth (.ok passwordHash) d.auth :=
    ⟨.run 0 0, rfl⟩
  have hbegin : anyMove (seedAct env.toEnv) c (.auth .begin) d.auth (.ok ()) begun := ⟨.run 0 0, rfl⟩
  have hselect : anyMove (seedAct env.toEnv) c (.selectExisting input.email input.phone) begun (.ok [i]) begun := by
    have hfound : ((begun.users.rows c).filter (owns env.toEnv input.email input.phone)) = [row] := by
      rw [← hrows]
      exact congrArg (List.filter _) ha.users.rows
    have hids : (([row].take 2).map (·.id)) = [i] := by
      rw [List.take_of_length_le (Nat.le_succ 1), List.map_singleton, ha.keyed i row hrow]
    refine ⟨.run 0 0, ?_⟩
    rw [← hids, ← hfound]
    rfl
  have hupdate : anyMove (seedAct env.toEnv) c (.updateAdmin passwordHash input.email input.phone i) begun
      (.ok (some (promoted env.toEnv passwordHash input.email input.phone row))) updated := by
    refine ⟨.run 0 0, ?_⟩
    change rewriteUser env.toEnv c i _ begun = _
    have hview : begun.users.view c i = some row := ha.users.view.trans hrow
    have hfree : begun.users.free c i = true := ha.users.sole i
    have hkey : findKey c (fun r => r.id ≠ row.id &&
        collides env.toEnv (promoted env.toEnv passwordHash input.email input.phone row) r) begun.users = none := by
      refine List.find?_eq_none.mpr fun j _ => ?_
      have hseen : begun.users.view c j = d.auth.users.committed j := ha.users.view
      rw [hseen]
      cases hr : d.auth.users.committed j with
      | none => exact Bool.false_ne_true
      | some r =>
        rw [Option.any_some, deleted_free ha hrow hdeleted hrows hr]
        exact Bool.false_ne_true
    have hheld : heldKey c (fun r => r.id ≠ row.id &&
        collides env.toEnv (promoted env.toEnv passwordHash input.email input.phone row) r) begun.users = none := by
      refine List.find?_eq_none.mpr fun j _ => ?_
      have hunlocked : (begun.users.cell j).held = none := ha.users j
      rw [hunlocked]
      exact Bool.false_ne_true
    simp only [rewriteUser, hview, hfree, hkey, hheld, Bool.not_true, Option.isSome_none, Bool.false_eq_true, if_false]
    rfl
  have hcommit : anyMove (seedAct env.toEnv) c (.auth .commit) updated (.ok ()) (updated.commit c) := ⟨.run 0 0, rfl⟩
  have hcall : Runs (anyMove (seedAct env.toEnv) c) (seedAdminUser input.email input.phone passwordHash).run begun
      (.ok ⟨row.id, some (env.lower input.email), input.phone.or row.phone, false⟩) updated :=
    Runs.then (Runs.await hselect) (Runs.then (Runs.await hupdate) .ret)
  exact ⟨_, _, Runs.then (Runs.await hhash) (Runs.transaction hbegin hcall hcommit)⟩

/-- A deleted account is seeded, and still nobody logs in. -/
theorem deleted_unseeded (ha : Idle d.auth) (hdeleted : row.deleted = true)
    (hrows : d.auth.users.committedRows.filter (owns env.toEnv input.email input.phone) = [row]) : ¬ Seeds env input d := by
  intro h
  obtain ⟨r, e, hrun⟩ := @revived_runs env 1 d input row ha hdeleted hrows
  obtain ⟨i, user, salt, hseeded, hpromoted⟩ := seedAdmin_seeds ha d.auth (.ok r) e ⟨rfl, rfl⟩ hrun
  obtain ⟨j, admin, -, -, -, -, hlogin⟩ := h.ready 1 r e hrun
  -- the account keeps its mark, and nobody else has the email
  have hrefused : ∀ j r, e.users.committed j = some r →
      (r.email.any fun e => env.lower e = env.lower input.email) = true → r.deleted = true := by
    intro j r hr hsame
    rw [hseeded.sole hpromoted hr hsame]
    exact hpromoted.deleted.mpr ⟨row, hrows, hdeleted⟩
  obtain ⟨o, d', hends⟩ := hlogin.ends 1
  obtain ⟨tokens, hok⟩ := hlogin.answers 1 o d' hends
  cases hok.symm.trans (login_refused hrefused hends)

/-- The script does what it is for exactly if the account that it finds, if any, is not deleted. -/
theorem seeds_iff (hverifies : Verifies env) (input : AdminSeedInput) (ha : Idle d.auth) :
    Seeds env input d ↔ Undeleted env input d.auth := by
  constructor
  · intro h row hrows
    by_contra hlive
    exact deleted_unseeded ha (by simpa using hlive) hrows h
  · intro h
    constructor
    · intro c r e hrun
      obtain ⟨i, user, salt, hseeded, hpromoted⟩ := seedAdmin_seeds ha d.auth (.ok r) e ⟨rfl, rfl⟩ hrun
      refine hseeded.ready hverifies ha hpromoted ?_
      by_contra hlive
      obtain ⟨row, hrows, hdeleted⟩ := hpromoted.deleted.mp (by simpa using hlive)
      rw [h row hrows] at hdeleted
      cases hdeleted
    · intro c err e hrun
      exact seedAdmin_seeds ha d.auth (.error err) e ⟨rfl, rfl⟩ hrun

end Deleted

section Nadia

theorem openEnv_verifies {b : Bool} : Verifies (openEnv b) := by
  intro password rounds salt
  change ((password ++ "/") ++ salt).startsWith (password ++ "/") = true
  rw [String.startsWith_string_iff]
  exact ⟨salt.toList, String.toList_append.symm⟩

/-- An admin who has deleted her account. -/
def nadia : User :=
  { id := 1, name := "Nadia", phone := none, email := some "nadia@shop.eg", address := none, passwordHash := "Secret123/",
    isAdmin := true, tokenVersion := 1, deleted := true }

def nadiaAlone : Db := { shop with auth := { accounts [] with users := .numbered [nadia] } }

/-- She is to be the admin again. -/
def nadiaSeed : AdminSeedInput where
  email := "nadia@shop.eg"
  phone := none
  password := "Secret456"
  valid_email := by decide +kernel
  valid_phone p h := nomatch h
  valid_password := by decide +kernel

theorem nadiaAlone_rows {i : Nat} {r : User} (h : nadiaAlone.auth.users.committed i = some r) : i = 1 ∧ r = nadia := by
  match i with
  | 0 => cases h
  | 1 => exact ⟨rfl, (Option.some.inj h).symm⟩
  | _ + 2 => cases h

theorem nadiaAlone_idle : Idle nadiaAlone.auth where
  users _ := rfl
  tokens _ := rfl
  keyed i r h := by
    obtain ⟨rfl, rfl⟩ := nadiaAlone_rows h
    rfl
  phones i j r r' hr hr' _ _ := (nadiaAlone_rows hr).1.trans (nadiaAlone_rows hr').1.symm

theorem nadia_found : nadiaAlone.auth.users.committedRows.filter (owns (openEnv true).toEnv nadiaSeed.email nadiaSeed.phone) =
    [nadia] := by
  decide +kernel

/-- The script reports success, and the login is refused. -/
theorem nadia_locked_out : ¬ Seeds (openEnv true) nadiaSeed nadiaAlone :=
  deleted_unseeded nadiaAlone_idle rfl nadia_found

/-- A store without users is seeded. -/
theorem nadia_seeded : Seeds (openEnv true) nadiaSeed ⟨accounts [], fun _ => none, []⟩ := by
  have hidle : Idle (accounts []) :=
    ⟨fun _ => rfl, fun _ => rfl, fun _ _ h => (nomatch h), fun _ _ _ _ h => (nomatch h)⟩
  refine (seeds_iff (d := ⟨accounts [], fun _ => none, []⟩) openEnv_verifies nadiaSeed hidle).mpr fun r h => ?_
  cases h

end Nadia

end Kayan.Sessions
